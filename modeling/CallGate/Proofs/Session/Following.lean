import CallGate.Proofs.Session.Recording

/-!
# Sessions that follow another one

A session that replays follows the one that it replays from call to call, as
long as the outcome of every call that is taken up is in its table.  Whether
the session is closed, what its sink refuses and which approvals wait are the
same on both sides at all times, so callers who go by these cannot tell the two
apart either.  The table that a whole run has recorded will do, since nothing
in it is recorded over later.
-/

namespace CallGate

/-- To the gate and to callers the second state looks like the first one, and
nothing is recorded in it. -/
structure SessionState.Echoes (st st' : SessionState) : Prop where
  closed_eq : st'.closed = st.closed
  sequence_eq : st'.sequence = st.sequence
  approvals_eq : st'.approvals = st.approvals
  receipts_eq : st'.receipts = st.receipts
  clock_eq : st'.clock = st.clock
  fixtures_eq : st'.fixtures = KeyMap.empty

namespace SessionSetup

variable {s other : SessionSetup} {st st' : SessionState}
  {actions : List SessionAction} {operation : OperationId} {args : Json}

theorem Mirrors.echoes (h : Mirrors st st') : st.Echoes st' where
  closed_eq := h.opened'.trans h.opened.symm
  sequence_eq := h.sequence
  approvals_eq := h.approvals
  receipts_eq := h.receipts
  clock_eq := h.clock
  fixtures_eq := h.fixtures

/-! ## What is kept in the table -/

/-- The calls that are taken up in two runs, one after the other. -/
theorem takings_append (s : SessionSetup) (st : SessionState)
    (first later : List SessionAction) :
    s.takings st (first ++ later) =
      s.takings st first ++ s.takings (s.run st first) later := by
  induction first generalizing st with
  | nil => rfl
  | cons action rest ih =>
      rw [List.cons_append, takings, takings, ih, List.append_assoc]
      rfl

/-- The table has for a call what was recorded, or not recorded, of it. -/
def KeptIn (s : SessionSetup) (table : Fixtures) (st : SessionState)
    (operation : OperationId) (args : Json) : Prop :=
  ∀ t, s.take operation args st = .ok t →
    table.get? t.request.fingerprint =
      t.state.fixtures.get? t.request.fingerprint

/-- What is recorded of the calls of a run is still recorded after it. -/
theorem fixtures_run_get?
    (hdigest : DigestsApart (s.inputs (s.takings st actions))) :
    ∀ x ∈ s.takings st actions,
      (s.run st actions).fixtures.get? x.taken.request.fingerprint =
        x.taken.state.fixtures.get? x.taken.request.fingerprint := by
  have hnodup := nodup_fingerprints hdigest
  revert hnodup
  refine invariant_run
    (fun last xs =>
      (xs.map fun x : Taking => x.taken.request.fingerprint).Nodup →
        ∀ x ∈ xs, last.fixtures.get? x.taken.request.fingerprint =
          x.taken.state.fixtures.get? x.taken.request.fingerprint)
    (fun _ _ _ _ h => h) ?_ ?_ actions
  · intro y xs hy hxs hnodup x hx
    rw [List.map_append, List.nodup_append] at hnodup
    obtain ⟨hbefore, -, hapart⟩ := hnodup
    rcases List.mem_append.1 hx with hx | hx
    · obtain ⟨spec, members, e, htakes⟩ := take_eq_ok hy
      have hne := hapart _ (List.mem_map_of_mem hx) _
        (List.mem_singleton_self y.taken.request.fingerprint)
      rw [htakes.fixtures_get?_of_ne hne]
      exact hxs hbefore x hx
    · cases List.mem_singleton.1 hx
      rfl
  · intro _ x hx
    cases hx

end SessionSetup

namespace Session

open SessionSetup (Mirrors)

variable {table : Fixtures} {s s' after after' : Session}
  {operation : OperationId} {args : Json}

/-! ## Following -/

/-- The second session replays from a table what the first one does. -/
structure Follows (table : Fixtures) (s s' : Session) : Prop where
  replays : s.setup.Replays s'.setup
  id_eq : s'.id = s.id
  table_eq : s'.setup.recorded = table
  sink_eq : s'.sink = s.sink
  echoes : s.state.Echoes s'.state

theorem follows_start {recording replaying : SessionSetup}
    (hreplays : recording.Replays replaying)
    (hid : replaying.config.id = recording.config.id)
    (snapshot snapshot' : Json) (clock : Clock) (sink : ReceiptSink) :
    Follows replaying.recorded (start recording snapshot clock sink)
      (start replaying snapshot' clock sink) where
  replays := hreplays
  id_eq := hid
  table_eq := rfl
  sink_eq := rfl
  echoes :=
    { closed_eq := rfl
      sequence_eq := rfl
      approvals_eq := by
        rw [start, start, SessionState.start, SessionState.start,
          hreplays.sameGate.policy]
      receipts_eq := rfl
      clock_eq := rfl
      fixtures_eq := rfl }

namespace Follows

theorem next (h : Follows table s s') (hsetup : after.setup = s.setup)
    (hsetup' : after'.setup = s'.setup) (hsink : after'.sink = after.sink)
    (hechoes : after.state.Echoes after'.state) :
    Follows table after after' where
  replays := by
    rw [hsetup, hsetup']
    exact h.replays
  id_eq := by
    rw [id, id, hsetup, hsetup']
    exact h.id_eq
  table_eq := by
    rw [hsetup']
    exact h.table_eq
  sink_eq := hsink
  echoes := hechoes

theorem tell (h : Follows table s s') (events events' : List AuditEvent) :
    Follows table (s.tell events) (s'.tell events') :=
  h.next rfl rfl h.sink_eq h.echoes

theorem pendingCount_eq (h : Follows table s s') :
    s'.pendingCount = s.pendingCount := by
  rw [pendingCount, pendingCount, h.echoes.approvals_eq]

theorem blocking_eq (h : Follows table s s') (operation : OperationId)
    (args : Json) : s'.blocking operation args = s.blocking operation args := by
  rw [blocking, blocking, h.echoes.approvals_eq]

theorem mirrors (h : Follows table s s') (hopen : s.state.closed = false) :
    Mirrors s.state s'.state where
  opened := hopen
  opened' := h.echoes.closed_eq.trans hopen
  sequence := h.echoes.sequence_eq
  approvals := h.echoes.approvals_eq
  receipts := h.echoes.receipts_eq
  clock := h.echoes.clock_eq
  fixtures := h.echoes.fixtures_eq

/-- A call that is not taken up is not taken up by the session that follows,
for the same reason. -/
theorem take_error (h : Follows table s s') {error : CallError}
    (ht : s.setup.take operation args s.state = .error error) :
    s'.setup.take operation args s'.state = .error error := by
  cases hclosed : s.state.closed with
  | false => exact (h.mirrors hclosed).take_error h.replays ht
  | true =>
      have hid : s'.setup.config.id = s.setup.config.id := h.id_eq
      rw [SessionSetup.take, SessionSetup.requestFor, hclosed] at ht
      rw [SessionSetup.take, SessionSetup.requestFor, h.echoes.closed_eq,
        hclosed, hid]
      exact ht

/-- A session that follows answers a call like the first one, and still
follows it afterwards. -/
theorem dispatch (h : Follows table s s')
    (hkept : s.setup.KeptIn table s.state operation args) :
    (s'.dispatch operation args).1 = (s.dispatch operation args).1 ∧
      Follows table (s.dispatch operation args).2
        (s'.dispatch operation args).2 := by
  cases ht : s.setup.take operation args s.state with
  | error error =>
      rw [dispatch_of_take_error ht,
        dispatch_of_take_error (h.take_error ht)]
      exact ⟨rfl, h⟩
  | ok t =>
      obtain ⟨spec, members, e, htakes⟩ := SessionSetup.take_eq_ok ht
      have hrecorded := hkept t ht
      rw [← h.table_eq] at hrecorded
      obtain ⟨t', ht', hrequest, hdecision, hresponse, hreceipt, hmirrors⟩ :=
        (h.mirrors htakes.opened).take h.replays ht hrecorded
      have hsending : s'.sink.send (s'.id, t'.receipt) =
          s.sink.send (s.id, t.receipt) := by
        rw [h.sink_eq, h.id_eq, hreceipt]
      rw [Session.dispatch, Session.dispatch, ht, ht']
      dsimp only
      rw [hsending, hrequest, hdecision, hresponse, hreceipt]
      cases (s.sink.send (s.id, t.receipt)).refusal with
      | some refusal =>
          exact ⟨rfl, h.next rfl rfl rfl hmirrors.echoes⟩
      | none => exact ⟨rfl, h.next rfl rfl rfl hmirrors.echoes⟩

/-- Both sessions report the same when they are closed. -/
theorem close (h : Follows table s s') :
    s'.close.1 = s.close.1 ∧ Follows table s.close.2 s'.close.2 := by
  have hechoes := h.echoes
  have hclosed : (s'.setup.close s'.state).1 = (s.setup.close s.state).1 ∧
      (s.setup.close s.state).2.1.Echoes (s'.setup.close s'.state).2.1 := by
    rw [SessionSetup.close, SessionSetup.close, hechoes.closed_eq]
    by_cases hover : s.state.closed = true
    · rw [if_pos hover, if_pos hover]
      exact ⟨rfl, hechoes⟩
    · rw [if_neg hover, if_neg hover, hechoes.approvals_eq,
        hechoes.sequence_eq]
      exact ⟨rfl, rfl, rfl, rfl, hechoes.receipts_eq, hechoes.clock_eq,
        hechoes.fixtures_eq⟩
  obtain ⟨hexpired, hlast⟩ := hclosed
  rw [Session.close, Session.close]
  dsimp only
  rw [hexpired, hlast.receipts_eq, h.sink_eq, h.id_eq]
  cases s.sink.flush.refusal with
  | some refusal => exact ⟨rfl, h.next rfl rfl rfl hlast⟩
  | none => exact ⟨rfl, h.next rfl rfl rfl hlast⟩

end Follows

end Session

end CallGate
