import CallGate.Proofs.Session.Replay
import CallGate.Proofs.Session.Takings
import Mathlib.Data.List.Nodup

/-!
# What is recorded

The table of recorded outcomes is made by the calls that adapters served, one
entry for each, and calls that are replayed add nothing to it.  A later call
could put its outcome in the place of an earlier one, but then the two would
have the same fingerprint.  Calls of one session have different numbers, so
what their fingerprints are digests of is different, and no entry is lost as
long as the digest tells these inputs apart.
-/

namespace CallGate

namespace Taking

variable {s : SessionSetup} {x : Taking} {mode : Mode} {key : String}
  {outcome : Outcome}

/-- The call was let through to an adapter that does not replay. -/
structure Executed (s : SessionSetup) (x : Taking) : Prop where
  forAdapter : x.ForAdapter s
  allowed : x.taken.executed.decision.action = .allow
  notReplayed :
    s.config.modes.of x.taken.request.operation.service ≠ .replay

theorem ServedIn.executed (h : x.ServedIn s mode) (hmode : mode ≠ .replay) :
    x.Executed s :=
  ⟨h.forAdapter, h.allowed, fun hreplay => hmode (h.mode_eq.trans hreplay)⟩

/-- What is recorded of a call, if anything is: the outcome at the adapter
under the fingerprint. -/
def fixture? (s : SessionSetup) (x : Taking) : Option (String × Outcome) :=
  match x.taken.executed.mode with
  | some .sim | some .live =>
    some (x.taken.request.fingerprint, (x.served s).1)
  | some .replay | none => none

theorem fst_of_fixture? {entry : String × Outcome}
    (h : x.fixture? s = some entry) :
    entry.1 = x.taken.request.fingerprint := by
  rw [fixture?] at h
  split at h <;> cases h <;> rfl

/-- A call that no adapter served was not executed. -/
theorem Valid.not_executed (h : x.Valid s)
    (hmode : x.taken.executed.mode = none) : ¬x.Executed s := by
  intro hexecuted
  exact (h.unserved hmode).1 ⟨hexecuted.forAdapter, hexecuted.allowed⟩

theorem Valid.fixture?_eq_some_iff (h : x.Valid s) :
    x.fixture? s = some (key, outcome) ↔
      x.Executed s ∧ x.taken.request.fingerprint = key ∧
        (x.served s).1 = outcome := by
  rcases Option.eq_none_or_eq_some x.taken.executed.mode with
    hmode | ⟨mode, hmode⟩
  · have hnot := h.not_executed hmode
    simp [fixture?, hmode, hnot]
  · have hserved := h.servedIn hmode
    cases mode with
    | replay =>
        have hnot : ¬x.Executed s := by
          intro hexecuted
          exact hexecuted.notReplayed hserved.mode_eq.symm
        simp [fixture?, hmode, hnot]
    | sim =>
        have hexecuted := hserved.executed (by decide)
        simp [fixture?, hmode, hexecuted]
    | live =>
        have hexecuted := hserved.executed (by decide)
        simp [fixture?, hmode, hexecuted]

theorem Valid.response_of_executed (h : x.Valid s) (hexecuted : x.Executed s) :
    x.taken.executed.response =
      .ofOutcome x.taken.request.sequence x.taken.request.fingerprint
        (x.served s).1 := by
  rcases Option.eq_none_or_eq_some x.taken.executed.mode with
    hmode | ⟨mode, hmode⟩
  · exact absurd hexecuted (h.not_executed hmode)
  · exact (h.servedIn hmode).response_eq

/-- A call adds to the table what is recorded of it. -/
theorem Valid.fixtures_eq (h : x.Valid s) :
    x.taken.state.fixtures =
      x.found.fixtures.insertAll (x.fixture? s).toList := by
  rw [fixture?]
  cases hmode : x.taken.executed.mode with
  | none => exact (h.unserved hmode).2.2
  | some mode =>
      have hserved := h.servedIn hmode
      rw [hserved.fixtures_eq]
      cases mode <;> rfl

theorem Valid.fingerprint_eq (h : x.Valid s) :
    x.taken.request.fingerprint =
      Sha256.hexOfText (x.taken.request.preimage s.config.seed) := by
  obtain ⟨spec, members, e, htakes⟩ := SessionSetup.take_eq_ok h
  exact htakes.fingerprint_eq

end Taking

namespace SessionSetup

variable {s : SessionSetup} {st : SessionState}
  {actions : List SessionAction}

/-- A run adds to the table what is recorded of its calls. -/
theorem fixtures_run (s : SessionSetup) (st : SessionState)
    (actions : List SessionAction) :
    (s.run st actions).fixtures =
      st.fixtures.insertAll
        ((s.takings st actions).filterMap (Taking.fixture? s)) := by
  refine invariant_run
    (fun last xs => last.fixtures =
      st.fixtures.insertAll (xs.filterMap (Taking.fixture? s)))
    (fun _ _ _ _ h => h) ?_ rfl actions
  intro x xs hx hxs
  rw [hx.fixtures_eq, hxs, List.filterMap_append, KeyMap.insertAll_append,
    List.filterMap_cons, List.filterMap_nil]
  cases x.fixture? s <;> rfl

/-- What the fingerprints of some calls are digests of. -/
def inputs (s : SessionSetup) (xs : List Taking) : List String :=
  xs.map (·.taken.request.preimage s.config.seed)

/-- The calls of a run have different fingerprints. -/
theorem nodup_fingerprints
    (hdigest : DigestsApart (s.inputs (s.takings st actions))) :
    ((s.takings st actions).map (·.taken.request.fingerprint)).Nodup := by
  have hsequences :
      ((s.takings st actions).map (·.taken.request.sequence)).Nodup := by
    rw [sequences_takings]
    exact List.nodup_range'
  refine List.pairwise_map.2 ((List.pairwise_map.1 hsequences).imp_of_mem ?_)
  intro x y hx hy hne hequal
  rw [(valid_of_mem_takings hx).fingerprint_eq,
    (valid_of_mem_takings hy).fingerprint_eq] at hequal
  exact hne (sequence_eq_of_fingerprintText_eq (hdigest _
    (List.mem_map_of_mem hx) _ (List.mem_map_of_mem hy) hequal))

theorem nodup_fixture_keys
    (hdigest : DigestsApart (s.inputs (s.takings st actions))) :
    (((s.takings st actions).filterMap
      (Taking.fixture? s)).map (·.1)).Nodup := by
  refine List.pairwise_map.2 (List.Pairwise.filterMap _ ?_
    (List.pairwise_map.1 (nodup_fingerprints hdigest)))
  intro x y hne entry hx other hy
  rw [Taking.fst_of_fixture? hx, Taking.fst_of_fixture? hy]
  exact hne

/-- What is recorded after a run from the start are the outcomes of the calls
that adapters executed. -/
theorem fixtures_get?_eq_some_iff (snapshot : Json) (clock : Clock)
    (hdigest : DigestsApart
      (s.inputs (s.takings (.start s.config snapshot clock) actions)))
    {key : String} {outcome : Outcome} :
    (s.run (.start s.config snapshot clock) actions).fixtures.get? key =
        some outcome ↔
      ∃ x ∈ s.takings (.start s.config snapshot clock) actions,
        x.Executed s ∧ x.taken.request.fingerprint = key ∧
          (x.served s).1 = outcome := by
  rw [fixtures_run]
  refine (KeyMap.get?_insertAll_empty_iff
    (nodup_fixture_keys hdigest)).trans ?_
  rw [List.mem_filterMap]
  refine exists_congr fun x => and_congr_right fun hx => ?_
  exact (valid_of_mem_takings hx).fixture?_eq_some_iff

end SessionSetup

namespace Session

/-- The table of recorded outcomes has the fingerprint of every call that was
let through to an adapter which does not replay, with the outcome that the
adapter gave and the caller was told.  It has no other fingerprint, and so
nothing for a call that was withheld, replayed or carried out on the queue. -/
theorem fixtures_are_executions (setup : SessionSetup) (snapshot : Json)
    (clock : Clock) (sink : ReceiptSink) (actions : List SessionAction)
    (hdigest : DigestsApart (setup.inputs
      (setup.takings (start setup snapshot clock sink).state actions))) :
    let fixtures :=
      ((start setup snapshot clock sink).run actions).state.fixtures
    let calls :=
      setup.takings (start setup snapshot clock sink).state actions
    (∀ x ∈ calls, x.Executed setup →
        fixtures.get? x.taken.request.fingerprint =
            some (x.served setup).1 ∧
          x.taken.executed.response =
            .ofOutcome x.taken.request.sequence x.taken.request.fingerprint
              (x.served setup).1) ∧
      (∀ x ∈ calls, ¬x.Executed setup →
        fixtures.get? x.taken.request.fingerprint = none) ∧
      ∀ key outcome, fixtures.get? key = some outcome →
        ∃ x ∈ calls, x.Executed setup ∧
          x.taken.request.fingerprint = key ∧
          (x.served setup).1 = outcome := by
  intro fixtures calls
  have hiff (key : String) (outcome : Outcome) :
      fixtures.get? key = some outcome ↔
        ∃ x ∈ calls, x.Executed setup ∧
          x.taken.request.fingerprint = key ∧
          (x.served setup).1 = outcome := by
    have hlast := (run_eq (start setup snapshot clock sink) actions).2
    have hfixtures := congrArg SessionState.fixtures hlast
    change fixtures = _ at hfixtures
    rw [hfixtures]
    exact SessionSetup.fixtures_get?_eq_some_iff snapshot clock hdigest
  refine ⟨fun x hx hexecuted => ⟨?_, ?_⟩, fun x hx hnot => ?_,
    fun key outcome hget => (hiff key outcome).1 hget⟩
  · exact (hiff _ _).2 ⟨x, hx, hexecuted, rfl, rfl⟩
  · exact (SessionSetup.valid_of_mem_takings hx).response_of_executed hexecuted
  · cases hget : fixtures.get? x.taken.request.fingerprint with
    | none => rfl
    | some outcome =>
        obtain ⟨y, hy, hexecuted, hequal, -⟩ := (hiff _ _).1 hget
        have hsame := List.inj_on_of_nodup_map
          (SessionSetup.nodup_fingerprints hdigest) hy hx hequal
        exact absurd (hsame ▸ hexecuted) hnot

/-- Two mails that are sent by a simulator are both recorded. -/
theorem mails_recorded :
    let setup := mailSetup mailGranted
    let session := start setup .null (.logical 0) .none
    let actions : List SessionAction :=
      [.call mailSend .null, .call mailSend .null]
    let calls := setup.takings session.state actions
    calls.length = 2 ∧ ∀ x ∈ calls,
      (session.run actions).state.fixtures.get?
          x.taken.request.fingerprint = some (x.served setup).1 := by
  intro setup session actions calls
  have hlength : calls.length = 2 := by decide +kernel
  have hmode : ∀ x ∈ calls, x.taken.executed.mode = some .sim := by
    decide +kernel
  have hinputs : setup.inputs calls =
      [fingerprintText 42042 1 mailSend [],
        fingerprintText 42042 2 mailSend []] := rfl
  have hdigest : DigestsApart (setup.inputs calls) := by
    rw [hinputs]
    exact digestsApart_mails
  obtain ⟨hrecorded, -, -⟩ := fixtures_are_executions setup .null
    (.logical 0) .none actions hdigest
  refine ⟨hlength, fun x hx => (hrecorded x hx ?_).1⟩
  exact ((SessionSetup.valid_of_mem_takings hx).servedIn
    (hmode x hx)).executed (by decide)

end Session

end CallGate
