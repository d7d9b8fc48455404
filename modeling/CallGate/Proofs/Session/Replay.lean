import CallGate.Proofs.Call.Fingerprint
import CallGate.Proofs.Session.Runs

/-!
# Replaying a session

A session that replays what another one recorded goes through the same states
as far as the gate can see: the worlds differ, but every call has the same
number, finds the same queue and, when it is let through, its own outcome in
the table.  The outcome is still there because the calls after it have other
numbers and so other fingerprints.
-/

namespace CallGate

/-- What the fingerprint of a request is a digest of. -/
def Request.preimage (r : Request) (seed : Nat) : String :=
  fingerprintText seed r.sequence r.operation r.args

/-- What the fingerprints of the answered calls are digests of. -/
def preimages (seed : Nat)
    (answers : List (Except DispatchError Dispatch)) : List String :=
  answers.filterMap fun answer =>
    answer.toOption.map fun d => d.request.preimage seed

/-- The digest tells some inputs apart. -/
def DigestsApart (inputs : List String) : Prop :=
  ∀ x ∈ inputs, ∀ y ∈ inputs,
    Sha256.hexOfText x = Sha256.hexOfText y → x = y

namespace Session

/-- Dispatches calls one after the other. -/
def dispatchAll (session : Session) : List (OperationId × Json) →
    List (Except DispatchError Dispatch) × Session
  | [] => ([], session)
  | call :: rest =>
    let (answer, next) := session.dispatch call.1 call.2
    let (answers, last) := next.dispatchAll rest
    (answer :: answers, last)

end Session

namespace SessionSetup

variable {s other : SessionSetup} {st st' : SessionState}
  {operation : OperationId} {args : Json} {r : Request} {t : Taken}
  {spec : OperationSpec} {members : Arguments} {e : Execution}

/-! ## Recording and replaying a call -/

/-- A call that is not replayed is recorded under its fingerprint. -/
theorem serve_of_recording (hmode : s.adapters.modeOf r ≠ .replay)
    (st : SessionState) :
    (s.serve r st).2.fixtures =
      st.fixtures.insert r.fingerprint (s.serve r st).1 := by
  rw [serve]
  dsimp only
  rw [if_neg hmode]

/-- A call that is replayed has the recorded outcome and changes nothing. -/
theorem serve_of_replaying {outcome : Outcome}
    (hmode : s.adapters.modeOf r = .replay)
    (hrecorded : s.recorded.get? r.fingerprint = some outcome)
    (st : SessionState) : s.serve r st = (outcome, st) := by
  have hreplay : s.adapters.executeReplay r = outcome := by
    rw [Adapters.executeReplay, adapters, hrecorded]
  rw [serve, Adapters.execute, hmode]
  dsimp only
  rw [if_pos rfl, hreplay]

theorem TakesUp.fingerprint_eq
    (h : s.TakesUp operation args st t spec members e) :
    t.request.fingerprint =
      Sha256.hexOfText (t.request.preimage s.config.seed) := by
  rw [Request.preimage, ← fingerprint_eq_hexOfText, h.request_eq,
    Request.make]

/-- Taking up a call keeps what is recorded under other fingerprints. -/
theorem TakesUp.fixtures_get?_of_ne
    (h : s.TakesUp operation args st t spec members e) {key : String}
    (hne : key ≠ t.request.fingerprint) :
    t.state.fixtures.get? key = st.fixtures.get? key := by
  rw [h.state_eq, h.execution_eq]
  let numbered : SessionState := { st with sequence := st.sequence + 1 }
  change (s.execute t.request spec.route numbered).state.fixtures.get? key =
    st.fixtures.get? key
  cases hmode :
      (s.execute t.request spec.route numbered).executed.mode with
  | none => rw [execute_of_unserved hmode]
  | some mode =>
      obtain ⟨hroute, hallow⟩ := execute_of_served (by rw [hmode]; rfl)
      rw [hroute, execute, executeGated_of_allowed hallow]
      by_cases hreplay : s.adapters.modeOf t.request = .replay
      · rw [serve]
        dsimp only
        rw [if_pos hreplay]
      · dsimp only
        rw [serve_of_recording hreplay, KeyMap.get?_insert_of_ne _ hne]

/-! ## Lockstep -/

/-- Two states that the gate cannot tell apart, of which the second recorded
nothing. -/
structure Mirrors (st st' : SessionState) : Prop where
  opened : st.closed = false
  opened' : st'.closed = false
  sequence : st'.sequence = st.sequence
  approvals : st'.approvals = st.approvals
  receipts : st'.receipts = st.receipts
  clock : st'.clock = st.clock
  fixtures : st'.fixtures = KeyMap.empty

/-- The calls that one session serves and records, another one replays. -/
structure Replays (s other : SessionSetup) : Prop where
  sameGate : s.SameGate other
  recording : ∀ service, s.config.modes.of service ≠ .replay
  replaying : other.config.modes = .uniform .replay

/-- A request that is carried out again on the same queue, from a table that
has its outcome, ends the same way. -/
theorem Replays.execute (h : s.Replays other) (r : Request) (route : Route)
    (happrovals : st'.approvals = st.approvals)
    (hkept : other.recorded.get? r.fingerprint =
      (s.execute r route st).state.fixtures.get? r.fingerprint) :
    (other.execute r route st').executed.decision =
        (s.execute r route st).executed.decision ∧
      (other.execute r route st').executed.response =
        (s.execute r route st).executed.response ∧
      (other.execute r route st').state.approvals =
        (s.execute r route st).state.approvals ∧
      (other.execute r route st').state.fixtures = st'.fixtures := by
  cases hmode : (s.execute r route st).executed.mode with
  | none =>
      obtain ⟨hexecuted, hqueue⟩ :=
        execute_congr h.sameGate happrovals hmode
      have hmode' : (other.execute r route st').executed.mode = none := by
        rw [hexecuted, hmode]
      refine ⟨by rw [hexecuted], by rw [hexecuted], hqueue, ?_⟩
      rw [execute_of_unserved hmode']
  | some mode =>
      obtain ⟨rfl, hallow⟩ := execute_of_served (by rw [hmode]; rfl)
      have hpeek : other.config.policy.peek r st'.approvals =
          s.config.policy.peek r st.approvals := by
        rw [h.sameGate.policy, happrovals]
      have hrecorded :
          other.recorded.get? r.fingerprint = some (s.serve r st).1 := by
        rw [hkept, SessionSetup.execute, executeGated_of_allowed hallow]
        dsimp only
        rw [serve_of_recording (h.recording _), KeyMap.get?_insert_self]
      have hreplaying : other.adapters.modeOf r = .replay := by
        rw [Adapters.modeOf, adapters, h.replaying]
        rfl
      rw [SessionSetup.execute, SessionSetup.execute,
        executeGated_of_allowed hallow,
        executeGated_of_allowed (hpeek ▸ hallow),
        serve_of_replaying hreplaying hrecorded, hpeek]
      refine ⟨rfl, rfl, ?_, rfl⟩
      rw [serve_state, happrovals]

/-- A call that is taken up again gets the same answer and the same receipt,
and the states still mirror each other. -/
theorem Mirrors.take (hreplays : s.Replays other) (hmirrors : Mirrors st st')
    (ht : s.take operation args st = .ok t)
    (hkept : other.recorded.get? t.request.fingerprint =
      t.state.fixtures.get? t.request.fingerprint) :
    ∃ t', other.take operation args st' = .ok t' ∧
      t'.request = t.request ∧
      t'.executed.decision = t.executed.decision ∧
      t'.executed.response = t.executed.response ∧
      t'.receipt = t.receipt ∧ Mirrors t.state t'.state := by
  obtain ⟨spec, members, e, htakes⟩ := take_eq_ok ht
  obtain ⟨t', e', ht', htakes', hrequest⟩ :=
    htakes.exists_other hreplays.sameGate hmirrors.opened' hmirrors.sequence
  have hfixtures : t.state.fixtures = e.state.fixtures := by
    rw [htakes.state_eq]
  rw [hfixtures, htakes.execution_eq] at hkept
  let numbered : SessionState := { st with sequence := st.sequence + 1 }
  let numbered' : SessionState := { st' with sequence := st'.sequence + 1 }
  have hqueue : numbered'.approvals = numbered.approvals :=
    hmirrors.approvals
  obtain ⟨hdecision, hresponse, happrovals, hempty⟩ :=
    hreplays.execute t.request spec.route hqueue hkept
  rw [← htakes.execution_eq, ← hrequest, ← htakes'.execution_eq]
    at hdecision hresponse happrovals
  rw [← hrequest, ← htakes'.execution_eq] at hempty
  rw [← htakes.executed_eq, ← htakes'.executed_eq] at hdecision hresponse
  have hreceipt : t'.receipt = t.receipt := by
    rw [htakes'.receipt_eq, htakes.receipt_eq, receiptOf, receiptOf, hrequest,
      hdecision, hresponse, hmirrors.clock]
  refine ⟨t', ht', hrequest, hdecision, hresponse, hreceipt, ?_⟩
  exact
    { opened := htakes.state_closed
      opened' := htakes'.state_closed
      sequence := by
        rw [htakes.state_sequence, htakes'.state_sequence, hmirrors.sequence]
      approvals := by rw [htakes.state_eq, htakes'.state_eq, happrovals]
      receipts := by
        rw [htakes.state_eq, htakes'.state_eq, hreceipt, hmirrors.receipts]
      clock := by rw [htakes.state_eq, htakes'.state_eq, hmirrors.clock]
      fixtures := by rw [htakes'.state_eq, hempty, hmirrors.fixtures] }

/-- A call that is not taken up is not taken up again, for the same reason. -/
theorem Mirrors.take_error (hreplays : s.Replays other)
    (hmirrors : Mirrors st st') {error : CallError}
    (ht : s.take operation args st = .error error) :
    other.take operation args st' = .error error := by
  rw [SessionSetup.take] at ht ⊢
  rw [requestFor_congr hreplays.sameGate hmirrors.opened hmirrors.opened'
    hmirrors.sequence]
  cases hrequest : s.requestFor operation args st with
  | ok found =>
      rw [hrequest] at ht
      cases ht
  | error e =>
      rw [hrequest] at ht
      exact ht

end SessionSetup

namespace Session

variable {session replayer : Session} {operation : OperationId} {args : Json}
  {calls : List (OperationId × Json)} {t : Taken}

/-! ## Sessions without a sink -/

/-- Without a sink a call that is taken up is answered. -/
theorem dispatch_of_take (hsink : session.sink = .none)
    (ht : session.setup.take operation args session.state = .ok t) :
    (session.dispatch operation args).1 =
        .ok ⟨t.request, t.executed.decision, t.executed.response,
          t.receipt⟩ ∧
      (session.dispatch operation args).2.setup = session.setup ∧
      (session.dispatch operation args).2.state = t.state ∧
      (session.dispatch operation args).2.sink = .none := by
  rw [dispatch, ht, hsink]
  exact ⟨rfl, rfl, rfl, rfl⟩

theorem dispatch_of_take_error {e : CallError}
    (ht : session.setup.take operation args session.state = .error e) :
    session.dispatch operation args = (.error (.call e), session) := by
  rw [dispatch, ht]

@[simp] theorem preimages_cons_ok (seed : Nat) (d : Dispatch)
    (answers : List (Except DispatchError Dispatch)) :
    preimages seed (.ok d :: answers) =
      d.request.preimage seed :: preimages seed answers := rfl

/-- What later fingerprints are digests of has later numbers in it. -/
theorem sequence_lt_of_mem_preimages (hsink : session.sink = .none)
    {seed : Nat} {x : String}
    (hx : x ∈ preimages seed (session.dispatchAll calls).1) :
    ∃ n id members, session.state.sequence < n ∧
      x = fingerprintText seed n id members := by
  induction calls generalizing session with
  | nil => cases hx
  | cons call rest ih =>
      rw [dispatchAll] at hx
      cases ht : session.setup.take call.1 call.2 session.state with
      | error e =>
          rw [dispatch_of_take_error ht] at hx
          exact ih hsink hx
      | ok t =>
          obtain ⟨spec, members, e, htakes⟩ := SessionSetup.take_eq_ok ht
          obtain ⟨hanswer, -, hstate, hnone⟩ := dispatch_of_take hsink ht
          dsimp only at hx
          rw [hanswer, preimages_cons_ok] at hx
          rcases List.mem_cons.1 hx with rfl | hx
          · refine ⟨_, _, _, ?_, rfl⟩
            rw [htakes.request_sequence]
            exact Nat.lt_succ_self _
          · obtain ⟨n, id, members, hlt, rfl⟩ := ih hnone hx
            rw [hstate, htakes.state_sequence] at hlt
            exact ⟨n, id, members, Nat.lt_of_succ_lt hlt, rfl⟩

/-- What is recorded under a fingerprint that no call has stays there. -/
theorem fixtures_dispatchAll (hsink : session.sink = .none) {key : String}
    (hne : ∀ x ∈ preimages session.setup.config.seed
      (session.dispatchAll calls).1, Sha256.hexOfText x ≠ key) :
    (session.dispatchAll calls).2.state.fixtures.get? key =
      session.state.fixtures.get? key := by
  induction calls generalizing session with
  | nil => rfl
  | cons call rest ih =>
      rw [dispatchAll] at hne ⊢
      cases ht : session.setup.take call.1 call.2 session.state with
      | error e =>
          rw [dispatch_of_take_error ht] at hne ⊢
          exact ih hsink hne
      | ok t =>
          obtain ⟨spec, members, e, htakes⟩ := SessionSetup.take_eq_ok ht
          obtain ⟨hanswer, hsetup, hstate, hnone⟩ :=
            dispatch_of_take hsink ht
          dsimp only at hne ⊢
          rw [hanswer, preimages_cons_ok] at hne
          rw [ih hnone, hstate]
          · refine htakes.fixtures_get?_of_ne ?_
            rw [htakes.fingerprint_eq]
            exact (hne _ List.mem_cons_self).symm
          · rw [hsetup]
            exact fun x hx => hne x (List.mem_cons_of_mem _ hx)

/-! ## A whole session -/

/-- Sessions that mirror each other answer all calls alike and still mirror each
other afterwards.  The calls after one have other fingerprints, so its outcome
is still recorded at the end. -/
theorem dispatchAll_of_mirrors
    (hreplays : session.setup.Replays replayer.setup)
    (hsink : session.sink = .none) (hsink' : replayer.sink = .none)
    (hmirrors : SessionSetup.Mirrors session.state replayer.state)
    (hrecorded : replayer.setup.recorded =
      (session.dispatchAll calls).2.state.fixtures)
    (hcollision : ∀ x ∈ preimages session.setup.config.seed
        (session.dispatchAll calls).1,
      ∀ y ∈ preimages session.setup.config.seed
          (session.dispatchAll calls).1,
        Sha256.hexOfText x = Sha256.hexOfText y → x = y) :
    (replayer.dispatchAll calls).1 = (session.dispatchAll calls).1 ∧
      SessionSetup.Mirrors (session.dispatchAll calls).2.state
        (replayer.dispatchAll calls).2.state := by
  induction calls generalizing session replayer with
  | nil => exact ⟨rfl, hmirrors⟩
  | cons call rest ih =>
      rw [dispatchAll] at hrecorded hcollision ⊢
      rw [dispatchAll]
      cases ht : session.setup.take call.1 call.2 session.state with
      | error e =>
          rw [dispatch_of_take_error ht] at hrecorded hcollision ⊢
          rw [dispatch_of_take_error (hmirrors.take_error hreplays ht)]
          obtain ⟨hanswers, hlast⟩ :=
            ih hreplays hsink hsink' hmirrors hrecorded hcollision
          refine ⟨?_, hlast⟩
          dsimp only
          rw [hanswers]
      | ok t =>
          obtain ⟨spec, members, e, htakes⟩ := SessionSetup.take_eq_ok ht
          obtain ⟨hanswer, hsetup, hstate, hnone⟩ :=
            dispatch_of_take hsink ht
          dsimp only at hrecorded hcollision ⊢
          rw [hanswer, preimages_cons_ok] at hcollision
          have hkept : replayer.setup.recorded.get? t.request.fingerprint =
              t.state.fixtures.get? t.request.fingerprint := by
            rw [hrecorded, ← hstate]
            refine fixtures_dispatchAll hnone fun x hx => ?_
            rw [hsetup] at hx
            rw [htakes.fingerprint_eq]
            intro hequal
            have hsame := hcollision x (List.mem_cons_of_mem _ hx) _
              List.mem_cons_self hequal
            obtain ⟨n, id, members, hlt, rfl⟩ :=
              sequence_lt_of_mem_preimages hnone hx
            rw [hstate, htakes.state_sequence, ← htakes.request_sequence,
              sequence_eq_of_fingerprintText_eq hsame] at hlt
            exact Nat.lt_irrefl _ hlt
          obtain ⟨t', ht', hrequest, hdecision, hresponse, hreceipt,
            hmirrors'⟩ := hmirrors.take hreplays ht hkept
          obtain ⟨hanswer', hsetup', hstate', hnone'⟩ :=
            dispatch_of_take hsink' ht'
          have hrest := fun x hx => fun y hy =>
            hcollision x (List.mem_cons_of_mem _ hx) y
              (List.mem_cons_of_mem _ hy)
          rw [← hsetup, ← hsetup'] at hreplays
          rw [← hstate, ← hstate'] at hmirrors'
          rw [← hsetup'] at hrecorded
          rw [← hsetup] at hrest
          obtain ⟨hanswers, hlast⟩ :=
            ih hreplays hnone hnone' hmirrors' hrecorded hrest
          refine ⟨?_, hlast⟩
          rw [hanswers, hanswer, hanswer', hrequest, hdecision, hresponse,
            hreceipt]

/-- A session that replays what another one recorded, with the same seed,
policy and registry, answers the same calls alike and ends with the same log
and the same queue, while it records nothing itself. -/
theorem replayed_session_answers_alike
    {recording replaying : SessionSetup}
    (hsame : recording.SameGate replaying)
    (hrecording : ∀ service, recording.config.modes.of service ≠ .replay)
    (hreplaying : replaying.config.modes = .uniform .replay)
    (snapshot snapshot' : Json) (clock : Clock)
    (calls : List (OperationId × Json))
    (hrecorded : replaying.recorded =
      ((start recording snapshot clock .none).dispatchAll
        calls).2.state.fixtures)
    (hcollision :
      let inputs := preimages recording.config.seed
        ((start recording snapshot clock .none).dispatchAll calls).1
      ∀ x ∈ inputs, ∀ y ∈ inputs,
        Sha256.hexOfText x = Sha256.hexOfText y → x = y) :
    let first := (start recording snapshot clock .none).dispatchAll calls
    let second := (start replaying snapshot' clock .none).dispatchAll calls
    second.1 = first.1 ∧
      second.2.state.receipts = first.2.state.receipts ∧
      second.2.state.approvals = first.2.state.approvals ∧
      second.2.state.fixtures = KeyMap.empty := by
  intro first second
  have hmirrors : SessionSetup.Mirrors
      (start recording snapshot clock .none).state
      (start replaying snapshot' clock .none).state :=
    { opened := rfl
      opened' := rfl
      sequence := rfl
      approvals := by
        rw [start, start, SessionState.start, SessionState.start,
          hsame.policy]
      receipts := rfl
      clock := rfl
      fixtures := rfl }
  obtain ⟨hanswers, hlast⟩ := dispatchAll_of_mirrors
    ⟨hsame, hrecording, hreplaying⟩ rfl rfl hmirrors hrecorded hcollision
  exact ⟨hanswers, hlast.receipts, hlast.approvals, hlast.fixtures⟩

/-- A policy that grants the risky operation beforehand. -/
def mailGranted : Policy := { preGranted := KeySet.ofList [mailSend] }

theorem fingerprintText_mail (n : Nat) :
    fingerprintText 42042 n mailSend [] =
      String.ofList
        ('{' :: (Json.quoted "call" ++ ':' ::
            Json.braced
              [(Json.quoted "args", Json.braced []),
                (Json.quoted "operation", Json.quoted "send"),
                (Json.quoted "service", Json.quoted "mail")] ++
            ',' :: (Json.quoted "seed" ++ ':' :: Text.decimal 42042 ++
              ',' :: Json.quoted "sequence")) ++
          ':' :: (Text.decimal n ++ ['}'])) := by
  rw [fingerprintText, Json.canonicalText, canonical_fingerprintBody,
    fingerprintHead, canonical_callBody, Json.canonical_obj_of_sorted]
  · rfl
  · exact List.Pairwise.nil

theorem hexOfText_fingerprintText_mail_ne :
    Sha256.hexOfText (fingerprintText 42042 1 mailSend []) ≠
      Sha256.hexOfText (fingerprintText 42042 2 mailSend []) := by
  rw [fingerprintText_mail, fingerprintText_mail]
  decide +kernel

theorem digestsApart_mails :
    DigestsApart
      [fingerprintText 42042 1 mailSend [],
        fingerprintText 42042 2 mailSend []] := by
  intro x hx y hy hequal
  simp only [List.mem_cons, List.not_mem_nil, or_false] at hx hy
  rcases hx with rfl | rfl <;> rcases hy with rfl | rfl
  · rfl
  · exact absurd hequal hexOfText_fingerprintText_mail_ne
  · exact absurd hequal.symm hexOfText_fingerprintText_mail_ne
  · rfl

/-- Two mails that are sent by a simulator are sent again by replaying. -/
theorem mails_replayed :
    let calls := [(mailSend, Json.null), (mailSend, Json.null)]
    let first :=
      (start (mailSetup mailGranted) .null (.logical 0) .none).dispatchAll
        calls
    let replaying : SessionSetup :=
      { config := { policy := mailGranted, modes := .uniform .replay }
        registry := mailRegistry
        recorded := first.2.state.fixtures }
    let second :=
      (start replaying .null (.logical 0) .none).dispatchAll calls
    first.1.map (fun answer => answer.toOption.map (·.response.status)) =
        [some .ok, some .ok] ∧
      second.1 = first.1 ∧
      second.2.state.receipts = first.2.state.receipts := by
  intro calls first replaying second
  have hstatus :
      first.1.map (fun answer => answer.toOption.map (·.response.status)) =
        [some .ok, some .ok] := by
    decide +kernel
  have hinputs : preimages 42042 first.1 =
      [fingerprintText 42042 1 mailSend [],
        fingerprintText 42042 2 mailSend []] := rfl
  have hcollision : ∀ x ∈ preimages 42042 first.1,
      ∀ y ∈ preimages 42042 first.1,
        Sha256.hexOfText x = Sha256.hexOfText y → x = y := by
    rw [hinputs]
    exact digestsApart_mails
  have hsame : (mailSetup mailGranted).SameGate replaying := ⟨rfl, rfl, rfl⟩
  have hrecording : ∀ service,
      (mailSetup mailGranted).config.modes.of service ≠ .replay := by
    intro service h
    cases h
  obtain ⟨hanswers, hreceipts, -, -⟩ :=
    replayed_session_answers_alike hsame hrecording rfl .null .null
      (.logical 0) calls rfl hcollision
  exact ⟨hstatus, hanswers, hreceipts⟩

end Session

end CallGate
