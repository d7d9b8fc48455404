import CallGate.Proofs.Session.Runs

/-!
# The numbers of answers and receipts

A call that is taken up has one number and one fingerprint, which its request,
its response and its receipt all carry.  The log grows by one receipt with each
number that is given, so the receipt of a call that was answered is found under
its number, however the session goes on.
-/

namespace CallGate

/-- The response is to the request. -/
structure Response.Answers (response : Response) (r : Request) : Prop where
  sequence_eq : response.sequence = r.sequence
  fingerprint_eq : response.fingerprint = r.fingerprint

theorem Response.answers_ofOutcome (r : Request) (outcome : Outcome) :
    (Response.ofOutcome r.sequence r.fingerprint outcome).Answers r := by
  cases outcome with
  | ok payload => exact ⟨rfl, rfl⟩
  | err failure => exact ⟨rfl, rfl⟩

namespace SessionState

/-- There is one receipt for each number that was given. -/
def Counted (st : SessionState) : Prop :=
  st.receipts.length = st.sequence

/-- The log of the second state goes on from that of the first one, with a
number for each receipt. -/
structure Grows (st st' : SessionState) : Prop where
  receipts_prefix : st.receipts <+: st'.receipts
  counted : st.Counted → st'.Counted

theorem Grows.refl (st : SessionState) : st.Grows st :=
  ⟨List.prefix_rfl, fun h => h⟩

theorem Grows.trans {st st' st'' : SessionState} (h : st.Grows st')
    (h' : st'.Grows st'') : st.Grows st'' :=
  ⟨h.receipts_prefix.trans h'.receipts_prefix,
    fun hcounted => h'.counted (h.counted hcounted)⟩

end SessionState

open SessionState (Grows)

namespace SessionSetup

variable {s : SessionSetup} {st : SessionState} {operation : OperationId}
  {args : Json} {r : Request} {t : Taken}

theorem executeGated_answers (s : SessionSetup) (r : Request)
    (st : SessionState) :
    (s.executeGated r st).executed.response.Answers r := by
  rw [executeGated]
  dsimp only
  split
  · exact ⟨rfl, rfl⟩
  · exact ⟨rfl, rfl⟩
  · exact Response.answers_ofOutcome r _

theorem controlDecide_answers (s : SessionSetup) (r : Request)
    (target : Approval.Target) (resolution : Approval.Resolution)
    (st : SessionState) :
    (s.controlDecide r target resolution st).executed.response.Answers r := by
  rw [controlDecide]
  split
  · exact ⟨rfl, rfl⟩
  · exact ⟨rfl, rfl⟩

theorem executeControl_answers (s : SessionSetup) (r : Request)
    (c : ApprovalControl) (st : SessionState) :
    (s.executeControl r c st).executed.response.Answers r := by
  rw [executeControl]
  split
  · exact ⟨rfl, rfl⟩
  · split
    · exact ⟨rfl, rfl⟩
    · cases c with
      | list => exact ⟨rfl, rfl⟩
      | request =>
          dsimp only
          rw [controlRequest]
          dsimp only
          split
          · exact ⟨rfl, rfl⟩
          · exact ⟨rfl, rfl⟩
      | status => exact ⟨rfl, rfl⟩
      | approve => exact controlDecide_answers s r _ .approved st
      | deny => exact controlDecide_answers s r _ .denied st

/-- Whatever is done about a request, the response is to it. -/
theorem execute_answers (s : SessionSetup) (r : Request) (route : Route)
    (st : SessionState) :
    (s.execute r route st).executed.response.Answers r := by
  cases route with
  | adapter => exact executeGated_answers s r st
  | control c => exact executeControl_answers s r c st

theorem act_grows (s : SessionSetup) (st : SessionState)
    (action : SessionAction) : st.Grows (s.act st action) := by
  rcases act_cases s st action with hst | ⟨_, _, t, _, ht, hst⟩ | ⟨_, hst⟩
  · rw [hst]
    exact .refl st
  · obtain ⟨spec, members, e, htakes⟩ := take_eq_ok ht
    have hreceipts : t.state.receipts = st.receipts ++ [t.receipt] := by
      rw [htakes.state_eq]
    rw [hst]
    constructor
    · rw [hreceipts]
      exact List.prefix_append _ _
    · intro hcounted
      rw [SessionState.Counted, hreceipts, htakes.state_sequence,
        List.length_append, hcounted]
      rfl
  · rw [hst]
    exact ⟨List.prefix_rfl, fun h => h⟩

theorem run_grows (s : SessionSetup) (st : SessionState)
    (actions : List SessionAction) : st.Grows (s.run st actions) := by
  induction actions generalizing st with
  | nil => exact .refl st
  | cons action rest ih =>
      exact (act_grows s st action).trans (ih (s.act st action))

end SessionSetup

/-- An answer, between the states before and after its call: it has the next
number, and its receipt says what was called and how that ended. -/
structure Dispatch.Logged (d : Dispatch) (operation : OperationId)
    (st st' : SessionState) : Prop where
  sequence_eq : d.response.sequence = st.sequence + 1
  receipts_eq : st'.receipts = st.receipts ++ [d.receipt]
  receipt_sequence : d.receipt.sequence = d.response.sequence
  receipt_fingerprint : d.receipt.fingerprint = d.response.fingerprint
  receipt_status : d.receipt.status = d.response.status
  receipt_service : d.receipt.service = operation.service
  receipt_operation : d.receipt.operation = operation.name

/-- Every answer is in the log. -/
theorem Session.logged_of_dispatch {s : Session} {operation : OperationId}
    {args : Json} {d : Dispatch} (hbuilt : s.setup.registry.Built)
    (h : (s.dispatch operation args).1 = .ok d) :
    d.Logged operation s.state (s.dispatch operation args).2.state := by
  obtain ⟨t, ht, rfl, hstate⟩ := dispatch_eq_ok h
  obtain ⟨spec, members, e, htakes⟩ := SessionSetup.take_eq_ok ht
  have hanswers : t.executed.response.Answers t.request := by
    rw [htakes.executed_eq, htakes.execution_eq]
    exact SessionSetup.execute_answers _ _ _ _
  have hoperation : t.request.operation = operation :=
    htakes.request_operation.trans (hbuilt.fits htakes.spec_eq).id_eq
  have hreceipt := htakes.receipt_eq
  constructor
  · exact hanswers.sequence_eq.trans htakes.request_sequence
  · rw [hstate, htakes.state_eq]
  · rw [hreceipt]
    exact hanswers.sequence_eq.symm
  · rw [hreceipt]
    exact hanswers.fingerprint_eq.symm
  · rw [hreceipt]
    rfl
  · rw [hreceipt, ← hoperation]
    rfl
  · rw [hreceipt, ← hoperation]
    rfl

end CallGate
