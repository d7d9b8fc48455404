import CallGate.Proofs.Episode.Ending
import CallGate.Proofs.Episode.Underway
import CallGate.Proofs.Policy.Evaluation
import CallGate.Proofs.Session.Report

/-!
# Denying what a step waits for

A step may say that an approval that it would wait for is to be denied.  The
episode finds the approval by the digest of the call, and the session by the
arguments of the denial; both come to the same approval, whatever the
arguments and the matching are.  So the step never waits: unless the receipt
of the denial is refused, the approval is denied and the attempt has failed.
-/

namespace CallGate

/-! ## The denial -/

namespace Session

variable {s : Session} {operation : OperationId} {args : Json}
  {members : Arguments} {a : Approval}

/-- What comes of a call that was taken up: the state after it, and an answer
unless the receipt is refused. -/
theorem dispatch_of_taken {t : Taken}
    (ht : s.setup.take operation args s.state = .ok t) :
    (s.dispatch operation args).2.state = t.state ∧
      ((∃ error, (s.dispatch operation args).1 =
          .error (.persistence error)) ∨
        ∃ d, (s.dispatch operation args).1 = .ok d) := by
  rw [dispatch, ht]
  dsimp only
  split
  · exact ⟨rfl, Or.inl ⟨_, rfl⟩⟩
  · exact ⟨rfl, Or.inr ⟨_, rfl⟩⟩

/-- Denying a call that an approval waits for denies the approval and leaves
nothing waiting for the call.  It is answered unless the receipt is refused. -/
theorem denial_of_waiting (hbuilt : s.setup.registry.Built)
    (h : s.setup.Accounted s.state)
    (hmembers : Arguments.ofValue operation args = .ok members)
    (ha : a ∈ s.state.approvals.covering operation
      (callDigest operation members))
    (hwaiting : a.resolution = .unresolved) :
    let denied := s.resolve .deny operation (some args)
    (∃ b, denied.2.state.approvals.get? a.id = some b ∧
        b.resolution = .denied) ∧
      denied.2.state.approvals.unresolvedFor? operation
        (callDigest operation members) = none ∧
      ((∃ error, denied.1 = .error (.persistence error)) ∨
        ∃ d, denied.1 = .ok d) := by
  intro denied
  have hmem := (Approval.Queue.mem_covering.1 ha).1
  have hopened : s.state.closed = false := by
    cases hclosed : s.state.closed with
    | false => rfl
    | true => exact absurd hwaiting (h.settled hclosed a hmem)
  obtain ⟨t, ht⟩ : ∃ t, s.setup.take ApprovalControl.deny.id
      (decisionArgs operation (some args)) s.state = .ok t :=
    SessionSetup.exists_take hopened (hbuilt.get?_control .deny) rfl
  obtain ⟨hstate, hanswer⟩ := dispatch_of_taken ht
  have happrovals : denied.2.state.approvals =
      s.state.approvals.resolveWhere
        (s.state.approvals.isOpenFor (s.setup.config.policy.targetFor
          operation (callDigest operation members)))
        .denied (s.state.sequence + 1) := by
    rw [← h.approvals_of_denial hbuilt hmembers ha ht, ← hstate]
    rfl
  refine ⟨⟨a.resolve .denied (s.state.sequence + 1), ?_, rfl⟩, ?_, hanswer⟩
  · rw [happrovals, Approval.Queue.get?_resolveWhere,
      h.orderly.kept.get?_of_mem hmem, Option.map_some,
      if_pos (Approval.Queue.isOpenFor_targetFor _ ha hwaiting)]
  · rw [happrovals]
    exact Approval.Queue.unresolvedFor?_of_decision _ (by decide) _

end Session

namespace Episode

variable {w : Workflow} {limits : EpisodeLimits} {e e' : Episode}
  {s : Session} {step : Step} {calls : List EpisodeCall} {i : Nat}

/-! ## Steps that wait -/

/-- What an episode waits for is for the step that it is at, and the step does
not say that it is to be denied. -/
def WaitsWithoutFallback (e : Episode) : Prop :=
  ∀ suspension, e.state.suspended = some suspension →
    ∃ i step, e.IsAt i step ∧ step.fallback = none

theorem WaitsWithoutFallback.of_awake (h : e.state.suspended = none) :
    WaitsWithoutFallback e := by
  intro suspension hsuspended
  cases h.symm.trans hsuspended

theorem WaitsWithoutFallback.turn (h : WaitsWithoutFallback e)
    (s : Session) : WaitsWithoutFallback (e.turn s).2.1 := by
  have heffect := turn_effect e s
  generalize e.turnCalls s = calls at heffect
  generalize e.turn s = taken at heffect ⊢
  obtain ⟨turn, e', s'⟩ := taken
  dsimp only at heffect ⊢
  cases heffect with
  | kept => exact h
  | finished hrunning hcurrent =>
      have hends := EndsAs.finish hrunning s.pendingCount
      refine .of_awake ?_
      rcases hends.suspended_eq with hnone | hsame
      · exact hnone
      · rw [hsame]
        cases hsuspended : e.state.suspended with
        | none => rfl
        | some suspension =>
            obtain ⟨i, step, hat, -⟩ := h suspension hsuspended
            cases hcurrent.symm.trans hat.current_eq
  | withheld => exact .of_awake (settle_suspended _ _ _ _)
  | denied => exact .of_awake (settle_suspended _ _ _ _)
  | undenied => exact .of_awake rfl
  | suspended i step told approval args hrunning hat htold hblocked
      hfallback =>
      exact fun _ _ => ⟨i, step, ⟨hat.current_eq, hat.step_eq⟩, hfallback⟩
  | timedOut => exact .of_awake rfl
  | attempted => exact .of_awake (settle_suspended _ _ _ _)
  | failed => exact .of_awake rfl

theorem Underway.waitsWithoutFallback (h : Underway w limits calls e) :
    WaitsWithoutFallback e := by
  induction h with
  | start => exact .of_awake rfl
  | @turn calls e h s ih => exact ih.turn s
  | @endEpisode calls e h s ih =>
      by_cases hrunning : e.state.status = .running
      · rw [endEpisode_of_running hrunning s]
        exact .of_awake (expire_suspended e)
      · rw [endEpisode_of_over hrunning s]
        exact ih

theorem Underway.suspended_eq_none (h : Underway w limits calls e)
    (hat : e.IsAt i step) (hfallback : step.fallback = some .autoDeny) :
    e.state.suspended = none := by
  cases hsuspended : e.state.suspended with
  | none => rfl
  | some suspension =>
      obtain ⟨j, other, hother, hnone⟩ :=
        h.waitsWithoutFallback suspension hsuspended
      cases hother.eq hat
      cases hnone.symm.trans hfallback

theorem turn_of_unsuspended (hrunning : e.state.status = .running)
    (hat : e.IsAt i step) (hnone : e.state.suspended = none) (s : Session) :
    e.turn s = e.proceed s step ∧ e.turnCalls s = e.proceedCalls s step := by
  have hresume : e.resume step s.state.approvals = .clear e [] := by
    rw [resume, hnone]
  have htold : s.tell [] = s := by
    rw [Session.tell, List.map_nil, List.append_nil]
  have hturn := turn_of_resume hrunning hat hresume
  rwa [htold] at hturn

/-! ## Steps that deny -/

/-- A step with a call that an approval waits for is blocked by it, since the
session asks for approvals of its adapters only.  No two approvals that wait are
for one call, so it is this one. -/
theorem blockedBy?_of_waiting (hbuilt : s.setup.registry.Built)
    (haccounted : s.setup.Accounted s.state)
    (hfits : Registry.Fits step.operation.id step.operation) {args : Json}
    {members : Arguments} {a : Approval}
    (hargs : e.arguments step = .ok args)
    (hmembers : Arguments.ofValue step.operation.id args = .ok members)
    (ha : a ∈ s.state.approvals.covering step.operation.id
      (callDigest step.operation.id members))
    (hwaiting : a.resolution = .unresolved) :
    e.blockedBy? step s = some (a.id, args) := by
  obtain ⟨hmem, hcovers⟩ := Approval.Queue.mem_covering.1 ha
  have hstep : step.isApprovalStep = false := by
    have happrovable := haccounted.approvable a hmem
    rw [(Approval.Target.covers_iff.1 hcovers).1] at happrovable
    obtain ⟨spec, hspec, hroute⟩ := happrovable
    exact (EpisodeCall.route_eq_of_fits hbuilt hfits hspec).2 hroute
  have hfound : s.state.approvals.unresolvedFor? step.operation.id
      (callDigest step.operation.id members) = some a := by
    cases hfound : s.state.approvals.unresolvedFor? step.operation.id
        (callDigest step.operation.id members) with
    | none =>
        have hnone := Approval.Queue.unresolvedFor?_eq_none_iff.1 hfound
        exact absurd hwaiting (hnone a ha)
    | some b =>
        rw [Approval.Queue.unresolvedFor?_eq_find?_covering] at hfound
        obtain ⟨hbmem, hbcovers⟩ := Approval.Queue.mem_covering.1
          (List.mem_of_find?_eq_some hfound)
        have hbwaiting : b.resolution = .unresolved := by
          simpa using List.find?_some hfound
        rw [haccounted.orderly.kept.eq_of_waiting hbmem hmem
          (Approval.Target.decidedBy_of_covers hbcovers hcovers) hbwaiting
          hwaiting]
  rw [blockedBy?, hstep, if_neg Bool.false_ne_true, hargs]
  dsimp only
  rw [Session.blocking, hmembers]
  dsimp only
  rw [hfound]

theorem denyBlocking_of_error {args : Json} {error : DispatchError}
    (h : (s.resolve .deny step.operation.id (some args)).1 = .error error)
    (e : Episode) (approval : String) :
    e.denyBlocking s step approval args =
      e.abort (s.resolve .deny step.operation.id (some args)).2 step
        error := by
  rw [denyBlocking]
  generalize s.resolve .deny step.operation.id (some args) = answered at h ⊢
  obtain ⟨answer, s'⟩ := answered
  cases h
  rfl

theorem denyBlocking_of_ok {args : Json} {d : Dispatch}
    (h : (s.resolve .deny step.operation.id (some args)).1 = .ok d)
    (e : Episode) (approval : String) :
    e.denyBlocking s step approval args =
      e.settleOn (s.resolve .deny step.operation.id (some args)).2 step
        (.approvalDenied approval) none := by
  rw [denyBlocking]
  generalize s.resolve .deny step.operation.id (some args) = answered at h ⊢
  obtain ⟨answer, s'⟩ := answered
  cases h
  rfl

theorem turn_of_blocked {approval : String} {args : Json}
    (hrunning : e.state.status = .running) (hat : e.IsAt i step)
    (hnone : e.state.suspended = none)
    (hblocked : e.blockedBy? step s = some (approval, args))
    (hfallback : step.fallback = some .autoDeny) :
    e.turn s = e.denyBlocking s step approval args ∧
      e.turnCalls s = [.denial s step args] := by
  obtain ⟨hturn, hcalls⟩ := turn_of_unsuspended hrunning hat hnone s
  rw [proceed, hblocked] at hturn
  rw [proceedCalls, hblocked] at hcalls
  dsimp only at hturn hcalls
  rw [hfallback] at hturn hcalls
  exact ⟨hturn, hcalls⟩

/-- An episode that is at a step that an approval would keep waiting, and that
says to deny it, makes one call, which is the denial.  After it the approval is
denied and nothing waits for the call of the step.  The episode does not wait:
it is aborted if the receipt of the denial is refused, and otherwise an attempt
that was not dispatched is settled, which names the approval and leads where
the step says that a failed attempt leads. -/
theorem autoDeny_never_waits {d : WorkflowDocument} {known : Registry}
    (hknown : known.Built) (hw : d.compile known = .ok w)
    (h : Underway w limits calls e) (hbuilt : s.setup.registry.Built)
    (hs : s.IsReached) (hrunning : e.state.status = .running)
    (hat : e.IsAt i step) (hfallback : step.fallback = some .autoDeny)
    {args : Json} {members : Arguments} {a : Approval}
    (hargs : e.arguments step = .ok args)
    (hmembers : Arguments.ofValue step.operation.id args = .ok members)
    (ha : a ∈ s.state.approvals.entries)
    (hcovers : a.target.covers step.operation.id
      (callDigest step.operation.id members) s.state.approvals.matching = true)
    (hwaiting : a.resolution = .unresolved) :
    let denied := s.resolve .deny step.operation.id (some args)
    let after := (e.turn s).2
    let number := e.state.attemptCount step.id + 1
    e.turnCalls s = [.denial s step args] ∧
      after.2.state = denied.2.state ∧
      (∃ b, after.2.state.approvals.get? a.id = some b ∧
        b.resolution = .denied) ∧
      after.2.state.approvals.unresolvedFor? step.operation.id
        (callDigest step.operation.id members) = none ∧
      after.1.state.suspended = none ∧
      ((∃ error : SinkError, denied.1 = .error (.persistence error) ∧
          (e.turn s).1 = .over (.error (.dispatch (.persistence error))) ∧
          after.1 =
            { e with
              state := { e.state with
                status := .aborted
                reason := some (.routerFailure
                  (DispatchError.persistence error).message) } }) ∨
        (∃ answer, denied.1 = .ok answer) ∧ (e.turn s).1 = .onward ∧
          ∃ transition current jumps reason,
            Course e step number (.approvalDenied a.id) transition current
              jumps reason ∧
            after.1 =
              { e with
                state := settledState e.state
                  (.make step.id number none (.approvalDenied a.id)
                    transition) current jumps reason }) := by
  intro denied after number
  have hstep : step ∈ w.steps := by
    rw [← h.steady.workflow_eq]
    exact List.mem_of_getElem? hat.step_eq
  have hfits : Registry.Fits step.operation.id step.operation := by
    obtain ⟨id, hid⟩ := WorkflowDocument.get?_of_compile hw hstep
    have hfits := hknown.fits hid
    rwa [← hfits.id_eq] at hfits
  have hcovering := Approval.Queue.mem_covering.2 ⟨ha, hcovers⟩
  have haccounted := hs.accounted hbuilt
  have hblocked := blockedBy?_of_waiting hbuilt haccounted hfits hargs
    hmembers hcovering hwaiting
  have hnone := h.suspended_eq_none hat hfallback
  obtain ⟨hturn, hcalls⟩ :=
    turn_of_blocked hrunning hat hnone hblocked hfallback
  obtain ⟨hdenied, hsettled, hanswer⟩ :=
    Session.denial_of_waiting hbuilt haccounted hmembers hcovering hwaiting
  rcases hanswer with ⟨error, herror⟩ | ⟨answer, hok⟩
  · rw [denyBlocking_of_error herror] at hturn
    have hafter : after = _ := congrArg (·.2) hturn
    have hstate : after.2.state = denied.2.state := by
      rw [hafter]
      rfl
    have hepisode : after.1 =
        { e with
          state := { e.state with
            status := .aborted
            reason := some (.routerFailure
              (DispatchError.persistence error).message) } } := by
      rw [hafter]
      rfl
    rw [hstate, hepisode]
    exact ⟨hcalls, rfl, hdenied, hsettled, hnone,
      Or.inl ⟨error, herror, congrArg (·.1) hturn, rfl⟩⟩
  · rw [denyBlocking_of_ok hok] at hturn
    have hafter : after = _ := congrArg (·.2) hturn
    obtain ⟨transition, current, jumps, reason, hcourse, hsettle⟩ :=
      exists_course_of_settle e step (.approvalDenied a.id) none
    have hstate : after.2.state = denied.2.state := by
      rw [hafter]
      rfl
    have hepisode : after.1 =
        { e with
          state := settledState e.state
            (.make step.id number none (.approvalDenied a.id) transition)
            current jumps reason } := by
      rw [hafter, ← hsettle]
      rfl
    rw [hstate, hepisode]
    exact ⟨hcalls, rfl, hdenied, hsettled, hnone,
      Or.inr ⟨⟨answer, hok⟩, congrArg (·.1) hturn, transition, current, jumps,
        reason, hcourse, rfl⟩⟩

/-- All mail is asked for before the first step sends one: the step denies what
was asked for and the episode continues. -/
theorem autoDeny_never_waits_answered :
    let session :=
      Session.start (mailSetup { matching := .call }) .null (.logical 0) .none
    let request : EpisodeAction :=
      .call ApprovalControl.request.id (Session.decisionArgs mailSend none)
    let last := (start mailWorkflow {}).play session [request]
    let after := (last.1.turn last.2).2
    last.1.turnCalls last.2 = [.denial last.2 (mailStep 0 "first") .null] ∧
      (∃ b, after.2.state.approvals.get? "approval-1" = some b ∧
        b.resolution = .denied) ∧
      after.2.state.approvals.unresolvedFor? mailSend
        (callDigest mailSend []) = none ∧
      after.1.state.history =
        [.make "first" 1 none (.approvalDenied "approval-1") .continue] := by
  intro session request last after
  have hwaits : last.2.state.approvals.entries.any (fun a =>
      a.id = "approval-1" ∧ a.resolution = .unresolved ∧
        a.target.covers mailSend (callDigest mailSend [])
          last.2.state.approvals.matching = true) = true := by
    decide +kernel
  obtain ⟨a, ha, hwaits⟩ := List.any_eq_true.1 hwaits
  obtain ⟨hid, hwaiting, hcovers⟩ := of_decide_eq_true hwaits
  have hanswered : (last.2.resolve .deny (mailStep 0 "first").operation.id
      (some .null)).1.isOk = true := by
    decide +kernel
  have hbuilt : last.2.setup.registry.Built := mailRegistry_built
  have hreached : last.2.IsReached :=
    isReached_play (start mailWorkflow {}) (mailSetup { matching := .call })
      .null (.logical 0) .none [request]
  have hstart : Underway mailWorkflow {} [] last.1 := .start
  have hat : last.1.IsAt 0 (mailStep 0 "first") := ⟨rfl, rfl⟩
  obtain ⟨hcalls, -, hdenied, hsettled, -, hend⟩ :=
    autoDeny_never_waits mailRegistry_built mailDocument_compile hstart hbuilt
      hreached rfl hat rfl rfl rfl ha hcovers hwaiting
  rw [hid] at hdenied hend
  refine ⟨hcalls, hdenied, hsettled, ?_⟩
  rcases hend with ⟨error, herror, -⟩ | ⟨-, -, transition, current, jumps,
    reason, hcourse, hafter⟩
  · rw [herror] at hanswered
    cases hanswered
  · refine (congrArg (·.state.history) hafter).trans ?_
    cases hcourse with
    | passed hpassed => cases hpassed
    | failed hfailed hlast =>
        rcases hlast with hexhausted | hfail
        · cases hexhausted
        · cases hfail
    | continued => rfl
    | refused target index hfailed hmore hrecourse => cases hrecourse
    | jumped target index hfailed hmore hrecourse => cases hrecourse

end Episode

end CallGate
