import CallGate.Proofs.Episode.Calls
import CallGate.Proofs.Workflow.Compile

/-!
# Steps that wait are not called

Before an episode calls a step it looks for an approval that the call would
wait for, with the arguments that it is going to send.  The gate asks the same
question of the same queue, so the call finds nothing that waits: when it has
to wait itself, it waits for an approval that it asked for.
-/

namespace CallGate

namespace Approval.Queue

variable {q : Queue} {target : Target} {fingerprint : String} {n : Nat}

/-- An approval that is asked for is found under its id. -/
theorem get?_enqueue (hnew : q.get? q.nextId = none) :
    (q.enqueue target fingerprint n).get? q.nextId =
      some ⟨q.nextId, target, fingerprint, n, .unresolved, none⟩ := by
  rw [get?] at hnew
  rw [get?, enqueue, List.find?_append, hnew]
  simp

end Approval.Queue

namespace EpisodeCall

/-- No approval for the call of a step waits, unless the step acts on the
queue of approvals itself. -/
def Unblocked : EpisodeCall → Prop
  | .attempt session step args =>
    step.isApprovalStep = false → ∀ members,
      Arguments.ofValue step.operation.id args = .ok members →
      ∀ a ∈ session.state.approvals.covering step.operation.id
          (callDigest step.operation.id members),
        a.resolution ≠ .unresolved
  | .denial _ _ _ => True

/-- When the answer is that the call has to wait, it names an approval that
was not there before the call and waits after it. -/
def AsksAnew (c : EpisodeCall) : Prop :=
  ∀ d, (c.session.dispatch c.operation c.args).1 = .ok d →
    d.response.status = .pending →
    ∃ a, d.response.data =
        SessionSetup.approvalData (some a.id) c.step.operation.id
          Approval.Resolution.unresolved.label ∧
      c.session.state.approvals.get? a.id = none ∧
      (c.session.dispatch c.operation c.args).2.state.approvals.get? a.id =
        some a ∧
      a.requestedBy = d.request.fingerprint ∧
      a.resolution = .unresolved

/-- The call of a step that is registered goes where the step says. -/
theorem route_eq_of_fits {registry : Registry} (hbuilt : registry.Built)
    {step : Step} (hfits : Registry.Fits step.operation.id step.operation)
    {spec : OperationSpec}
    (hspec : registry.get? step.operation.id = some spec) :
    spec.id = step.operation.id ∧
      (spec.route = .adapter → step.isApprovalStep = false) := by
  refine ⟨(hbuilt.fits hspec).id_eq, fun hroute => ?_⟩
  rw [Step.isApprovalStep]
  cases hstep : step.operation.route with
  | adapter => rfl
  | control c =>
      obtain ⟨hid, -⟩ := hfits.eq_control hstep
      rw [hid, hbuilt.get?_control c] at hspec
      cases hspec
      cases hroute

/-- A call that nothing waits for asks for the approval that it has to wait
for. -/
theorem Unblocked.asksAnew {c : EpisodeCall} (h : c.Unblocked)
    (hbuilt : c.session.setup.registry.Built)
    (horderly : c.session.setup.Orderly c.session.state)
    (hfits : Registry.Fits c.step.operation.id c.step.operation) :
    c.AsksAnew := by
  intro d hd hpending
  obtain ⟨t, ht, rfl, hstate⟩ := Session.dispatch_eq_ok hd
  obtain ⟨spec, members, e, htakes⟩ := SessionSetup.take_eq_ok ht
  obtain ⟨hroute, hwaits⟩ := htakes.of_pending hpending
  cases c with
  | denial session step args =>
      have hspec := htakes.spec_eq
      dsimp only [operation] at hspec
      rw [hbuilt.get?_control .deny] at hspec
      cases hspec
      cases hroute
  | attempt session step args =>
      obtain ⟨hid, hstep⟩ := route_eq_of_fits hbuilt hfits htakes.spec_eq
      have hmembers := htakes.members_eq
      rw [hid] at hmembers hwaits
      have hnone := Approval.Queue.unresolvedFor?_eq_none_iff.2
        (h (hstep hroute) members hmembers)
      rcases hwaits with ⟨a, ha, -⟩ | ⟨-, hdata, happrovals⟩
      · cases ha.symm.trans hnone
      · have hnew := horderly.kept.get?_nextId
        let digest := callDigest step.operation.id members
        let asked : Approval :=
          ⟨session.state.approvals.nextId,
            session.setup.config.policy.targetFor step.operation.id digest,
            t.request.fingerprint, t.request.sequence, .unresolved, none⟩
        refine ⟨asked, hdata, hnew, ?_, rfl, rfl⟩
        rw [hstate, happrovals]
        exact Approval.Queue.get?_enqueue hnew

end EpisodeCall

namespace Episode

variable {e : Episode} {s : Session} {step : Step} {c : EpisodeCall}

/-- A step that an episode finds nothing waiting for can be called. -/
theorem unblocked_of_blockedBy?_eq_none {args : Json}
    (h : e.blockedBy? step s = none) (hargs : e.arguments step = .ok args) :
    (EpisodeCall.attempt s step args).Unblocked := by
  intro hstep members hmembers
  rw [blockedBy?, if_neg (by rw [hstep]; exact Bool.false_ne_true), hargs]
    at h
  dsimp only at h
  rw [Session.blocking, hmembers] at h
  dsimp only at h
  rw [← Approval.Queue.unresolvedFor?_eq_none_iff]
  cases hwaiting : s.state.approvals.unresolvedFor? step.operation.id
      (callDigest step.operation.id members) with
  | none => rfl
  | some a =>
      rw [hwaiting] at h
      cases h

theorem unblocked_of_mem_proceedCalls (h : c ∈ e.proceedCalls s step) :
    c.Unblocked ∧ c.step = step := by
  rw [proceedCalls] at h
  cases hblocked : e.blockedBy? step s with
  | some blocked =>
      rw [hblocked] at h
      dsimp only at h
      split at h
      · cases List.mem_singleton.1 h
        exact ⟨trivial, rfl⟩
      · cases h
  | none =>
      rw [hblocked] at h
      dsimp only at h
      split at h
      · cases h
      · rw [attemptCalls] at h
        cases hargs : e.arguments step with
        | error error =>
            rw [hargs] at h
            cases h
        | ok args =>
            rw [hargs] at h
            cases List.mem_singleton.1 h
            exact ⟨unblocked_of_blockedBy?_eq_none hblocked hargs, rfl⟩

theorem unblocked_of_mem_turnCalls (h : c ∈ e.turnCalls s) :
    c.Unblocked ∧ c.step ∈ e.workflow.steps := by
  rw [turnCalls] at h
  split at h
  · cases h
  · split at h
    · cases h
    · split at h
      · cases h
      · rename_i step hstep
        split at h
        · cases h
        · cases h
        · cases h
        · obtain ⟨hunblocked, rfl⟩ := unblocked_of_mem_proceedCalls h
          exact ⟨hunblocked, List.mem_of_getElem? hstep⟩

/-- No call of a run is one that an approval waits for. -/
theorem unblocked_of_mem_turnsCalls {fuel : Nat}
    (h : c ∈ turnsCalls fuel e s) :
    c.Unblocked ∧ c.step ∈ e.workflow.steps := by
  induction fuel generalizing e s with
  | zero => cases h
  | succ fuel ih =>
      rw [turnsCalls] at h
      have hworkflow := (turn_leads e s).workflow_eq
      generalize e.turn s = taken at h hworkflow
      rcases List.mem_append.1 h with hfirst | hrest
      · exact unblocked_of_mem_turnCalls hfirst
      · obtain ⟨_ | _, e', s'⟩ := taken
        · rw [← hworkflow]
          exact ih hrest
        · cases hrest

/-- Whatever happened to an episode and its session before, a run makes no call
of a step that an approval waits for, and a call that has to wait asked for
the approval that it waits for. -/
theorem run_calls_unblocked
    {d : WorkflowDocument} {known : Registry} {w : Workflow}
    (hknown : known.Built) (hw : d.compile known = .ok w)
    {setup : SessionSetup} (hbuilt : setup.registry.Built)
    (limits : EpisodeLimits) (snapshot : Json) (clock : Clock)
    (sink : ReceiptSink) (actions : List EpisodeAction) :
    let p := (start w limits).play (.start setup snapshot clock sink) actions
    Leads p.1 p.2 (p.1.runCalls p.2) (p.1.run p.2).2.1 (p.1.run p.2).2.2 ∧
      ∀ c ∈ p.1.runCalls p.2, c.Unblocked ∧ c.AsksAnew := by
  intro p
  have hplays : Plays w setup p :=
    (plays_start w limits setup snapshot clock sink).play actions
  have hrun := run_leads p.1 p.2
  refine ⟨hrun, fun c hc => ?_⟩
  obtain ⟨hunblocked, hstep⟩ := unblocked_of_mem_turnsCalls hc
  rw [hplays.workflow_eq] at hstep
  obtain ⟨hsetup, horderly⟩ :=
    (hrun.chain.orderly (hplays.setup_eq ▸ hplays.orderly)).2 c hc
  obtain ⟨id, hid⟩ := WorkflowDocument.get?_of_compile hw hstep
  have hfits : Registry.Fits c.step.operation.id c.step.operation := by
    have hfits := hknown.fits hid
    rwa [← hfits.id_eq] at hfits
  refine ⟨hunblocked, hunblocked.asksAnew ?_ ?_ hfits⟩
  · rw [hsetup, hplays.setup_eq]
    exact hbuilt
  · rw [hsetup]
    exact horderly

/-- A document with two steps that send the same mail, which both deny what
the mail would wait for. -/
def mailDocument : WorkflowDocument where
  name := "mails"
  objective := {}
  world := .null
  actors := []
  constraints := []
  approvals := []
  steps := ["first", "second"].map fun id =>
    ⟨id, "", ⟨"mail", "send", .null⟩, [], .continue, none, some .autoDeny⟩
  success := []
  failurePaths := []
  tags := []
  metadata := KeyMap.empty

def mailStep (index : Nat) (id : String) : Step :=
  ⟨index, id, "", .viaAdapter mailSend .writeRisky, .null,
    Expectation.ordinary, .continue, none, some .autoDeny⟩

def mailWorkflow : Workflow :=
  mailDocument.withSteps [mailStep 0 "first", mailStep 1 "second"]

theorem mailDocument_compile :
    mailDocument.compile mailRegistry = .ok mailWorkflow := rfl

/-- The first step asks for the approval that it waits for, and the second
denies it. -/
theorem mail_asked_then_denied :
    let session := Session.start (mailSetup {}) .null (.logical 0) .none
    let calls := (start mailWorkflow {}).runCalls session
    calls.map (·.operation) = [mailSend, ApprovalControl.deny.id] ∧
      ∃ c ∈ calls, ∃ (d : Dispatch) (a : Approval),
        (c.session.dispatch c.operation c.args).1 = .ok d ∧
          d.response.status = .pending ∧
          c.session.state.approvals.get? a.id = none ∧
          a.requestedBy = d.request.fingerprint ∧
          a.resolution = .unresolved := by
  intro session calls
  have hcalls :
      calls.map (·.operation) = [mailSend, ApprovalControl.deny.id] := by
    decide +kernel
  have hwaits : calls.any (fun c =>
      (c.session.dispatch c.operation c.args).1.toOption.any
        (·.response.status = .pending)) = true := by
    decide +kernel
  obtain ⟨c, hc, hanswer⟩ := List.any_eq_true.1 hwaits
  obtain ⟨d, hdispatch, hstatus⟩ := exists_ok_of_any hanswer
  have hpending : d.response.status = .pending := of_decide_eq_true hstatus
  have hbuilt : (mailSetup {}).registry.Built := mailRegistry_built
  have hrun := run_calls_unblocked mailRegistry_built mailDocument_compile
    hbuilt {} .null (.logical 0) .none []
  obtain ⟨a, -, hnew, -, hrequested, hwaiting⟩ :=
    (hrun.2 c hc).2 d hdispatch hpending
  exact ⟨hcalls, c, hc, d, a, hdispatch, hpending, hnew, hrequested,
    hwaiting⟩

end Episode

end CallGate
