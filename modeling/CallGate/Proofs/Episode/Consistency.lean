import CallGate.Proofs.Episode.Success
import CallGate.Proofs.Workflow.Consistency

/-!
# Episodes of compiled workflows

An episode may stop because its state does not fit its workflow or its session:
it is at a place where there is no step, or it waits for an approval that
nobody knows.  None of this happens to a workflow that was compiled, whatever
callers do to the episode and its session in between.  The errors that a run
can report are those of its dispatches.
-/

namespace CallGate

/-! ## Places -/

namespace Workflow

variable {w : Workflow} {i j : Nat}

theorem leads_lt {t : Transition} (hi : i < w.steps.length)
    (h : w.leads i t = some j) : j < w.steps.length := by
  have hnext (h : (if i + 1 < w.steps.length then some (i + 1) else none) =
      some j) : j < w.steps.length := by
    split at h
    · rename_i hlt
      cases h
      exact hlt
    · cases h
  cases t with
  | advance => exact hnext h
  | «continue» => exact hnext h
  | jump target =>
      obtain ⟨hj, -⟩ := List.findIdx?_eq_some_iff_getElem.1 h
      exact hj
  | stop =>
      cases h
      exact hi

/-- In a workflow with steps attempts lead to one of them, if anywhere. -/
theorem follow_lt (hne : w.steps ≠ []) {history : List Attempt}
    (h : w.follow history = some j) : j < w.steps.length := by
  induction history using List.reverseRecOn generalizing j with
  | nil =>
      cases h
      exact List.length_pos_iff.2 hne
  | append_singleton history a ih =>
      rw [follow_concat, Option.bind_eq_some_iff] at h
      obtain ⟨i, hi, hleads⟩ := h
      exact leads_lt (ih hi) hleads

end Workflow

namespace Episode

variable {w : Workflow} {limits : EpisodeLimits} {setup : SessionSetup}
  {e e' : Episode} {s : Session} {suspension : Suspension}

theorem Traced.current_lt (h : Traced e) (hne : e.workflow.steps ≠ [])
    {i : Nat} (hcurrent : e.state.current = some i) :
    i < e.workflow.steps.length :=
  Workflow.follow_lt hne (h.current_eq.symm.trans hcurrent)

/-! ## Suspensions -/

/-- A turn leaves an episode waiting only if it still runs. -/
theorem TurnEffect.running_of_suspended {turn : Turn}
    {calls : List EpisodeCall} (h : TurnEffect e s turn calls e')
    (hsteady : Steady w limits e)
    (hbefore : ∀ suspension, e.state.suspended = some suspension →
      e.state.status = .running)
    (hsuspended : e'.state.suspended = some suspension) :
    e'.state.status = .running := by
  cases h with
  | kept => exact hbefore suspension hsuspended
  | finished hrunning hcurrent =>
      obtain ⟨status, reason, -, hfinish⟩ := exists_finish_eq e s.pendingCount
      rw [hfinish] at hsuspended
      obtain ⟨i, step, hat, -⟩ := hsteady.suspended_at suspension hsuspended
      cases hcurrent.symm.trans hat.current_eq
  | withheld =>
      rw [settle_suspended] at hsuspended
      cases hsuspended
  | denied =>
      rw [settle_suspended] at hsuspended
      cases hsuspended
  | undenied => cases hsuspended
  | suspended i step told approval args hrunning => exact hrunning
  | timedOut => cases hsuspended
  | attempted =>
      rw [settle_suspended] at hsuspended
      cases hsuspended
  | failed => cases hsuspended

theorem expire_suspended (e : Episode) :
    e.expire.1.state.suspended = none := by
  cases hsuspended : e.state.suspended with
  | none =>
      rw [expire, hsuspended]
      exact hsuspended
  | some suspension => rw [expire_of_suspended hsuspended]

theorem Reached.running_of_suspended (h : Reached w limits e) :
    ∀ suspension, e.state.suspended = some suspension →
      e.state.status = .running := by
  refine h.turn_invariant (P := fun e => ∀ suspension,
    e.state.suspended = some suspension → e.state.status = .running) ?_ ?_ ?_
  · intro suspension hsuspended
    cases hsuspended
  · intro e s hsteady hbefore suspension
    exact (turn_effect e s).running_of_suspended hsteady hbefore
  · intro e _ _ suspension hsuspended
    rw [expire_suspended] at hsuspended
    cases hsuspended

/-! ## Errors -/

/-- The error is one of a dispatch, and it has aborted the episode. -/
def AbortedBy (e : Episode) (error : EpisodeError) : Prop :=
  ∃ cause, error = .dispatch cause ∧ e.state.status = .aborted ∧
    e.state.reason = some (.routerFailure cause.message)

/-- The only errors of an episode that is at a step of its workflow and waits
for a known approval are those of dispatches. -/
theorem TurnEffect.abortedBy {error : EpisodeError}
    {calls : List EpisodeCall}
    (h : TurnEffect e s (.over (.error error)) calls e')
    (hne : e.workflow.steps ≠ []) (htraced : Traced e)
    (hattests : Attests setup (e, s)) : AbortedBy e' error := by
  cases h with
  | kept _ hidle =>
      cases hidle with
      | astray i hrunning hcurrent hstep =>
          have hlt := htraced.current_lt hne hcurrent
          rw [List.getElem?_eq_none_iff] at hstep
          exact absurd hlt (Nat.not_lt_of_le hstep)
      | unknown i step suspension hrunning hat hsuspended hget =>
          obtain ⟨a, ha⟩ := hattests.named suspension hsuspended
          cases hget.symm.trans ha
  | undenied i step told approval args cause => exact ⟨cause, rfl, rfl, rfl⟩
  | failed i step told cause => exact ⟨cause, rfl, rfl, rfl⟩

theorem Ends.abortedBy {n : Nat} {error : EpisodeError}
    {last : Except EpisodeError Progress × Episode × Session}
    (h : Ends n e s last) (hbuilt : setup.registry.Built)
    (hlaid : e.workflow.LaidOut) (hne : e.workflow.steps ≠ [])
    (htraced : Traced e) (hattests : Attests setup (e, s))
    (herror : last.1 = .error error) : AbortedBy last.2.1 error := by
  induction h with
  | @last e e' s s' result hturn =>
      have heffect := turn_effect e s
      rw [hturn] at heffect
      cases herror
      exact heffect.abortedBy hne htraced hattests
  | @onward e e' s s' n last hturn hrest ih =>
      have hmove := turn_move e s
      have hattests' := (hattests.turn hbuilt).1
      rw [hturn] at hmove hattests'
      have hworkflow := hmove.frame.1
      exact ih (hworkflow ▸ hlaid) (hworkflow ▸ hne)
        (htraced.move hlaid hmove) hattests' herror

theorem exists_dispatch_of_endEpisode {error : EpisodeError}
    (h : (e.endEpisode s).1 = .error error) :
    ∃ cause, error = .dispatch cause := by
  rw [endEpisode] at h
  generalize s.close = closed at h
  obtain ⟨_ | _, s'⟩ := closed
  · cases h
    exact ⟨_, rfl⟩
  · cases h

theorem endEpisode_not_running (e : Episode) (s : Session) :
    (e.endEpisode s).2.1.state.status ≠ .running := by
  by_cases hrunning : e.state.status = .running
  · rw [endEpisode_of_running hrunning, (expire_eq e).1]
    decide
  · rwa [endEpisode_of_over hrunning]

/-! ## Whatever callers do -/

/-- An episode fits its workflow and its session.  It is at a step of the
workflow or past the last one, and what it waits for is for the step that it is
at and known to the session.  A run reports no error but one of a dispatch that
aborts the episode, and an end no error but one of closing the session, when
the episode is over. -/
structure Fits (w : Workflow) (p : Episode × Session) : Prop where
  current_lt : ∀ i, p.1.state.current = some i → i < w.steps.length
  suspended : ∀ suspension, p.1.state.suspended = some suspension →
    p.1.state.status = .running ∧
      (∃ i step, p.1.state.current = some i ∧ w.steps[i]? = some step ∧
        suspension.step = step.id) ∧
      ∃ a, p.2.state.approvals.get? suspension.approval = some a
  run_error : ∀ error, (p.1.run p.2).1 = .error error →
    (p.1.run p.2).2.1.AbortedBy error
  end_error : ∀ error, (p.1.endEpisode p.2).1 = .error error →
    (∃ cause, error = .dispatch cause) ∧
      (p.1.endEpisode p.2).2.1.state.status ≠ .running

theorem Reached.fits (h : Reached w limits e) (hlaid : w.LaidOut)
    (hne : w.steps ≠ []) (hbuilt : setup.registry.Built)
    (hattests : Attests setup (e, s)) : Fits w (e, s) := by
  have hworkflow := h.steady.workflow_eq
  have htraced := h.traced hlaid
  constructor
  · intro i hcurrent
    have hlt := htraced.current_lt (hworkflow ▸ hne) hcurrent
    rwa [hworkflow] at hlt
  · intro suspension hsuspended
    obtain ⟨i, step, hat, hid⟩ := h.steady.suspended_at suspension hsuspended
    refine ⟨h.running_of_suspended suspension hsuspended,
      ⟨i, step, hat.current_eq, ?_, hid⟩,
      hattests.named suspension hsuspended⟩
    exact hworkflow ▸ hat.step_eq
  · intro error herror
    obtain ⟨n, -, hends⟩ := exists_ends_of_turns e.maxTurns s
      (hworkflow ▸ hlaid) (h.bounded hlaid) e.turnsLeft_le_maxTurns
    exact hends.abortedBy hbuilt (hworkflow ▸ hlaid) (hworkflow ▸ hne)
      htraced hattests herror
  · intro error herror
    exact ⟨exists_dispatch_of_endEpisode herror, endEpisode_not_running e s⟩

/-- A document that compiles gives a workflow that says the same of its steps
wherever it says something, and episodes of such a workflow rely on nothing
else: whatever callers do, an episode fits its workflow and its session. -/
theorem compiled_workflow_consistent {d : WorkflowDocument} {known : Registry}
    {w : Workflow} (hw : d.compile known = .ok w) :
    w.Renders d known ∧
      ∀ setup : SessionSetup, setup.registry.Built →
        ∀ (limits : EpisodeLimits) (snapshot : Json) (clock : Clock)
          (sink : ReceiptSink) (actions : List EpisodeAction),
          Fits w ((start w limits).play (.start setup snapshot clock sink)
            actions) := by
  have hrenders := WorkflowDocument.renders_of_compile hw
  have hlaid := WorkflowDocument.laidOut_of_compile hw
  have hne : w.steps ≠ [] := by
    obtain ⟨specs, hpasses⟩ := WorkflowDocument.exists_passes_of_compile hw
    obtain ⟨hsteps, -⟩ :=
      Compile.checkStructure_eq_ok_iff.1 hpasses.structure_ok
    rw [← List.length_pos_iff, hrenders.length_eq, List.length_pos_iff]
    exact hsteps
  refine ⟨hrenders, ?_⟩
  intro setup hbuilt limits snapshot clock sink actions
  let first := (start w limits, Session.start setup snapshot clock sink)
  have hstart : Reached w limits first.1 := .start
  have hattests : Attests setup first :=
    attests_start w limits setup snapshot clock sink
  exact (hstart.play actions).fits hlaid hne hbuilt
    (hattests.play hbuilt actions).1

/-- A document whose second step asks again when its approval is denied. -/
def persistentDocument : WorkflowDocument :=
  { mailDocument with
    steps :=
      [⟨"ask", "", ⟨"approvals", "request",
            Session.decisionArgs mailSend none⟩, [], .fail, none, none⟩,
        ⟨"send", "", ⟨"mail", "send", .null⟩, [], .jump "ask", some 2, none⟩]
    failurePaths := [⟨"ask again", "send", ["ask"], none⟩] }

def persistentWorkflow : Workflow :=
  persistentDocument.withSteps
    [⟨0, "ask", "", .viaControl .request, Session.decisionArgs mailSend none,
        Expectation.ordinary, .fail, none, none⟩,
      { mailStep 1 "send" with
        onFailure := .jump "ask" 0, maxAttempts := some 2, fallback := none }]

theorem persistentDocument_compile :
    persistentDocument.compile mailRegistry = .ok persistentWorkflow := by
  apply WorkflowDocument.compile_eq_of_steps
  decide +kernel

/-- The approval is denied, the episode asks again and waits once more. -/
theorem asked_again_consistent :
    let session := Session.start (mailSetup {}) .null (.logical 0) .none
    let denial : EpisodeAction :=
      .call ApprovalControl.deny.id (Session.decisionArgs mailSend none)
    let last :=
      (start persistentWorkflow {}).play session [.run, denial, .run]
    persistentWorkflow.position? "send" = some 1 ∧
      persistentWorkflow.failureEdges =
        [⟨"send", "ask", .onFailure⟩,
          ⟨"send", "ask", .declared "ask again"⟩] ∧
      last.1.state.jumps = 1 ∧
      last.1.state.suspended = some ⟨"send", "approval-2"⟩ ∧
      last.1.state.status = .running ∧
      ∃ a, last.2.state.approvals.get? "approval-2" = some a := by
  intro session denial last
  have hlast : last.1.state.jumps = 1 ∧
      last.1.state.suspended = some ⟨"send", "approval-2"⟩ := by
    decide +kernel
  have hbuilt : (mailSetup {}).registry.Built := mailRegistry_built
  obtain ⟨hrenders, hfits⟩ :=
    compiled_workflow_consistent persistentDocument_compile
  obtain ⟨hrunning, -, hknown⟩ := (hfits (mailSetup {}) hbuilt {} .null
    (.logical 0) .none [.run, denial, .run]).suspended _ hlast.2
  refine ⟨?_, hrenders.failureEdges_eq, hlast.1, hlast.2, hrunning, hknown⟩
  exact (hrenders.position?_iff "send" 1).2 ⟨_, rfl, rfl⟩

end Episode

end CallGate
