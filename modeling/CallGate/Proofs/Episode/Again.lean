import CallGate.Proofs.Episode.Ending
import CallGate.Proofs.Episode.Verdicts

/-!
# Running again

A run stops where its next turn would stop too.  The episode is over, or it
waits for an approval that is still unresolved when the run returns, however
many approvals were asked for, resolved and denied on the way.  So a run that
follows at once finds what the first one left, and leaves it so.
-/

namespace CallGate

namespace Episode

variable {e e' : Episode} {s s' told : Session} {step : Step}
  {suspension : Suspension} {progress : Progress}

/-! ## Where runs stop -/

/-- An episode stops here: it is over, or it waits for an approval that
nobody has resolved. -/
inductive Stops (e : Episode) (s : Session) : Progress → Prop where
  | ended (hover : e.state.status ≠ .running) :
      Stops e s (.finished e.state.status)
  | waiting (i : Nat) (step : Step) (suspension : Suspension) (a : Approval)
      (hrunning : e.state.status = .running) (hat : e.IsAt i step)
      (hsuspended : e.state.suspended = some suspension)
      (hget : s.state.approvals.get? suspension.approval = some a)
      (hunresolved : a.resolution = .unresolved) :
      Stops e s (.suspended suspension)

/-- The next turn changes nothing. -/
theorem Stops.turn_eq (h : Stops e s progress) :
    e.turn s = (.over (.ok progress), e, s) := by
  cases h with
  | ended hover => exact turn_of_over hover s
  | waiting i step suspension a hrunning hat hsuspended hget hunresolved =>
      have hgoes : ¬e.state.status.isTerminal = true :=
        fun hover => EpisodeStatus.isTerminal_iff.1 hover hrunning
      have hresume : e.resume step s.state.approvals = .waiting suspension := by
        rw [resume, hsuspended]
        dsimp only
        rw [hget]
        dsimp only
        rw [hunresolved]
      rw [turn, if_neg hgoes, hat.current_eq]
      dsimp only
      rw [hat.step_eq]
      dsimp only
      rw [hresume]

theorem TurnEffect.calls_eq_nil {calls : List EpisodeCall}
    (h : TurnEffect e s (.over (.ok progress)) calls e') : calls = [] := by
  cases h <;> rfl

theorem run_of_turn_over {result : Except EpisodeError Progress}
    (hturn : e.turn s = (.over result, e', s')) :
    e.run s = (result, e', s') := by
  rw [run, maxTurns, turns, hturn]

/-- A run changes nothing and makes no call. -/
theorem Stops.run_eq (h : Stops e s progress) :
    e.run s = (.ok progress, e, s) ∧ e.runCalls s = [] := by
  have heffect := turn_effect e s
  rw [h.turn_eq] at heffect
  refine ⟨run_of_turn_over h.turn_eq, ?_⟩
  rw [(run_eq_of_turn_over h.turn_eq).2]
  exact heffect.calls_eq_nil

/-! ## The last turn of a run -/

theorem resume_eq_waiting {queue : Approval.Queue}
    (h : e.resume step queue = .waiting suspension) :
    e.state.suspended = some suspension ∧
      ∃ a, queue.get? suspension.approval = some a ∧
        a.resolution = .unresolved := by
  rw [resume] at h
  cases hsuspended : e.state.suspended with
  | none =>
      rw [hsuspended] at h
      cases h
  | some other =>
      rw [hsuspended] at h
      dsimp only at h
      cases hget : queue.get? other.approval with
      | none =>
          rw [hget] at h
          cases h
      | some a =>
          rw [hget] at h
          dsimp only at h
          cases hresolution : a.resolution with
          | unresolved =>
              rw [hresolution] at h
              cases h
              exact ⟨rfl, a, hget, hresolution⟩
          | approved | denied | expired =>
              rw [hresolution] at h
              cases h

theorem resolution_of_blocking {operation : OperationId} {args : Json}
    {a : Approval} (h : s.blocking operation args = .ok (some a)) :
    a.resolution = .unresolved := by
  rw [Session.blocking] at h
  split at h
  · cases h
  · rw [Approval.Queue.unresolvedFor?_eq_find?_covering] at h
    simpa using List.find?_some (Except.ok.inj h)

/-- A step stops a run well only by waiting for an approval that it finds
unresolved. -/
theorem stops_of_proceed {i n : Nat}
    (hkept : told.state.approvals.WellKept n)
    (hrunning : e.state.status = .running) (hat : e.IsAt i step)
    (h : e.proceed told step = (.over (.ok progress), e', s')) :
    Stops e' s' progress := by
  rw [proceed] at h
  cases hblocked : e.blockedBy? step told with
  | some blocked =>
      obtain ⟨approval, args⟩ := blocked
      obtain ⟨a, hblocking, rfl⟩ := exists_blocking_of_blockedBy? hblocked
      rw [hblocked] at h
      dsimp only at h
      cases hfallback : step.fallback with
      | some fallback =>
          cases fallback
          rw [hfallback] at h
          dsimp only [denyBlocking] at h
          split at h <;> cases h
      | none =>
          rw [hfallback] at h
          cases h
          exact .waiting i step ⟨step.id, a.id⟩ a hrunning
            ⟨hat.current_eq, hat.step_eq⟩ rfl
            (hkept.get?_of_mem (mem_of_blocking hblocking))
            (resolution_of_blocking hblocking)
  | none =>
      rw [hblocked] at h
      dsimp only at h
      split at h
      · cases h
      · dsimp only [attempt] at h
        split at h
        · cases h
        · split at h
          · split at h <;> cases h
          · cases h

/-- A turn that ends a run well leaves the episode where it stops. -/
theorem stops_of_turn {n : Nat} (hkept : s.state.approvals.WellKept n)
    (h : e.turn s = (.over (.ok progress), e', s')) :
    Stops e' s' progress := by
  rw [turn] at h
  by_cases hover : e.state.status.isTerminal = true
  · rw [if_pos hover] at h
    cases h
    exact .ended (EpisodeStatus.isTerminal_iff.1 hover)
  · rw [if_neg hover] at h
    have hrunning : e.state.status = .running := by
      rwa [EpisodeStatus.isTerminal_iff, ne_eq, Decidable.not_not] at hover
    cases hcurrent : e.state.current with
    | none =>
        rw [hcurrent] at h
        cases h
    | some index =>
        rw [hcurrent] at h
        dsimp only at h
        cases hstep : e.workflow.steps[index]? with
        | none =>
            rw [hstep] at h
            cases h
        | some step =>
            have hat : e.IsAt index step := ⟨hcurrent, hstep⟩
            have hresumed := resume_resumed e step s.state.approvals
            rw [hstep] at h
            dsimp only at h
            cases hresume : e.resume step s.state.approvals with
            | unknown approval =>
                rw [hresume] at h
                cases h
            | waiting suspension =>
                rw [hresume] at h
                cases h
                obtain ⟨hsuspended, a, hget, hunresolved⟩ :=
                  resume_eq_waiting hresume
                exact .waiting index step suspension a hrunning hat hsuspended
                  hget hunresolved
            | settled settled events =>
                rw [hresume] at h
                cases h
            | clear awoken events =>
                rw [hresume] at h hresumed
                cases hresumed with
                | clear _ hclear =>
                    have hkept' : (s.tell events).state.approvals.WellKept n :=
                      hkept
                    have hat' : e.awake.IsAt index step := ⟨hcurrent, hstep⟩
                    have hrunning' : e.awake.state.status = .running :=
                      hrunning
                    exact stops_of_proceed hkept' hrunning' hat' h

/-- An error of a dispatch has aborted the episode. -/
theorem TurnEffect.aborted {cause : DispatchError}
    {calls : List EpisodeCall}
    (h : TurnEffect e s (.over (.error (.dispatch cause))) calls e') :
    e'.state.status = .aborted := by
  cases h with
  | kept _ hidle => cases hidle
  | undenied => rfl
  | failed => rfl

/-- What a run ends with is what its last turn ends with, and what turns keep
holds before that turn. -/
theorem exists_last_turn {P : Episode → Session → Prop}
    (hturn : ∀ e s, P e s → P (e.turn s).2.1 (e.turn s).2.2) (fuel : Nat)
    (h : P e s) (hends : (turns fuel e s).1 ≠ .error .unsettled) :
    ∃ (before : Episode) (during : Session), P before during ∧
      before.turn during =
        (.over (turns fuel e s).1, (turns fuel e s).2) := by
  induction fuel generalizing e s with
  | zero => exact absurd rfl hends
  | succ fuel ih =>
      have hnext := hturn e s h
      rw [turns] at hends ⊢
      cases htaken : e.turn s with
      | mk taken rest =>
          obtain ⟨e', s'⟩ := rest
          rw [htaken] at hnext hends
          cases taken with
          | onward => exact ih hnext hends
          | «over» result => exact ⟨e, s, h, htaken⟩

theorem orderly_turn {setup : SessionSetup}
    (h : s.setup = setup ∧ setup.Orderly s.state) :
    (e.turn s).2.2.setup = setup ∧ setup.Orderly (e.turn s).2.2.state := by
  obtain ⟨rfl, horderly⟩ := h
  have hleads := turn_leads e s
  exact ⟨hleads.setup_eq, (hleads.chain.orderly horderly).1⟩

/-- Every end of a run of an episode with a session in order is the end of a
turn with such a session. -/
theorem exists_last_turn_of_run (h : s.setup.Orderly s.state)
    {result : Except EpisodeError Progress} (hresult : (e.run s).1 = result)
    (hends : result ≠ .error .unsettled) :
    ∃ (before : Episode) (during : Session),
      s.setup.Orderly during.state ∧
        before.turn during = (.over result, (e.run s).2) := by
  subst hresult
  obtain ⟨before, during, horderly, hturn⟩ :=
    exists_last_turn
      (P := fun _ during =>
        during.setup = s.setup ∧ s.setup.Orderly during.state)
      (fun _ _ => orderly_turn) e.maxTurns ⟨rfl, h⟩ hends
  exact ⟨before, during, horderly.2, hturn⟩

/-- A run that returns well stops where a second run stops at once, so that
one returns the same and changes neither the episode nor the session; if it
waits, the approval is unresolved.  After a run that failed with the error of
a dispatch, a second one reports that the episode is aborted.  The second run
makes no call in either case. -/
theorem run_again (hs : s.IsReached) :
    (∀ progress, (e.run s).1 = .ok progress →
      Stops (e.run s).2.1 (e.run s).2.2 progress ∧
        (e.run s).2.1.run (e.run s).2.2 = (.ok progress, (e.run s).2) ∧
        (e.run s).2.1.runCalls (e.run s).2.2 = []) ∧
    ∀ cause, (e.run s).1 = .error (.dispatch cause) →
      (e.run s).2.1.run (e.run s).2.2 =
          (.ok (.finished .aborted), (e.run s).2) ∧
        (e.run s).2.1.runCalls (e.run s).2.2 = [] := by
  have horderly : s.setup.Orderly s.state := by
    obtain ⟨snapshot, clock, actions, hstate⟩ := hs
    rw [hstate]
    exact (s.setup.orderly_start snapshot clock).run actions
  constructor
  · intro progress hprogress
    obtain ⟨before, during, hduring, hturn⟩ :=
      exists_last_turn_of_run horderly hprogress nofun
    have hstops := stops_of_turn hduring.kept hturn
    exact ⟨hstops, hstops.run_eq⟩
  · intro cause hcause
    obtain ⟨before, during, -, hturn⟩ :=
      exists_last_turn_of_run horderly hcause nofun
    have heffect := turn_effect before during
    rw [hturn] at heffect
    have haborted := heffect.aborted
    have hover : (e.run s).2.1.state.status ≠ .running := by
      rw [haborted]
      exact nofun
    have hstops := Stops.ended (s := (e.run s).2.2) hover
    rw [haborted] at hstops
    exact hstops.run_eq

/-- One run waits for an approval that it asked for, and another one loses the
receipt of its first call. -/
theorem run_again_waiting_and_aborted :
    let session := Session.start (mailSetup {}) .null (.logical 0)
    let refusal : SinkError := .io "disk full"
    let waiting := (start askingWorkflow {}).run (session .none)
    let failed := (start askingWorkflow {}).run
      (session (.memory [] 0 (fun _ => some refusal) none))
    waiting.1 = .ok (.suspended ⟨"send", "approval-1"⟩) ∧
      waiting.2.1.run waiting.2.2 = waiting ∧
      waiting.2.1.runCalls waiting.2.2 = [] ∧
      failed.1 = .error (.dispatch (.persistence refusal)) ∧
      failed.2.1.run failed.2.2 = (.ok (.finished .aborted), failed.2) ∧
      failed.2.1.runCalls failed.2.2 = [] := by
  intro session refusal waiting failed
  have hwaiting : waiting.1 = .ok (.suspended ⟨"send", "approval-1"⟩) := by
    decide +kernel
  have hfailed : failed.1 = .error (.dispatch (.persistence refusal)) := by
    decide +kernel
  obtain ⟨-, hagain, hnone⟩ :=
    (run_again (e := start askingWorkflow {}) (s := session .none)
      ⟨.null, .logical 0, [], rfl⟩).1 _ hwaiting
  obtain ⟨habort, hnone'⟩ :=
    (run_again (e := start askingWorkflow {})
      (s := session (.memory [] 0 (fun _ => some refusal) none))
      ⟨.null, .logical 0, [], rfl⟩).2 _ hfailed
  refine ⟨hwaiting, ?_, hnone, hfailed, habort, hnone'⟩
  rw [hagain, ← hwaiting]

end Episode

end CallGate
