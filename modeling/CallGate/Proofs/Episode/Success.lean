import CallGate.Proofs.Episode.Budget
import CallGate.Proofs.Episode.Criteria
import CallGate.Proofs.Episode.History
import CallGate.Proofs.Episode.Verdicts
import CallGate.Proofs.Session.Replay

/-!
# How episodes end

An episode that runs is broken off at a step, or it comes past its last step
and is judged there.  Only judging can let it succeed, and it does when every
step has an attempt and all criteria hold.  An episode that is past its last
step is judged in the same run, so between the actions of callers no episode is
found that still has to be judged.
-/

namespace CallGate

theorem EpisodeStatus.ne_of_failed_or_aborted {status : EpisodeStatus}
    (h : status = .failed ∨ status = .aborted) :
    status ≠ .running ∧ status ≠ .succeeded := by
  rcases h with rfl | rfl
  · decide
  · decide

namespace Episode

variable {w : Workflow} {limits : EpisodeLimits} {e e' : Episode}
  {s s' : Session} {step : Step} {pending : Nat}

/-! ## What a turn does to how an episode stands -/

/-- An episode goes on as it stands, is broken off at a step, or is judged
because its last step is behind. -/
inductive Concludes (e : Episode) (pending : Nat) (e' : Episode) : Prop where
  | goesOn (hstatus : e'.state.status = e.state.status)
      (hreason : e'.state.reason = e.state.reason)
  | breaksOff (i : Nat) (hrunning : e.state.status = .running)
      (hover : e'.state.status = .failed ∨ e'.state.status = .aborted)
      (hreason : e'.state.reason.isSome = true)
      (hcurrent : e'.state.current = some i)
  | isJudged (hrunning : e.state.status = .running)
      (hcurrent : e.state.current = none)
      (hjudged : e' = (e.finish pending).1)

theorem Course.goesOn_or_breaksOff {number : Nat} {verdict : Verdict}
    {transition : Transition} {current : Option Nat} {jumps : Nat}
    {reason : Option EndReason}
    (h : Course e step number verdict transition current jumps reason) :
    reason = none ∨ reason.isSome = true ∧ current = e.state.current := by
  cases h with
  | passed => exact Or.inl rfl
  | failed => exact Or.inr ⟨rfl, rfl⟩
  | continued => exact Or.inl rfl
  | refused => exact Or.inr ⟨rfl, rfl⟩
  | jumped => exact Or.inl rfl

theorem concludes_settle {i : Nat} (hrunning : e.state.status = .running)
    (hat : e.IsAt i step) (executed : Nat) (data : KeyMap String Json)
    (verdict : Verdict) (sent : Option Sent) :
    Concludes e pending
      ((e.readied executed data).settle step verdict sent).1 := by
  obtain ⟨transition, current, jumps, reason, hcourse, hsettle⟩ :=
    exists_course_of_settle (e.readied executed data) step verdict sent
  rw [hsettle]
  rcases hcourse.goesOn_or_breaksOff with rfl | ⟨hreason, hcurrent⟩
  · exact .goesOn rfl (Option.none_or)
  · refine .breaksOff i hrunning (Or.inl ?_) ?_ ?_
    · rw [settledState, if_pos hreason]
    · rw [settledState, Option.isSome_or, hreason, Bool.true_or]
    · exact hcurrent.trans hat.current_eq

theorem concludes_terminate {i : Nat} (hrunning : e.state.status = .running)
    (hat : e.IsAt i step) (executed : Nat) (reason : EndReason)
    (id : Option String) :
    Concludes e pending
      ((e.readied executed e.data).terminate .aborted reason id).1 :=
  .breaksOff i hrunning (Or.inr rfl) rfl hat.current_eq

theorem TurnEffect.concludes {turn : Turn} {calls : List EpisodeCall}
    (h : TurnEffect e s turn calls e') : Concludes e s.pendingCount e' := by
  cases h with
  | kept => exact .goesOn rfl rfl
  | finished hrunning hcurrent => exact .isJudged hrunning hcurrent rfl
  | withheld i step verdict hrunning hat =>
      exact concludes_settle hrunning hat 0 e.data verdict none
  | denied i step told approval args hrunning hat =>
      exact concludes_settle hrunning hat 0 e.data _ none
  | undenied i step told approval args error hrunning hat =>
      exact concludes_terminate hrunning hat 0 _ _
  | suspended => exact .goesOn rfl rfl
  | timedOut i step hrunning hat =>
      exact concludes_terminate hrunning hat 0 _ _
  | attempted i step told verdict sent data hrunning hat =>
      exact concludes_settle hrunning hat 1 data verdict sent
  | failed i step told error hrunning hat =>
      exact concludes_terminate hrunning hat 1 _ _

/-! ## Reasons -/

/-- There is a reason exactly when the episode is over. -/
def Reasoned (e : Episode) : Prop :=
  e.state.reason.isSome = true ↔ e.state.status ≠ .running

theorem Reasoned.of_over (hreason : e.state.reason.isSome = true)
    (hover : e.state.status ≠ .running) : Reasoned e :=
  ⟨fun _ => hover, fun _ => hreason⟩

theorem exists_finish_eq (e : Episode) (pending : Nat) :
    ∃ status reason, status ≠ .running ∧
      (e.finish pending).1 = (e.terminate status reason none).1 := by
  rw [finish]
  split
  · exact ⟨.failed, _, by decide, rfl⟩
  · split
    · exact ⟨.succeeded, _, by decide, rfl⟩
    · exact ⟨.failed, _, by decide, rfl⟩

theorem Reasoned.concludes (h : Reasoned e)
    (hconcludes : Concludes e pending e') : Reasoned e' := by
  cases hconcludes with
  | goesOn hstatus hreason =>
      rw [Reasoned, hstatus, hreason]
      exact h
  | breaksOff i hrunning hover hreason hcurrent =>
      exact .of_over hreason (EpisodeStatus.ne_of_failed_or_aborted hover).1
  | isJudged hrunning hcurrent hjudged =>
      obtain ⟨status, reason, hstatus, hfinish⟩ := exists_finish_eq e pending
      rw [hjudged, hfinish]
      exact .of_over rfl hstatus

/-- An episode that is ended from outside is aborted where it is. -/
theorem expire_eq (e : Episode) :
    e.expire.1.state.status = .aborted ∧
      e.expire.1.state.reason = some .episodeTimeout ∧
      e.expire.1.state.current = e.state.current := by
  cases hsuspended : e.state.suspended with
  | none =>
      rw [expire, hsuspended]
      exact ⟨rfl, rfl, rfl⟩
  | some suspension =>
      rw [expire_of_suspended hsuspended]
      exact ⟨rfl, rfl, rfl⟩

theorem Reached.reasoned (h : Reached w limits e) : Reasoned e := by
  refine h.turn_invariant ?_ ?_ ?_
  · exact ⟨nofun, fun hover => absurd rfl hover⟩
  · intro e s _ hreasoned
    exact hreasoned.concludes (turn_effect e s).concludes
  · intro e _ _
    obtain ⟨hstatus, hreason, -⟩ := e.expire_eq
    refine .of_over ?_ ?_
    · rw [hreason]
      rfl
    · rw [hstatus]
      decide

/-! ## Judging -/

/-- The ids of the steps that have no attempt, in order. -/
def missing (e : Episode) : List String :=
  (e.workflow.steps.filter fun step =>
    ∀ a ∈ e.state.history, a.step ≠ step.id).map (·.id)

theorem unvisited_eq_missing (e : Episode) : e.unvisited = e.missing := by
  rw [unvisited, missing, List.filter_map]
  congr 1
  refine List.filter_congr fun step _ => ?_
  rw [Bool.eq_iff_iff, Function.comp_apply,
    EpisodeState.latest?_isNone_iff, decide_eq_true_iff]

theorem missing_eq_nil_iff :
    e.missing = [] ↔ ∀ step ∈ e.workflow.steps,
      ∃ a ∈ e.state.history, a.step = step.id := by
  simp [missing]

/-- The episode is past its last step without a stop, every step has an
attempt, and the criteria hold. -/
structure Completes (e : Episode) (pending : Nat) : Prop where
  past_last : e.state.current = none
  not_stopped : ∀ a ∈ e.state.history, a.transition ≠ .stop
  visited : ∀ step ∈ e.workflow.steps,
    ∃ a ∈ e.state.history, a.step = step.id
  criteria : ∀ c ∈ e.workflow.success, c.Holds e.workflow e.state pending

/-- The episode has succeeded if it completes its workflow.  Past its last step
it has failed otherwise, for want of attempts or else of criteria. -/
structure Judged (e : Episode) (pending : Nat) : Prop where
  succeeded_iff : e.state.status = .succeeded ↔ e.Completes pending
  of_missing : e.state.current = none → e.missing ≠ [] →
    e.state.status = .failed ∧
      e.state.reason = some (.stepsNotVisited e.missing)
  of_unmet : e.state.current = none → e.missing = [] →
    (¬∀ c ∈ e.workflow.success, c.Holds e.workflow e.state pending) →
    e.state.status = .failed ∧
      e.state.reason = some (.successCriteriaFailed
        (e.state.complaints e.workflow pending))

theorem Judged.of_current (hcurrent : e.state.current ≠ none)
    (hstatus : e.state.status ≠ .succeeded) : Judged e pending where
  succeeded_iff :=
    ⟨fun h => absurd h hstatus, fun h => absurd h.past_last hcurrent⟩
  of_missing h := absurd h hcurrent
  of_unmet h := absurd h hcurrent

theorem judged_finish (htraced : Traced e)
    (hrunning : e.state.status = .running) (hcurrent : e.state.current = none)
    (pending : Nat) : Judged (e.finish pending).1 pending := by
  have hstop : ∀ a ∈ e.state.history, a.transition ≠ .stop := by
    intro a ha
    obtain ⟨k, hk⟩ := List.mem_iff_getElem?.1 ha
    exact htraced.not_stop hrunning hk
  have hcriteria : e.state.complaints e.workflow pending = [] ↔
      ∀ c ∈ e.workflow.success, c.Holds e.workflow e.state pending :=
    EpisodeState.complaints_eq_nil_iff_holds
  have hfailed : EpisodeStatus.failed ≠ .succeeded := by decide
  rw [finish, unvisited_eq_missing]
  cases hmissing : e.missing with
  | cons id ids =>
      have hne : e.missing ≠ [] := by simp [hmissing]
      refine ⟨⟨fun h => absurd h hfailed, fun h => ?_⟩, fun _ _ => ⟨rfl, ?_⟩,
        fun _ h => ?_⟩
      · exact absurd (missing_eq_nil_iff.2 h.visited) hne
      · exact congrArg (some ∘ EndReason.stepsNotVisited) hmissing.symm
      · exact absurd h hne
  | nil =>
      have hvisited := missing_eq_nil_iff.1 hmissing
      cases hcomplaints : e.state.complaints e.workflow pending with
      | nil =>
          have hholds := hcriteria.1 hcomplaints
          refine ⟨⟨fun _ => ⟨hcurrent, hstop, hvisited, hholds⟩,
            fun _ => rfl⟩, fun _ h => ?_, fun _ _ h => ?_⟩
          · exact absurd hmissing h
          · exact absurd hholds h
      | cons failure failures =>
          have hunmet : ¬∀ c ∈ e.workflow.success,
              c.Holds e.workflow e.state pending := by
            rw [← hcriteria, hcomplaints]
            exact List.cons_ne_nil _ _
          refine ⟨⟨fun h => absurd h hfailed, fun h => ?_⟩, fun _ h => ?_,
            fun _ _ _ => ⟨rfl, ?_⟩⟩
          · exact absurd h.criteria hunmet
          · exact absurd hmissing h
          · exact congrArg (some ∘ EndReason.successCriteriaFailed)
              hcomplaints.symm

/-! ## Runs -/

/-- An episode that ends is judged rightly, if judging leaves as many approvals
waiting as it finds. -/
theorem Concludes.judged {pending' : Nat} (h : Concludes e pending e')
    (htraced : Traced e) (hrunning : e.state.status = .running)
    (hover : e'.state.status ≠ .running)
    (hpending : e.state.current = none → pending' = pending) :
    Judged e' pending' := by
  cases h with
  | goesOn hstatus => exact absurd (hstatus.trans hrunning) hover
  | breaksOff i _ hends hreason hcurrent =>
      refine .of_current ?_ (EpisodeStatus.ne_of_failed_or_aborted hends).2
      rw [hcurrent]
      exact Option.some_ne_none i
  | isJudged _ hcurrent hjudged =>
      rw [hjudged, hpending hcurrent]
      exact judged_finish htraced hrunning hcurrent pending

theorem pendingCount_turn (hcurrent : e.state.current = none)
    (s : Session) : (e.turn s).2.2.pendingCount = s.pendingCount := by
  have hcalls : e.turnCalls s = [] := by
    rw [turnCalls, hcurrent]
    split <;> rfl
  have hchain := (turn_leads e s).chain
  rw [hcalls] at hchain
  rw [Session.pendingCount, hchain.eq_of_nil, Session.pendingCount]

/-- If the episode is over, it is judged rightly. -/
def Decided (e : Episode) (s : Session) : Prop :=
  e.state.status ≠ .running → Judged e s.pendingCount

theorem Decided.turn (h : Decided e s) (htraced : Traced e) :
    Decided (e.turn s).2.1 (e.turn s).2.2 := by
  intro hover
  by_cases hrunning : e.state.status = .running
  · exact (turn_effect e s).concludes.judged htraced hrunning hover
      fun hcurrent => pendingCount_turn hcurrent s
  · rw [turn_of_over hrunning s]
    exact h hrunning

theorem Reached.decided_run (h : Reached w limits e) (hlaid : w.LaidOut)
    (hrunning : e.state.status = .running) (s : Session) :
    Decided (e.run s).2.1 (e.run s).2.2 := by
  have hturn (e : Episode) (s : Session) (_ : e.workflow = w)
      (htraced : Traced e) (hdecided : Decided e s) :
      Decided (e.turn s).2.1 (e.turn s).2.2 :=
    hdecided.turn htraced
  exact h.run_keeps hlaid hturn fun hover => absurd hrunning hover

/-! ## Episodes that still run -/

/-- A turn that is the last one of a run leaves no episode behind that still
has to be judged. -/
theorem TurnEffect.current_ne_none {result : Except EpisodeError Progress}
    {calls : List EpisodeCall} (h : TurnEffect e s (.over result) calls e')
    (hrunning : e'.state.status = .running) : e'.state.current ≠ none := by
  have hplace {i : Nat} (hcurrent : e.state.current = some i) :
      e.state.current ≠ none := by
    rw [hcurrent]
    exact Option.some_ne_none i
  cases h with
  | kept result hidle =>
      cases hidle with
      | ended hover => exact absurd hrunning hover
      | astray i _ hcurrent => exact hplace hcurrent
      | unknown i step suspension _ hat => exact hplace hat.current_eq
      | waiting i step suspension _ hat => exact hplace hat.current_eq
  | undenied => cases hrunning
  | suspended i step told approval args _ hat => exact hplace hat.current_eq
  | failed => cases hrunning

theorem Ends.current_ne_none {n : Nat}
    {last : Except EpisodeError Progress × Episode × Session}
    (h : Ends n e s last) (hrunning : last.2.1.state.status = .running) :
    last.2.1.state.current ≠ none := by
  induction h with
  | @last e e' s s' result hturn =>
      have heffect := turn_effect e s
      rw [hturn] at heffect
      exact heffect.current_ne_none hrunning
  | onward _ _ ih => exact ih hrunning

theorem Reached.current_ne_none (h : Reached w limits e) (hlaid : w.LaidOut)
    (hrunning : e.state.status = .running) : e.state.current ≠ none := by
  induction h with
  | start => exact Option.some_ne_none 0
  | @run e h s ih =>
      have hworkflow := h.steady.workflow_eq
      obtain ⟨n, -, hends⟩ := exists_ends_of_turns e.maxTurns s
        (hworkflow ▸ hlaid) (h.bounded hlaid) e.turnsLeft_le_maxTurns
      exact hends.current_ne_none hrunning
  | @endEpisode e h s ih =>
      by_cases hbefore : e.state.status = .running
      · rw [endEpisode_of_running hbefore s, (expire_eq e).1] at hrunning
        cases hrunning
      · rw [endEpisode_of_over hbefore s] at hrunning
        exact absurd hrunning hbefore

/-- After any action on an episode that runs, the episode is judged rightly:
it has not succeeded before its last step is behind. -/
theorem Reached.judged_act (h : Reached w limits e) (hlaid : w.LaidOut)
    (hrunning : e.state.status = .running) (s : Session)
    (action : EpisodeAction) :
    Judged (Episode.act (e, s) action).1
      (Episode.act (e, s) action).2.pendingCount := by
  have hreached : Reached w limits (Episode.act (e, s) action).1 :=
    h.act action
  by_cases hgoes : (Episode.act (e, s) action).1.state.status = .running
  · refine .of_current (hreached.current_ne_none hlaid hgoes) ?_
    rw [hgoes]
    decide
  · cases action with
    | run => exact h.decided_run hlaid hrunning s hgoes
    | call operation args => exact absurd hrunning hgoes
    | close => exact absurd hrunning hgoes
    | endEpisode =>
        obtain ⟨hstatus, -, hcurrent⟩ := expire_eq e
        rw [← endEpisode_of_running hrunning s] at hstatus hcurrent
        refine .of_current ?_ ?_
        · rw [Episode.act, hcurrent]
          exact h.current_ne_none hlaid hrunning
        · rw [Episode.act, hstatus]
          decide

/-- An episode of a compiled workflow has a reason exactly when it is over, and
then nothing changes it any more.  What becomes of one that runs, whatever is
done, is decided by its path: it has succeeded exactly when it is past its last
step without a stop, every step has an attempt and the criteria hold for its
history and the approvals that wait.  Past its last step it has failed
otherwise, with the steps that have no attempt if there are any, and else with
what is said about the criteria. -/
theorem succeeded_iff_completes {d : WorkflowDocument} {known : Registry}
    {w : Workflow} (hw : d.compile known = .ok w) {limits : EpisodeLimits}
    (h : Reached w limits e) (s : Session) :
    (e.state.reason.isSome = true ↔ e.state.status ≠ .running) ∧
      (e.state.status ≠ .running →
        ∀ actions, (e.play s actions).1 = e) ∧
      (e.state.status = .running → ∀ action,
        let next := Episode.act (e, s) action
        let missing := (w.steps.filter fun step =>
          ∀ a ∈ next.1.state.history, a.step ≠ step.id).map (·.id)
        let holds := ∀ c ∈ w.success,
          c.Holds w next.1.state next.2.pendingCount
        (next.1.state.status = .succeeded ↔
            next.1.state.current = none ∧
              (∀ a ∈ next.1.state.history, a.transition ≠ .stop) ∧
              (∀ step ∈ w.steps,
                ∃ a ∈ next.1.state.history, a.step = step.id) ∧ holds) ∧
          (next.1.state.current = none → missing ≠ [] →
            next.1.state.status = .failed ∧
              next.1.state.reason = some (.stepsNotVisited missing)) ∧
          (next.1.state.current = none → missing = [] → ¬holds →
            next.1.state.status = .failed ∧
              next.1.state.reason = some (.successCriteriaFailed
                (next.1.state.complaints w next.2.pendingCount)))) := by
  have hlaid := WorkflowDocument.laidOut_of_compile hw
  refine ⟨h.reasoned, fun hover actions => ?_, fun hrunning action => ?_⟩
  · exact play_of_over (p := (e, s)) hover actions
  · intro next missing holds
    have hjudged : Judged next.1 next.2.pendingCount :=
      h.judged_act hlaid hrunning s action
    have hworkflow : next.1.workflow = w := (h.act action).steady.workflow_eq
    obtain ⟨hsucceeded, hmissing, hunmet⟩ := hjudged
    rw [hworkflow] at hunmet
    rw [Episode.missing, hworkflow] at hmissing hunmet
    refine ⟨hsucceeded.trans ⟨fun hc => ?_, fun hc => ?_⟩, hmissing, hunmet⟩
    · obtain ⟨hpast, hstop, hvisited, hcriteria⟩ := hc
      rw [hworkflow] at hvisited hcriteria
      exact ⟨hpast, hstop, hvisited, hcriteria⟩
    · obtain ⟨hpast, hstop, hvisited, hcriteria⟩ := hc
      refine ⟨hpast, hstop, ?_, ?_⟩
      · rw [hworkflow]
        exact hvisited
      · rw [hworkflow]
        exact hcriteria

/-- A document that wants both mails to be sent and nothing to wait. -/
def strictDocument : WorkflowDocument :=
  { mailDocument with success := [.allStepsSucceeded, .pendingMax 0] }

def strictWorkflow : Workflow :=
  strictDocument.withSteps [mailStep 0 "first", mailStep 1 "second"]

theorem strictDocument_compile :
    strictDocument.compile mailRegistry = .ok strictWorkflow := rfl

/-- The mails are sent if they are granted beforehand.  If not, the first one
asks and the second one denies, and the criteria are not met. -/
theorem granted_mails_succeed :
    let granted := Session.start (mailSetup Session.mailGranted) .null
      (.logical 0) .none
    let asking := Session.start (mailSetup {}) .null (.logical 0) .none
    let sent := ((start strictWorkflow {}).run granted).2
    let unsent := ((start strictWorkflow {}).run asking).2
    sent.1.state.status = .succeeded ∧ sent.1.state.current = none ∧
      (∀ c ∈ strictWorkflow.success,
        c.Holds strictWorkflow sent.1.state sent.2.pendingCount) ∧
      unsent.1.state.status = .failed ∧ unsent.1.state.current = none ∧
      ¬∀ c ∈ strictWorkflow.success,
        c.Holds strictWorkflow unsent.1.state unsent.2.pendingCount := by
  intro granted asking sent unsent
  have hsent : sent.1.state.status = .succeeded := by decide +kernel
  have hunsent : unsent.1.state.status = .failed ∧
      unsent.1.state.current = none ∧
      (∀ a ∈ unsent.1.state.history, a.transition ≠ .stop) ∧
      ∀ step ∈ strictWorkflow.steps,
        ∃ a ∈ unsent.1.state.history, a.step = step.id := by
    decide +kernel
  have hstart : Reached strictWorkflow {} (start strictWorkflow {}) := .start
  have hgranted := ((succeeded_iff_completes strictDocument_compile hstart
    granted).2.2 rfl .run).1
  have hasking := ((succeeded_iff_completes strictDocument_compile hstart
    asking).2.2 rfl .run).1
  dsimp only [sent, unsent, act] at hsent hunsent hgranted hasking ⊢
  obtain ⟨hpast, -, -, hholds⟩ := hgranted.1 hsent
  obtain ⟨hfailed, hbehind, hstop, hvisited⟩ := hunsent
  refine ⟨hsent, hpast, hholds, hfailed, hbehind, fun hall => ?_⟩
  have hsucceeded := hasking.2 ⟨hbehind, hstop, hvisited, hall⟩
  cases hfailed.symm.trans hsucceeded

end Episode

end CallGate
