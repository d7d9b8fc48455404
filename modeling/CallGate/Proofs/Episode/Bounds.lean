import CallGate.Proofs.Episode.Blocking
import CallGate.Proofs.Episode.Turns
import CallGate.Proofs.Workflow.Layout

/-!
# How long an episode can be

Between two jumps an episode only goes forward, so each step has at most one
attempt there.  The history is as long as the steps times the jumps, plus the
steps that are behind since the last jump.  Every turn that is not the last of
its run adds an attempt or ends the episode, and so the bound on the history
is a bound on the turns as well.
-/

namespace CallGate

namespace Episode

variable {e e' : Episode} {s s' : Session} {step : Step} {i : Nat}

/-! ## The bounds that moves keep -/

/-- The bounds of an episode. -/
structure Bounded (e : Episode) : Prop where
  jumps_le : e.state.jumps ≤ e.limits.maxJumps
  executions_le : e.state.executions ≤ e.limits.maxExecutions
  history_le : e.state.history.length ≤
    e.workflow.steps.length * (e.state.jumps + 1)
  /-- While the episode runs, the steps from the current one on have no
  attempt since the last jump. -/
  running_le : e.state.status = .running → e.state.history.length ≤
    e.workflow.steps.length * e.state.jumps +
      e.state.current.getD e.workflow.steps.length

theorem bounded_start (w : Workflow) (limits : EpisodeLimits) :
    Bounded (start w limits) where
  jumps_le := Nat.zero_le _
  executions_le := Nat.zero_le _
  history_le := Nat.zero_le _
  running_le _ := Nat.zero_le _

theorem IsAt.lt_length (h : e.IsAt i step) : i < e.workflow.steps.length :=
  (List.getElem?_eq_some_iff.1 h.step_eq).1

theorem next?_getD (h : step.index < e.workflow.steps.length) :
    (e.next? step).getD e.workflow.steps.length = step.index + 1 := by
  rw [next?]
  by_cases hnext : step.index + 1 < e.workflow.steps.length
  · rw [if_pos hnext]
    rfl
  · rw [if_neg hnext, Option.getD_none]
    omega

/-- The attempt that is settled is the only one of its step since the last
jump. -/
theorem Bounded.settle {executed : Nat} {data : KeyMap String Json}
    (h : Bounded e) (hlaid : e.workflow.LaidOut)
    (hrunning : e.state.status = .running) (hat : e.IsAt i step)
    (hexecuted : executed = 0 ∨
      e.state.executions + executed ≤ e.limits.maxExecutions)
    (verdict : Verdict) (sent : Option Sent) :
    Bounded ((e.readied executed data).settle step verdict sent).1 := by
  have hi := hat.lt_length
  have hindex := hlaid.index_eq i step hat.step_eq
  have hlength := h.running_le hrunning
  rw [hat.current_eq, Option.getD_some] at hlength
  have hexecutions : e.state.executions + executed ≤
      e.limits.maxExecutions := by
    rcases hexecuted with rfl | hle
    · exact h.executions_le
    · exact hle
  have hbehind : e.state.history.length + 1 ≤
      e.workflow.steps.length * (e.state.jumps + 1) := by
    rw [Nat.mul_succ]
    omega
  have hforward : e.state.history.length + 1 ≤
      e.workflow.steps.length * e.state.jumps +
        (e.next? step).getD e.workflow.steps.length := by
    rw [next?_getD (hindex ▸ hi), hindex]
    omega
  obtain ⟨transition, current, jumps, reason, hcourse, hsettle⟩ :=
    exists_course_of_settle (e.readied executed data) step verdict sent
  have hsettled (hjumps : jumps ≤ e.limits.maxJumps)
      (hhistory : e.state.history.length + 1 ≤
        e.workflow.steps.length * (jumps + 1))
      (hplace : reason = none → e.state.history.length + 1 ≤
        e.workflow.steps.length * jumps +
          current.getD e.workflow.steps.length) :
      Bounded ((e.readied executed data).settle step verdict sent).1 := by
    rw [hsettle]
    refine ⟨hjumps, hexecutions, ?_, ?_⟩
    · simpa [settledState, readied] using hhistory
    · intro hstatus
      have hreason : reason = none := by
        cases reason with
        | none => rfl
        | some reason => cases hstatus
      simpa [settledState, readied] using hplace hreason
  cases hcourse with
  | passed hpassed =>
      exact hsettled h.jumps_le hbehind fun _ => hforward
  | failed hfailed hlast => exact hsettled h.jumps_le hbehind nofun
  | continued hfailed hmore hrecourse =>
      exact hsettled h.jumps_le hbehind fun _ => hforward
  | refused => exact hsettled h.jumps_le hbehind nofun
  | jumped target index hfailed hmore hrecourse hjumps =>
      refine hsettled hjumps ?_ fun _ => ?_
      · refine Nat.le_trans hbehind ?_
        exact Nat.mul_le_mul_left _ (Nat.le_succ _)
      · exact Nat.le_trans hbehind (Nat.le_add_right _ _)

theorem Bounded.move (h : Bounded e) (hlaid : e.workflow.LaidOut)
    (hmove : Move e e') : Bounded e' := by
  cases hmove with
  | kept => exact h
  | waits =>
      exact ⟨h.jumps_le, h.executions_le, h.history_le, h.running_le⟩
  | settles i step executed data verdict sent hrunning hat hexecuted =>
      exact h.settle hlaid hrunning hat hexecuted verdict sent
  | ends _ hends =>
      constructor
      · rw [hends.jumps_eq, hends.limits_eq]
        exact h.jumps_le
      · rw [hends.limits_eq]
        rcases hends.executions_eq with hsame | ⟨hsucc, hlt⟩
        · rw [hsame]
          exact h.executions_le
        · rw [hsucc]
          exact hlt
      · rw [hends.history_eq, hends.workflow_eq, hends.jumps_eq]
        exact h.history_le
      · intro hrunning
        exact absurd hrunning hends.not_running

theorem Bounded.expire {w : Workflow} {limits : EpisodeLimits}
    {suspension : Suspension} (h : Bounded e) (hsteady : Steady w limits e)
    (hrunning : e.state.status = .running)
    (hsuspended : e.state.suspended = some suspension) :
    Bounded e.expire.1 := by
  obtain ⟨i, step, hat, -⟩ := hsteady.suspended_at suspension hsuspended
  have hi := hat.lt_length
  have hlength := h.running_le hrunning
  rw [hat.current_eq, Option.getD_some] at hlength
  rw [expire_of_suspended hsuspended]
  refine ⟨h.jumps_le, h.executions_le, ?_, nofun⟩
  dsimp only
  rw [List.length_append, List.length_singleton, Nat.mul_succ]
  omega

theorem Reached.bounded {w : Workflow} {limits : EpisodeLimits}
    (h : Reached w limits e) (hlaid : w.LaidOut) : Bounded e := by
  refine h.steady_invariant (bounded_start w limits) ?_ ?_
  · intro e e' hsteady hbounded hmove
    exact hbounded.move (hsteady.workflow_eq ▸ hlaid) hmove
  · intro e suspension hsteady hbounded hrunning hsuspended
    exact hbounded.expire hsteady hrunning hsuspended

/-! ## The turns of a run -/

/-- The turns of a run, as many as there are, lead to an end. -/
inductive Ends : Nat → Episode → Session →
    Except EpisodeError Progress × Episode × Session → Prop where
  | last {e e' : Episode} {s s' : Session}
      {result : Except EpisodeError Progress}
      (hturn : e.turn s = (.over result, e', s')) :
      Ends 1 e s (result, e', s')
  | onward {e e' : Episode} {s s' : Session} {n : Nat}
      {last : Except EpisodeError Progress × Episode × Session}
      (hturn : e.turn s = (.onward, e', s')) (hrest : Ends n e' s' last) :
      Ends (n + 1) e s last

/-- The most turns that a run can still take. -/
def turnsLeft (e : Episode) : Nat :=
  if e.state.status.isTerminal then 1
  else
    e.workflow.steps.length * (e.limits.maxJumps + 1) -
      e.state.history.length + 2

theorem turnsLeft_of_over (h : e.state.status ≠ .running) :
    e.turnsLeft = 1 :=
  if_pos (EpisodeStatus.isTerminal_iff.2 h)

theorem turnsLeft_of_running (h : e.state.status = .running) :
    e.turnsLeft = e.workflow.steps.length * (e.limits.maxJumps + 1) -
      e.state.history.length + 2 :=
  if_neg fun hover => EpisodeStatus.isTerminal_iff.1 hover h

theorem turnsLeft_pos (e : Episode) : 1 ≤ e.turnsLeft := by
  by_cases hrunning : e.state.status = .running
  · rw [turnsLeft_of_running hrunning]
    omega
  · exact Nat.le_of_eq (turnsLeft_of_over hrunning).symm

/-- A turn that is not the last one adds an attempt or ends the episode. -/
theorem TurnEffect.onward_cases {calls : List EpisodeCall}
    (h : TurnEffect e s .onward calls e') :
    e.state.status = .running ∧ (e'.state.status ≠ .running ∨
      e'.state.history.length = e.state.history.length + 1) := by
  have hsettled (executed : Nat) (data : KeyMap String Json)
      (step : Step) (verdict : Verdict) (sent : Option Sent) :
      ((e.readied executed data).settle step verdict
        sent).1.state.history.length = e.state.history.length + 1 := by
    obtain ⟨transition, current, jumps, reason, -, hsettle⟩ :=
      exists_course_of_settle (e.readied executed data) step verdict sent
    rw [hsettle]
    exact List.length_append
  cases h with
  | finished hrunning hcurrent =>
      exact ⟨hrunning, Or.inl (EndsAs.finish hrunning _).not_running⟩
  | withheld i step verdict hrunning =>
      exact ⟨hrunning, Or.inr (hsettled 0 e.data step verdict none)⟩
  | denied i step told approval args hrunning =>
      exact ⟨hrunning, Or.inr (hsettled 0 e.data step _ none)⟩
  | timedOut i step hrunning => exact ⟨hrunning, Or.inl nofun⟩
  | attempted i step told verdict sent data hrunning =>
      exact ⟨hrunning, Or.inr (hsettled 1 data step verdict sent)⟩

theorem turnsLeft_lt {calls : List EpisodeCall}
    (h : TurnEffect e s .onward calls e') (hbounded : Bounded e') :
    e'.turnsLeft < e.turnsLeft := by
  obtain ⟨hrunning, hstep⟩ := h.onward_cases
  obtain ⟨hworkflow, hlimits⟩ := h.move.frame
  rw [turnsLeft_of_running hrunning]
  by_cases hgoes : e'.state.status = .running
  · have hlength := hstep.resolve_left fun hover => hover hgoes
    have hroom := Nat.le_trans hbounded.history_le
      (Nat.mul_le_mul_left _ (Nat.add_le_add_right hbounded.jumps_le 1))
    rw [turnsLeft_of_running hgoes]
    rw [hworkflow, hlimits] at hroom ⊢
    omega
  · rw [turnsLeft_of_over hgoes]
    omega

/-- A run ends within the turns that are left, for each turn before the last one
lowers them. -/
theorem exists_ends_of_turns (fuel : Nat) (s : Session)
    (hlaid : e.workflow.LaidOut) (h : Bounded e)
    (hfuel : e.turnsLeft ≤ fuel) :
    ∃ n ≤ e.turnsLeft, Ends n e s (turns fuel e s) := by
  induction fuel generalizing e s with
  | zero => exact absurd hfuel (Nat.not_le_of_lt e.turnsLeft_pos)
  | succ fuel ih =>
      have heffect := turn_effect e s
      rw [turns]
      generalize hturn : e.turn s = taken at heffect ⊢
      obtain ⟨turn, e', s'⟩ := taken
      cases turn with
      | onward =>
          have hmove : Move e e' := heffect.move
          have hbounded : Bounded e' := h.move hlaid hmove
          have hless : e'.turnsLeft < e.turnsLeft :=
            turnsLeft_lt heffect hbounded
          have hlaid' : e'.workflow.LaidOut := hmove.frame.1 ▸ hlaid
          obtain ⟨n, hn, hends⟩ := ih s' hlaid' hbounded (by omega)
          exact ⟨n + 1, by omega, .onward hturn hends⟩
      | _ => exact ⟨1, e.turnsLeft_pos, .last hturn⟩

theorem turnsLeft_le_maxTurns (e : Episode) : e.turnsLeft ≤ e.maxTurns := by
  rw [maxTurns]
  by_cases hrunning : e.state.status = .running
  · rw [turnsLeft_of_running hrunning]
    omega
  · rw [turnsLeft_of_over hrunning]
    omega

/-- An episode keeps to its limits whatever happens to it, its history is no
longer than the steps and the jumps allow, and each of its runs ends after as
many turns at most and two more. -/
theorem reached_within_limits {d : WorkflowDocument} {known : Registry}
    {w : Workflow} (hw : d.compile known = .ok w) {limits : EpisodeLimits}
    (h : Reached w limits e) :
    e.state.jumps ≤ limits.maxJumps ∧
      e.state.executions ≤ limits.maxExecutions ∧
      e.state.history.length ≤ w.steps.length * (limits.maxJumps + 1) ∧
      ∀ s, ∃ n ≤ w.steps.length * (limits.maxJumps + 1) + 2,
        Ends n e s (e.run s) := by
  have hlaid := WorkflowDocument.laidOut_of_compile hw
  have hbounded : Bounded e := h.bounded hlaid
  obtain ⟨rfl, rfl, -⟩ := h.steady
  have hlength := Nat.le_trans hbounded.history_le
    (Nat.mul_le_mul_left _ (Nat.add_le_add_right hbounded.jumps_le 1))
  refine ⟨hbounded.jumps_le, hbounded.executions_le, hlength, ?_⟩
  intro s
  obtain ⟨n, hn, hends⟩ := exists_ends_of_turns e.maxTurns s hlaid hbounded
    e.turnsLeft_le_maxTurns
  exact ⟨n, Nat.le_trans hn e.turnsLeft_le_maxTurns, hends⟩

/-- A document whose second step goes back to the first one, once. -/
def retryDocument : WorkflowDocument :=
  { mailDocument with
    steps :=
      [⟨"first", "", ⟨"mail", "send", .null⟩, [], .continue, none,
          some .autoDeny⟩,
        ⟨"second", "", ⟨"mail", "send", .null⟩, [], .jump "first", some 2,
          some .autoDeny⟩] }

def retryWorkflow : Workflow :=
  retryDocument.withSteps
    [mailStep 0 "first",
      { mailStep 1 "second" with
        onFailure := .jump "first" 0, maxAttempts := some 2 }]

theorem retryDocument_compile :
    retryDocument.compile mailRegistry = .ok retryWorkflow := rfl

/-- The workflow is run with room for one jump, and then once more. -/
theorem retries_within_limits :
    let session := Session.start (mailSetup {}) .null (.logical 0) .none
    let limits : EpisodeLimits := ⟨1, 3⟩
    let last := ((start retryWorkflow limits).run session).2.1
    retryWorkflow.steps.length = 2 ∧ last.state.history.length = 4 ∧
      last.state.history.length ≤ retryWorkflow.steps.length * (1 + 1) ∧
      last.state.jumps = 1 ∧ last.state.jumps ≤ 1 ∧
      last.state.executions = 3 ∧ last.state.executions ≤ 3 ∧
      ∃ n ≤ retryWorkflow.steps.length * (1 + 1) + 2,
        Ends n last session (last.run session) := by
  intro session limits last
  have hcounts : last.state.history.length = 4 ∧ last.state.jumps = 1 ∧
      last.state.executions = 3 := by
    decide +kernel
  obtain ⟨hhistory, hjumps, hexecutions⟩ := hcounts
  have hreached : Reached retryWorkflow limits last := .run .start session
  obtain ⟨hjumps', hexecutions', hhistory', hends⟩ :=
    reached_within_limits retryDocument_compile hreached
  exact ⟨rfl, hhistory, hhistory', hjumps, hjumps', hexecutions,
    hexecutions', hends session⟩

end Episode

end CallGate
