import CallGate.Proofs.Episode.History

/-!
# What the executions bound

An episode looks for an approval that a step would wait for before it looks
whether executions are left, and a denial is no execution.  So the executions
bound the calls of steps and nothing else: once they are used up an episode
still denies what its steps would wait for.  All its calls together are
bounded like its history, by the steps and the jumps.
-/

namespace CallGate

def EpisodeCall.isAttempt : EpisodeCall → Bool
  | .attempt _ _ _ => true
  | .denial _ _ _ => false

/-- The call denies what a step waits for, and the step says so. -/
def EpisodeCall.IsAutoDenial : EpisodeCall → Prop
  | .attempt _ _ _ => False
  | .denial _ step _ => step.fallback = some .autoDeny

namespace Episode

variable {e e' : Episode} {s : Session} {step : Step} {i : Nat}
  {calls more : List EpisodeCall} {p : Episode × Session}

/-- The calls that an episode makes during an action. -/
def actCalls (p : Episode × Session) : EpisodeAction → List EpisodeCall
  | .run => p.1.runCalls p.2
  | .call _ _ | .close | .endEpisode => []

def playCalls (p : Episode × Session) :
    List EpisodeAction → List EpisodeCall
  | [] => []
  | action :: rest =>
    actCalls p action ++ playCalls (Episode.act p action) rest

/-! ## Counting calls -/

/-- The calls that an episode has made so far are accounted for. -/
structure Spent (e : Episode) (calls : List EpisodeCall) : Prop where
  attempts_le : calls.countP (·.isAttempt) ≤ e.state.executions
  length_le : calls.length ≤ e.workflow.steps.length * (e.state.jumps + 1)
  /-- While the episode runs, each call has added an attempt. -/
  running_le : e.state.status = .running →
    calls.length ≤ e.state.history.length

theorem attemptCalls_length_le (e : Episode) (s : Session) (step : Step) :
    (e.attemptCalls s step).length ≤ 1 := by
  rw [attemptCalls]
  split
  · exact Nat.zero_le 1
  · exact Nat.le_refl 1

theorem Spent.room (h : Spent e calls) (hbounded : Bounded e)
    (hrunning : e.state.status = .running) (hat : e.IsAt i step) :
    calls.length + 1 ≤ e.workflow.steps.length * (e.state.jumps + 1) := by
  have hi := hat.lt_length
  have hcalls := h.running_le hrunning
  have hhistory := hbounded.running_le hrunning
  rw [hat.current_eq, Option.getD_some] at hhistory
  rw [Nat.mul_succ]
  omega

theorem Spent.append {executed : Nat} (h : Spent e calls)
    (hworkflow : e'.workflow = e.workflow)
    (hexecutions : e.state.executions + executed ≤ e'.state.executions)
    (hjumps : e.state.jumps ≤ e'.state.jumps)
    (hcount : more.countP (·.isAttempt) ≤ executed)
    (hroom : calls.length + more.length ≤
      e.workflow.steps.length * (e.state.jumps + 1))
    (hrunning : e'.state.status = .running →
      calls.length + more.length ≤ e'.state.history.length) :
    Spent e' (calls ++ more) := by
  have hattempts := h.attempts_le
  refine ⟨?_, ?_, ?_⟩
  · rw [List.countP_append]
    omega
  · rw [List.length_append, hworkflow]
    refine Nat.le_trans hroom (Nat.mul_le_mul_left _ ?_)
    omega
  · rw [List.length_append]
    exact hrunning

theorem Spent.settle (h : Spent e calls) (hbounded : Bounded e)
    (hrunning : e.state.status = .running) (hat : e.IsAt i step)
    {executed : Nat} (hcount : more.countP (·.isAttempt) ≤ executed)
    (hlength : more.length ≤ 1) (data : KeyMap String Json)
    (verdict : Verdict) (sent : Option Sent) :
    Spent ((e.readied executed data).settle step verdict sent).1
      (calls ++ more) := by
  have hroom := h.room hbounded hrunning hat
  have hcalls := h.running_le hrunning
  obtain ⟨transition, current, jumps, reason, hcourse, hsettle⟩ :=
    exists_course_of_settle (e.readied executed data) step verdict sent
  have hjumps : jumps = e.state.jumps + if transition.isJump then 1 else 0 :=
    hcourse.jumps_eq
  rw [hsettle]
  refine h.append rfl (Nat.le_refl _) ?_ hcount (by omega) fun _ => ?_
  · change e.state.jumps ≤ jumps
    omega
  · change calls.length + more.length ≤ (e.state.history ++ [_]).length
    rw [List.length_append, List.length_singleton]
    omega

/-- Ends of an episode, with a last call that may have been made for it. -/
theorem Spent.over {executed : Nat} (h : Spent e calls)
    (hroom : calls.length + more.length ≤
      e.workflow.steps.length * (e.state.jumps + 1))
    (hcount : more.countP (·.isAttempt) ≤ executed)
    (hworkflow : e'.workflow = e.workflow)
    (hexecutions : e.state.executions + executed ≤ e'.state.executions)
    (hjumps : e'.state.jumps = e.state.jumps)
    (hover : e'.state.status ≠ .running) : Spent e' (calls ++ more) :=
  h.append hworkflow hexecutions (Nat.le_of_eq hjumps.symm) hcount hroom
    fun hrunning => absurd hrunning hover

theorem Spent.turn (h : Spent e calls) (hbounded : Bounded e)
    (s : Session) :
    Spent (e.turn s).2.1 (calls ++ e.turnCalls s) := by
  have heffect := turn_effect e s
  generalize e.turnCalls s = more at heffect ⊢
  generalize e.turn s = taken at heffect ⊢
  obtain ⟨turn, e', s'⟩ := taken
  dsimp only at heffect ⊢
  have hlength : calls.length + ([] : List EpisodeCall).length ≤
      e.workflow.steps.length * (e.state.jumps + 1) := h.length_le
  have hnone : ([] : List EpisodeCall).countP (·.isAttempt) ≤ 0 :=
    Nat.le_refl 0
  cases heffect with
  | kept result =>
      rw [List.append_nil]
      exact h
  | finished hrunning hcurrent =>
      have hends := EndsAs.finish hrunning s.pendingCount
      have hexecutions : e.state.executions ≤
          (e.finish s.pendingCount).1.state.executions := by
        rcases hends.executions_eq with hsame | ⟨hsucc, -⟩ <;> omega
      exact h.over hlength hnone hends.workflow_eq hexecutions hends.jumps_eq
        hends.not_running
  | withheld i step verdict hrunning hat hwithheld =>
      exact h.settle hbounded hrunning hat hnone (Nat.zero_le 1) e.data
        verdict none
  | denied i step told approval args hrunning hat =>
      have hdenial :
          [EpisodeCall.denial told step args].countP (·.isAttempt) ≤ 0 :=
        Nat.le_refl 0
      exact h.settle hbounded hrunning hat hdenial (Nat.le_refl 1) e.data _
        none
  | undenied i step told approval args error hrunning hat =>
      have hdenial :
          [EpisodeCall.denial told step args].countP (·.isAttempt) ≤ 0 :=
        Nat.le_refl 0
      exact h.over (h.room hbounded hrunning hat) hdenial rfl (Nat.le_refl _)
        rfl nofun
  | suspended i step told approval args hrunning hat htold hblocked =>
      rw [List.append_nil]
      exact ⟨h.attempts_le, h.length_le, h.running_le⟩
  | timedOut i step hrunning hat hused =>
      exact h.over hlength hnone rfl (Nat.le_refl _) rfl nofun
  | attempted i step told verdict sent data hrunning hat hleft hverdict =>
      have hone := attemptCalls_length_le e.awake told step
      exact h.settle hbounded hrunning hat
        (Nat.le_trans List.countP_le_length hone) hone data verdict sent
  | failed i step told error hrunning hat hleft =>
      have hone := attemptCalls_length_le e.awake told step
      have hroom := h.room hbounded hrunning hat
      exact h.over (by omega) (Nat.le_trans List.countP_le_length hone) rfl
        (Nat.le_refl _) rfl nofun

theorem Spent.turns (fuel : Nat) (h : Spent e calls)
    (hbounded : Bounded e) (hlaid : e.workflow.LaidOut) (s : Session) :
    Spent (turns fuel e s).2.1 (calls ++ turnsCalls fuel e s) := by
  induction fuel generalizing e s calls with
  | zero =>
      rw [turnsCalls, List.append_nil]
      exact h
  | succ fuel ih =>
      have hmove := turn_move e s
      have hspent := h.turn hbounded s
      rw [Episode.turns, turnsCalls, ← List.append_assoc]
      generalize e.turn s = taken at hmove hspent ⊢
      obtain ⟨_ | _, e', s'⟩ := taken
      · exact ih hspent (hbounded.move hlaid hmove) (hmove.frame.1 ▸ hlaid) s'
      · rw [List.append_nil]
        exact hspent

theorem Reached.act {w : Workflow} {limits : EpisodeLimits}
    (h : Reached w limits p.1) (action : EpisodeAction) :
    Reached w limits (Episode.act p action).1 := by
  cases action with
  | run => exact .run h p.2
  | call operation args => exact h
  | close => exact h
  | endEpisode => exact .endEpisode h p.2

theorem Reached.play {w : Workflow} {limits : EpisodeLimits}
    (h : Reached w limits p.1) (actions : List EpisodeAction) :
    Reached w limits (p.1.play p.2 actions).1 := by
  induction actions generalizing p with
  | nil => exact h
  | cons action rest ih => exact ih (h.act action)

theorem Spent.endEpisode (h : Spent e calls) (s : Session) :
    Spent (e.endEpisode s).2.1 calls := by
  by_cases hrunning : e.state.status = .running
  · have hover (hgoes : e.expire.1.state.status = .running) :
        calls.length ≤ e.expire.1.state.history.length := by
      rw [expire] at hgoes
      split at hgoes <;> cases hgoes
    rw [endEpisode_of_running hrunning]
    refine ⟨?_, ?_, hover⟩
    · rw [expire]
      split <;> exact h.attempts_le
    · rw [expire]
      split <;> exact h.length_le
  · rw [endEpisode_of_over hrunning]
    exact h

theorem Spent.play {w : Workflow} {limits : EpisodeLimits}
    (h : Spent p.1 calls) (hreached : Reached w limits p.1)
    (hlaid : w.LaidOut) (actions : List EpisodeAction) :
    Spent (p.1.play p.2 actions).1 (calls ++ playCalls p actions) := by
  induction actions generalizing p calls with
  | nil =>
      rw [playCalls, List.append_nil]
      exact h
  | cons action rest ih =>
      have hspent : Spent (Episode.act p action).1
          (calls ++ actCalls p action) := by
        cases action with
        | run =>
            have hworkflow := hreached.steady.workflow_eq
            exact h.turns p.1.maxTurns (hreached.bounded hlaid)
              (hworkflow ▸ hlaid) p.2
        | call operation args =>
            rw [actCalls, List.append_nil]
            exact h
        | close =>
            rw [actCalls, List.append_nil]
            exact h
        | endEpisode =>
            rw [actCalls, List.append_nil]
            exact h.endEpisode p.2
      rw [playCalls, ← List.append_assoc]
      exact ih hspent (hreached.act action)

/-! ## Executions that are used up -/

def IsUsedUp (e : Episode) : Prop :=
  e.limits.maxExecutions ≤ e.state.executions

theorem Move.executions_le (h : Move e e') :
    e.state.executions ≤ e'.state.executions := by
  cases h with
  | kept => exact Nat.le_refl _
  | waits => exact Nat.le_refl _
  | ends _ hends =>
      rcases hends.executions_eq with hsame | ⟨hsucc, -⟩ <;> omega
  | settles i step executed data verdict sent =>
      obtain ⟨transition, current, jumps, reason, -, hsettle⟩ :=
        exists_course_of_settle (e.readied executed data) step verdict sent
      rw [hsettle]
      exact Nat.le_add_right _ _

theorem IsUsedUp.move (h : e.IsUsedUp) (hmove : Move e e') :
    e'.IsUsedUp := by
  rw [IsUsedUp, hmove.frame.2]
  exact Nat.le_trans h hmove.executions_le

/-- A turn without executions makes no call but a denial. -/
theorem IsUsedUp.turnCalls (h : e.IsUsedUp) {c : EpisodeCall}
    (hc : c ∈ e.turnCalls s) : c.IsAutoDenial := by
  have heffect := turn_effect e s
  generalize e.turnCalls s = calls at heffect hc
  generalize e.turn s = taken at heffect
  obtain ⟨turn, e', s'⟩ := taken
  dsimp only at heffect
  cases heffect with
  | kept => cases hc
  | finished => cases hc
  | withheld => cases hc
  | denied i step told approval args hrunning hat hclear htold hblocked
      hfallback =>
      cases List.mem_singleton.1 hc
      exact hfallback
  | undenied i step told approval args error hrunning hat hblocked
      hfallback =>
      cases List.mem_singleton.1 hc
      exact hfallback
  | suspended => cases hc
  | timedOut => cases hc
  | attempted i step told verdict sent data hrunning hat hleft =>
      exact absurd h (Nat.not_le_of_lt hleft)
  | failed i step told error hrunning hat hleft =>
      exact absurd h (Nat.not_le_of_lt hleft)

theorem IsUsedUp.turnsCalls (fuel : Nat) (h : e.IsUsedUp)
    {c : EpisodeCall} (hc : c ∈ turnsCalls fuel e s) : c.IsAutoDenial := by
  induction fuel generalizing e s with
  | zero => cases hc
  | succ fuel ih =>
      have hmove := turn_move e s
      rw [Episode.turnsCalls] at hc
      generalize e.turn s = taken at hmove hc
      rcases List.mem_append.1 hc with hfirst | hrest
      · exact h.turnCalls hfirst
      · obtain ⟨_ | _, e', s'⟩ := taken
        · exact ih (h.move hmove) hrest
        · cases hrest

/-- An episode that nothing keeps at a step goes on with the step. -/
theorem turn_of_resume {events : List AuditEvent}
    (hrunning : e.state.status = .running) (hat : e.IsAt i step)
    (hresume : e.resume step s.state.approvals = .clear e' events) :
    e.turn s = e'.proceed (s.tell events) step ∧
      e.turnCalls s = e'.proceedCalls (s.tell events) step := by
  have hgoes : ¬e.state.status.isTerminal = true :=
    fun hover => EpisodeStatus.isTerminal_iff.1 hover hrunning
  constructor
  · rw [turn, if_neg hgoes, hat.current_eq]
    dsimp only
    rw [hat.step_eq]
    dsimp only
    rw [hresume]
  · rw [turnCalls, if_neg hgoes, hat.current_eq]
    dsimp only
    rw [hat.step_eq]
    dsimp only
    rw [hresume]

theorem turn_of_clear (hrunning : e.state.status = .running)
    (hat : e.IsAt i step) (hclear : e.IsClear s.state.approvals) :
    ∃ events, e.turn s = e.awake.proceed (s.tell events) step ∧
      e.turnCalls s = e.awake.proceedCalls (s.tell events) step := by
  obtain ⟨events, hresume⟩ :
      ∃ events, e.resume step s.state.approvals = .clear e.awake events := by
    rw [resume]
    cases hsuspended : e.state.suspended with
    | none => exact ⟨[], by rw [awake_of_suspended_eq_none hsuspended]⟩
    | some suspension =>
        obtain ⟨a, hget, happroved⟩ := hclear suspension hsuspended
        dsimp only
        rw [hget]
        dsimp only
        rw [happroved]
        exact ⟨_, rfl⟩
  exact ⟨events, turn_of_resume hrunning hat hresume⟩

theorem exists_runCalls_eq (e : Episode) (s : Session) :
    ∃ rest, e.runCalls s = e.turnCalls s ++ rest := by
  rw [runCalls, maxTurns, turnsCalls]
  exact ⟨_, rfl⟩

theorem run_eq_of_turn_over {result : Except EpisodeError Progress}
    {s' : Session} (hturn : e.turn s = (.over result, e', s')) :
    (e.run s).2.1 = e' ∧ e.runCalls s = e.turnCalls s := by
  rw [run, runCalls, maxTurns, turns, turnsCalls, hturn]
  exact ⟨rfl, List.append_nil _⟩

theorem run_eq_of_turn_ends {s' : Session}
    (hturn : e.turn s = (.onward, e', s'))
    (hover : e'.state.status ≠ .running) :
    (e.run s).2.1 = e' ∧ e.runCalls s = e.turnCalls s := by
  have hcalls : e'.turnCalls s' = [] := by
    rw [turnCalls, if_pos (EpisodeStatus.isTerminal_iff.2 hover)]
  rw [run, runCalls, maxTurns, turns, turnsCalls, hturn]
  dsimp only
  rw [turns, turnsCalls, turn_of_over hover, hcalls]
  exact ⟨rfl, List.append_nil _⟩

/-- What comes of a step when no execution is left: the episode times out if
nothing is in the way, and otherwise denies it or waits for it. -/
structure RunsOut (e : Episode) (s : Session) (step : Step) : Prop where
  timesOut : e.awake.blockedBy? step s = none →
    e.runCalls s = [] ∧ (e.run s).2.1.state.status = .aborted ∧
      (e.run s).2.1.state.reason = some .episodeTimeout
  denies : ∀ approval args,
    e.awake.blockedBy? step s = some (approval, args) →
    step.fallback = some .autoDeny →
      ∃ told rest, told.state = s.state ∧
        e.runCalls s = .denial told step args :: rest
  waits : ∀ approval args,
    e.awake.blockedBy? step s = some (approval, args) →
    step.fallback = none →
      e.runCalls s = [] ∧ (e.run s).2.1.state.status = .running

theorem IsUsedUp.runsOut (h : e.IsUsedUp)
    (hrunning : e.state.status = .running) (hat : e.IsAt i step)
    (hclear : e.IsClear s.state.approvals) : RunsOut e s step := by
  obtain ⟨events, hturn, hcalls⟩ := turn_of_clear hrunning hat hclear
  have hused : e.awake.limits.maxExecutions ≤ e.awake.state.executions := h
  refine ⟨?_, ?_, ?_⟩
  · intro hblocked
    have htold : e.awake.blockedBy? step (s.tell events) = none := hblocked
    rw [proceed, htold] at hturn
    rw [proceedCalls, htold] at hcalls
    dsimp only at hturn hcalls
    rw [if_pos hused] at hturn hcalls
    obtain ⟨hrun, hrunCalls⟩ := run_eq_of_turn_ends hturn
      fun hgoes => by cases hgoes
    rw [hrun, hrunCalls]
    exact ⟨hcalls, rfl, rfl⟩
  · intro approval args hblocked hfallback
    have htold : e.awake.blockedBy? step (s.tell events) =
        some (approval, args) := hblocked
    rw [proceedCalls, htold] at hcalls
    dsimp only at hcalls
    rw [hfallback] at hcalls
    obtain ⟨rest, hrest⟩ := exists_runCalls_eq e s
    rw [hcalls] at hrest
    exact ⟨s.tell events, rest, rfl, hrest⟩
  · intro approval args hblocked hfallback
    have htold : e.awake.blockedBy? step (s.tell events) =
        some (approval, args) := hblocked
    rw [proceed, htold] at hturn
    rw [proceedCalls, htold] at hcalls
    dsimp only at hturn hcalls
    rw [hfallback] at hturn hcalls
    obtain ⟨hrun, hrunCalls⟩ := run_eq_of_turn_over hturn
    rw [hrun, hrunCalls]
    exact ⟨hcalls, hrunning⟩

/-- The executions bound the calls of steps, and the steps and the jumps bound
all calls.  When no execution is left a run only makes denials: it times out
at a step that nothing is in the way of, but it first denies what a step waits
for if the step says so, and waits for it if not. -/
theorem calls_within_limits {d : WorkflowDocument} {known : Registry}
    {w : Workflow} (hw : d.compile known = .ok w) (limits : EpisodeLimits)
    (setup : SessionSetup) (snapshot : Json) (clock : Clock)
    (sink : ReceiptSink) (actions : List EpisodeAction) :
    let first := (start w limits, Session.start setup snapshot clock sink)
    let last := first.1.play first.2 actions
    let calls := playCalls first actions
    calls.countP (·.isAttempt) ≤ last.1.state.executions ∧
      last.1.state.executions ≤ limits.maxExecutions ∧
      calls.length ≤ w.steps.length * (limits.maxJumps + 1) ∧
      (limits.maxExecutions ≤ last.1.state.executions →
        (∀ c ∈ last.1.runCalls last.2, c.IsAutoDenial) ∧
        ∀ i step, last.1.state.status = .running → last.1.IsAt i step →
          last.1.IsClear last.2.state.approvals →
            RunsOut last.1 last.2 step) := by
  intro first last calls
  have hlaid := WorkflowDocument.laidOut_of_compile hw
  have hstart : Spent first.1 [] := ⟨Nat.zero_le _, Nat.zero_le _,
    fun _ => Nat.zero_le _⟩
  have hreached : Reached w limits last.1 := Reached.play .start actions
  have hspent : Spent last.1 calls := hstart.play .start hlaid actions
  obtain ⟨hworkflow, hlimits, -⟩ := hreached.steady
  have hbounded := hreached.bounded hlaid
  refine ⟨hspent.attempts_le, hlimits ▸ hbounded.executions_le, ?_, ?_⟩
  · refine Nat.le_trans hspent.length_le ?_
    rw [hworkflow, ← hlimits]
    exact Nat.mul_le_mul_left _
      (Nat.add_le_add_right hbounded.jumps_le 1)
  · intro hused
    have husedUp : last.1.IsUsedUp := by
      rw [IsUsedUp, hlimits]
      exact hused
    refine ⟨fun c hc => husedUp.turnsCalls _ hc, ?_⟩
    intro i step hrunning hat hclear
    exact husedUp.runsOut hrunning hat hclear

/-- Mail is asked for before an episode that has no execution at all: its run
makes a call, which is the denial. -/
theorem denied_without_executions :
    let session := Session.start (mailSetup {}) .null (.logical 0) .none
    let request : EpisodeAction :=
      .call ApprovalControl.request.id (Session.decisionArgs mailSend none)
    let first := (start mailWorkflow ⟨8, 0⟩, session)
    let last := first.1.play first.2 [request]
    last.1.state.executions = 0 ∧
      (∃ told rest, told.state = last.2.state ∧ last.1.runCalls last.2 =
        .denial told (mailStep 0 "first") .null :: rest) ∧
      (playCalls first [request, .run]).length = 1 ∧
      (playCalls first [request, .run]).countP (·.isAttempt) = 0 := by
  intro session request first last
  have hcounts : last.1.state.executions = 0 ∧
      (first.1.play first.2 [request, .run]).1.state.executions = 0 ∧
      (playCalls first [request, .run]).length = 1 := by
    decide +kernel
  have hblocked : last.1.awake.blockedBy? (mailStep 0 "first") last.2 =
      some ("approval-1", .null) := by
    decide +kernel
  obtain ⟨hexecutions, hexecutions', hlength⟩ := hcounts
  obtain ⟨-, -, -, hlast⟩ := calls_within_limits mailDocument_compile ⟨8, 0⟩
    (mailSetup {}) .null (.logical 0) .none [request]
  obtain ⟨hattempts, -⟩ := calls_within_limits mailDocument_compile ⟨8, 0⟩
    (mailSetup {}) .null (.logical 0) .none [request, .run]
  have hrunsOut := (hlast (Nat.zero_le _)).2 0 (mailStep 0 "first") rfl
    ⟨rfl, rfl⟩ nofun
  refine ⟨hexecutions, ?_, hlength, ?_⟩
  · exact hrunsOut.denies "approval-1" .null hblocked rfl
  · exact Nat.le_zero.1 (hexecutions' ▸ hattempts)

end Episode

end CallGate
