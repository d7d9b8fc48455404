import CallGate.Proofs.Episode.Calls

/-!
# What a turn does

Everything that a turn can do to an episode is said here once.  `Course` lists
where an attempt may lead, `TurnEffect` the ways in which a turn may end, with
the calls that it makes, and `Move` what is left of these when calls and
sessions are set aside.  Facts about episodes are proved move by move and do
not look into the definitions again.
-/

namespace CallGate

theorem EpisodeStatus.isTerminal_iff {status : EpisodeStatus} :
    status.isTerminal = true ↔ status ≠ .running := by
  rw [isTerminal, decide_eq_true_iff]

namespace Episode

variable {e e' : Episode} {s s' : Session} {step : Step} {i : Nat}

/-! ## Where an attempt leads -/

/-- The transition of an attempt, the place and the jumps after it, and why
the episode ends if it does. -/
inductive Course (e : Episode) (step : Step) (number : Nat)
    (verdict : Verdict) :
    Transition → Option Nat → Nat → Option EndReason → Prop where
  | passed (hpassed : verdict.isPassed = true) :
      Course e step number verdict .advance (e.next? step) e.state.jumps none
  | failed (hfailed : verdict.isPassed = false)
      (hlast : isExhausted step number = true ∨ step.onFailure = .fail) :
      Course e step number verdict .stop e.state.current e.state.jumps
        (some (.stepFailed step.id))
  | continued (hfailed : verdict.isPassed = false)
      (hmore : isExhausted step number = false)
      (hrecourse : step.onFailure = .continue) :
      Course e step number verdict .continue (e.next? step) e.state.jumps
        none
  | refused (target : String) (index : Nat)
      (hfailed : verdict.isPassed = false)
      (hmore : isExhausted step number = false)
      (hrecourse : step.onFailure = .jump target index)
      (hjumps : e.limits.maxJumps ≤ e.state.jumps) :
      Course e step number verdict .stop e.state.current e.state.jumps
        (some (.jumpLimitExceeded step.id e.limits.maxJumps))
  | jumped (target : String) (index : Nat)
      (hfailed : verdict.isPassed = false)
      (hmore : isExhausted step number = false)
      (hrecourse : step.onFailure = .jump target index)
      (hjumps : e.state.jumps < e.limits.maxJumps) :
      Course e step number verdict (.jump target) (some index)
        (e.state.jumps + 1) none

theorem after_course (e : Episode) (step : Step) (number : Nat)
    (verdict : Verdict) :
    Course e step number verdict (e.after step number verdict).1
      (e.after step number verdict).2.1
      (e.after step number verdict).2.2.1
      (e.after step number verdict).2.2.2 := by
  rw [after]
  by_cases hpassed : verdict.isPassed = true
  · rw [if_pos hpassed]
    exact .passed hpassed
  · rw [if_neg hpassed, afterFailure]
    have hfailed : verdict.isPassed = false := by simpa using hpassed
    by_cases hexhausted : isExhausted step number = true
    · rw [if_pos hexhausted]
      exact .failed hfailed (Or.inl hexhausted)
    · rw [if_neg hexhausted]
      have hmore : isExhausted step number = false := by
        simpa using hexhausted
      cases hrecourse : step.onFailure with
      | fail => exact .failed hfailed (Or.inr hrecourse)
      | «continue» => exact .continued hfailed hmore hrecourse
      | jump target index =>
          dsimp only
          by_cases hjumps : e.limits.maxJumps ≤ e.state.jumps
          · rw [if_pos hjumps]
            exact .refused target index hfailed hmore hrecourse hjumps
          · rw [if_neg hjumps]
            exact .jumped target index hfailed hmore hrecourse
              (Nat.lt_of_not_le hjumps)

def settledState (st : EpisodeState) (attempt : Attempt)
    (current : Option Nat) (jumps : Nat) (reason : Option EndReason) :
    EpisodeState :=
  { st with
    current := current
    jumps := jumps
    history := st.history ++ [attempt]
    status := if reason.isSome then .failed else st.status
    reason := reason.or st.reason }

/-- Settling an attempt adds it to the history and changes the rest as its
course says. -/
theorem exists_course_of_settle (e : Episode) (step : Step)
    (verdict : Verdict) (sent : Option Sent) :
    ∃ transition current jumps reason,
      Course e step (e.state.attemptCount step.id + 1) verdict transition
        current jumps reason ∧
      (e.settle step verdict sent).1 =
        { e with
          state := settledState e.state
            (.make step.id (e.state.attemptCount step.id + 1) sent verdict
              transition) current jumps reason } := by
  have hcourse := after_course e step (e.state.attemptCount step.id + 1)
    verdict
  rw [settle]
  generalize e.after step (e.state.attemptCount step.id + 1) verdict = found
    at hcourse ⊢
  obtain ⟨transition, current, jumps, reason⟩ := found
  refine ⟨transition, current, jumps, reason, hcourse, ?_⟩
  cases reason <;> rfl

/-! ## What looking after a suspension leads to -/

/-- The step at a place, where the episode is. -/
structure IsAt (e : Episode) (i : Nat) (step : Step) : Prop where
  current_eq : e.state.current = some i
  step_eq : e.workflow.steps[i]? = some step

/-- The episode waits for nothing, or what it waited for is approved. -/
def IsClear (e : Episode) (queue : Approval.Queue) : Prop :=
  ∀ suspension, e.state.suspended = some suspension →
    ∃ a, queue.get? suspension.approval = some a ∧ a.resolution = .approved

/-- The verdict on a step when the approval that it waited for was resolved
and not approved. -/
inductive Withheld (queue : Approval.Queue) : Verdict → Prop where
  | denied (a : Approval) (approval : String)
      (hget : queue.get? approval = some a)
      (hdenied : a.resolution = .denied) :
      Withheld queue (.approvalDenied approval)
  | expired (a : Approval) (approval : String)
      (hget : queue.get? approval = some a)
      (hexpired : a.resolution = .expired) :
      Withheld queue (.approvalExpired approval)

/-- The ends of looking after a suspension. -/
inductive Resumed (e : Episode) (step : Step) (queue : Approval.Queue) :
    Resumption → Prop where
  | unknown (suspension : Suspension)
      (hsuspended : e.state.suspended = some suspension)
      (hget : queue.get? suspension.approval = none) :
      Resumed e step queue (.unknown suspension.approval)
  | waiting (suspension : Suspension)
      (hsuspended : e.state.suspended = some suspension) :
      Resumed e step queue (.waiting suspension)
  | settled (verdict : Verdict) (hwithheld : Withheld queue verdict) :
      Resumed e step queue
        (.settled (e.awake.settle step verdict none).1
          (e.awake.settle step verdict none).2)
  | clear (events : List AuditEvent) (hclear : e.IsClear queue) :
      Resumed e step queue (.clear e.awake events)

theorem awake_of_suspended_eq_none (h : e.state.suspended = none) :
    e.awake = e := by
  obtain ⟨w, limits, st, data⟩ := e
  cases st
  cases h
  rfl

theorem resume_resumed (e : Episode) (step : Step)
    (queue : Approval.Queue) :
    Resumed e step queue (e.resume step queue) := by
  rw [resume]
  cases hsuspended : e.state.suspended with
  | none =>
      have hclear : e.IsClear queue := by
        intro suspension h
        cases hsuspended.symm.trans h
      have hcleared : Resumed e step queue (.clear e.awake []) :=
        .clear [] hclear
      rwa [awake_of_suspended_eq_none hsuspended] at hcleared
  | some suspension =>
      dsimp only
      cases hget : queue.get? suspension.approval with
      | none => exact .unknown suspension hsuspended hget
      | some a =>
          dsimp only
          cases hresolution : a.resolution with
          | unresolved => exact .waiting suspension hsuspended
          | approved =>
              refine .clear _ ?_
              intro other hother
              cases hsuspended.symm.trans hother
              exact ⟨a, hget, hresolution⟩
          | denied =>
              exact .settled _ (.denied a suspension.approval hget hresolution)
          | expired =>
              exact .settled _
                (.expired a suspension.approval hget hresolution)

/-! ## The ends of a turn -/

/-- An episode that waits for nothing, with the executions and the data that
an attempt has added. -/
def readied (e : Episode) (executed : Nat) (data : KeyMap String Json) :
    Episode :=
  { e with
    state := { e.state with
      suspended := none, executions := e.state.executions + executed }
    data := data }

def waiting (e : Episode) (step : Step) (approval : String) : Episode :=
  { e with state := { e.state with suspended := some ⟨step.id, approval⟩ } }

/-- Why a turn may leave an episode as it is: it is over, it is nowhere in its
workflow, or it is at a step and waits for an approval, which may be unknown to
the session. -/
inductive Idle (e : Episode) (s : Session) :
    Except EpisodeError Progress → Prop where
  | ended (hover : e.state.status ≠ .running) :
      Idle e s (.ok (.finished e.state.status))
  | astray (i : Nat) (hrunning : e.state.status = .running)
      (hcurrent : e.state.current = some i)
      (hstep : e.workflow.steps[i]? = none) : Idle e s (.error (.noStep i))
  | unknown (i : Nat) (step : Step) (suspension : Suspension)
      (hrunning : e.state.status = .running) (hat : e.IsAt i step)
      (hsuspended : e.state.suspended = some suspension)
      (hget : s.state.approvals.get? suspension.approval = none) :
      Idle e s (.error (.unknownApproval suspension.approval))
  | waiting (i : Nat) (step : Step) (suspension : Suspension)
      (hrunning : e.state.status = .running) (hat : e.IsAt i step)
      (hsuspended : e.state.suspended = some suspension) :
      Idle e s (.ok (.suspended suspension))

/-- What comes of an attempt that does not end the episode at once: the
verdict, what is known of its dispatch, and the data for references. -/
inductive Attempted (e : Episode) (told : Session) (step : Step) :
    Verdict → Option Sent → KeyMap String Json → Prop where
  | unresolved (error : Template.Error)
      (hargs : e.arguments step = .error error) :
      Attempted e told step (.assertionFailed [error.message]) none e.data
  | untaken (args : Json) (error : DispatchError)
      (hargs : e.arguments step = .ok args)
      (hanswer : (told.dispatch step.operation.id args).1 = .error error) :
      Attempted e told step (.assertionFailed [error.message]) none e.data
  | answered (args : Json) (d : Dispatch)
      (hargs : e.arguments step = .ok args)
      (hanswer : (told.dispatch step.operation.id args).1 = .ok d) :
      Attempted e told step
        (verdictOn step d.response
          (told.dispatch step.operation.id args).2.pendingCount)
        (some ⟨d.response.sequence, d.response.fingerprint,
          d.response.status⟩)
        (e.data.insert step.id d.response.data)

/-- What a turn may do to an episode, and the calls that it makes on the
way.  The session is given as it is before the turn; `told` is that session
when the audit was told of the end of a suspension. -/
inductive TurnEffect (e : Episode) (s : Session) :
    Turn → List EpisodeCall → Episode → Prop where
  /-- The episode is over, waits, or cannot go on. -/
  | kept (result : Except EpisodeError Progress) (hidle : Idle e s result) :
      TurnEffect e s (.over result) [] e
  | finished (hrunning : e.state.status = .running)
      (hcurrent : e.state.current = none) :
      TurnEffect e s .onward [] (e.finish s.pendingCount).1
  /-- What the step waited for was not approved. -/
  | withheld (i : Nat) (step : Step) (verdict : Verdict)
      (hrunning : e.state.status = .running) (hat : e.IsAt i step)
      (hwithheld : Withheld s.state.approvals verdict) :
      TurnEffect e s .onward [] (e.awake.settle step verdict none).1
  | denied (i : Nat) (step : Step) (told : Session) (approval : String)
      (args : Json) (hrunning : e.state.status = .running)
      (hat : e.IsAt i step) (hclear : e.IsClear s.state.approvals)
      (htold : told.setup = s.setup ∧ told.state = s.state)
      (hblocked : e.awake.blockedBy? step told = some (approval, args))
      (hfallback : step.fallback = some .autoDeny)
      (hanswer : ∃ d,
        (told.resolve .deny step.operation.id (some args)).1 = .ok d) :
      TurnEffect e s .onward [.denial told step args]
        (e.awake.settle step (.approvalDenied approval) none).1
  | undenied (i : Nat) (step : Step) (told : Session) (approval : String)
      (args : Json) (error : DispatchError)
      (hrunning : e.state.status = .running) (hat : e.IsAt i step)
      (hblocked : e.awake.blockedBy? step told = some (approval, args))
      (hfallback : step.fallback = some .autoDeny) :
      TurnEffect e s (.over (.error (.dispatch error)))
        [.denial told step args]
        (e.awake.terminate .aborted (.routerFailure error.message)
          (some step.id)).1
  | suspended (i : Nat) (step : Step) (told : Session) (approval : String)
      (args : Json) (hrunning : e.state.status = .running)
      (hat : e.IsAt i step)
      (htold : told.setup = s.setup ∧ told.state = s.state)
      (hblocked : e.awake.blockedBy? step told = some (approval, args))
      (hfallback : step.fallback = none) :
      TurnEffect e s (.over (.ok (.suspended ⟨step.id, approval⟩))) []
        (e.awake.waiting step approval)
  | timedOut (i : Nat) (step : Step)
      (hrunning : e.state.status = .running) (hat : e.IsAt i step)
      (hused : e.limits.maxExecutions ≤ e.state.executions) :
      TurnEffect e s .onward []
        (e.awake.terminate .aborted .episodeTimeout (some step.id)).1
  | attempted (i : Nat) (step : Step) (told : Session) (verdict : Verdict)
      (sent : Option Sent) (data : KeyMap String Json)
      (hrunning : e.state.status = .running) (hat : e.IsAt i step)
      (hleft : e.state.executions < e.limits.maxExecutions)
      (hverdict : verdict = .passed ∨
        ∃ failures, verdict = .assertionFailed failures)
      (htold : told.setup = s.setup ∧ told.state = s.state)
      (hattempted : Attempted e.awake told step verdict sent data) :
      TurnEffect e s .onward (e.awake.attemptCalls told step)
        ((e.readied 1 data).settle step verdict sent).1
  | failed (i : Nat) (step : Step) (told : Session) (error : DispatchError)
      (hrunning : e.state.status = .running) (hat : e.IsAt i step)
      (hleft : e.state.executions < e.limits.maxExecutions) :
      TurnEffect e s (.over (.error (.dispatch error)))
        (e.awake.attemptCalls told step)
        ((e.readied 1 e.data).terminate .aborted
          (.routerFailure error.message) (some step.id)).1

theorem verdictOn_cases (step : Step) (r : Response) (pending : Nat) :
    verdictOn step r pending = .passed ∨
      ∃ failures, verdictOn step r pending = .assertionFailed failures := by
  rw [verdictOn]
  split
  · exact Or.inl rfl
  · exact Or.inr ⟨_, rfl⟩

theorem attempt_effect {told : Session}
    (hrunning : e.state.status = .running) (hat : e.IsAt i step)
    (hleft : e.state.executions < e.limits.maxExecutions)
    (htold : told.setup = s.setup ∧ told.state = s.state) :
    TurnEffect e s (e.awake.attempt told step).1
      (e.awake.attemptCalls told step) (e.awake.attempt told step).2.1 := by
  have hsettled (verdict : Verdict) (sent : Option Sent)
      (data : KeyMap String Json)
      (hverdict : verdict = .passed ∨
        ∃ failures, verdict = .assertionFailed failures)
      (hattempted : Attempted e.awake told step verdict sent data) :=
    TurnEffect.attempted (s := s) i step told verdict sent data hrunning hat
      hleft hverdict htold hattempted
  have hfailed (error : DispatchError) :=
    TurnEffect.failed (s := s) i step told error hrunning hat hleft
  let counted : Episode :=
    { e.awake with
      state := { e.awake.state with
        executions := e.awake.state.executions + 1 } }
  have hcounted : counted.arguments step = e.awake.arguments step := rfl
  rw [attempt]
  dsimp only
  cases hargs : e.awake.arguments step with
  | error error =>
      rw [hcounted.trans hargs]
      exact hsettled _ none e.data (Or.inr ⟨_, rfl⟩) (.unresolved error hargs)
  | ok args =>
      have hanswered (d : Dispatch) :=
        @Attempted.answered e.awake told step args d hargs
      have huntaken (error : DispatchError) :=
        @Attempted.untaken e.awake told step args error hargs
      rw [hcounted.trans hargs]
      dsimp only
      generalize told.dispatch step.operation.id args = answer
        at hanswered huntaken ⊢
      obtain ⟨answer, answering⟩ := answer
      cases answer with
      | ok d =>
          exact hsettled _ _ _ (verdictOn_cases step d.response _)
            (hanswered d rfl)
      | error error =>
          rcases error with ⟨_ | _ | _⟩ | _
          · exact hfailed _
          · exact hsettled _ none e.data (Or.inr ⟨_, rfl⟩) (huntaken _ rfl)
          · exact hsettled _ none e.data (Or.inr ⟨_, rfl⟩) (huntaken _ rfl)
          · exact hfailed _

theorem denyBlocking_effect {told : Session} {approval : String} {args : Json}
    (hrunning : e.state.status = .running) (hat : e.IsAt i step)
    (hclear : e.IsClear s.state.approvals)
    (htold : told.setup = s.setup ∧ told.state = s.state)
    (hblocked : e.awake.blockedBy? step told = some (approval, args))
    (hfallback : step.fallback = some .autoDeny) :
    TurnEffect e s (e.awake.denyBlocking told step approval args).1
      [.denial told step args]
      (e.awake.denyBlocking told step approval args).2.1 := by
  have hdenied := TurnEffect.denied i step told approval args hrunning hat
    hclear htold hblocked hfallback
  rw [denyBlocking]
  generalize told.resolve .deny step.operation.id (some args) = answered
    at hdenied ⊢
  obtain ⟨answer, answering⟩ := answered
  cases answer with
  | ok d => exact hdenied ⟨d, rfl⟩
  | error error =>
      exact .undenied i step told approval args error hrunning hat hblocked
        hfallback

theorem proceed_effect {told : Session}
    (hrunning : e.state.status = .running) (hat : e.IsAt i step)
    (hclear : e.IsClear s.state.approvals)
    (htold : told.setup = s.setup ∧ told.state = s.state) :
    TurnEffect e s (e.awake.proceed told step).1
      (e.awake.proceedCalls told step) (e.awake.proceed told step).2.1 := by
  rw [proceed, proceedCalls]
  cases hblocked : e.awake.blockedBy? step told with
  | some blocked =>
      obtain ⟨approval, args⟩ := blocked
      dsimp only
      cases hfallback : step.fallback with
      | some fallback =>
          cases fallback
          exact denyBlocking_effect hrunning hat hclear htold hblocked
            hfallback
      | none =>
          exact .suspended i step told approval args hrunning hat htold
            hblocked hfallback
  | none =>
      dsimp only
      by_cases hused : e.awake.limits.maxExecutions ≤
          e.awake.state.executions
      · rw [if_pos hused, if_pos hused]
        exact .timedOut i step hrunning hat hused
      · rw [if_neg hused, if_neg hused]
        exact attempt_effect hrunning hat (Nat.lt_of_not_le hused) htold

theorem turn_effect (e : Episode) (s : Session) :
    TurnEffect e s (e.turn s).1 (e.turnCalls s) (e.turn s).2.1 := by
  rw [turn, turnCalls]
  by_cases hover : e.state.status.isTerminal = true
  · rw [if_pos hover, if_pos hover]
    exact .kept _ (.ended (EpisodeStatus.isTerminal_iff.1 hover))
  · rw [if_neg hover, if_neg hover]
    have hrunning : e.state.status = .running := by
      rwa [EpisodeStatus.isTerminal_iff, ne_eq, Decidable.not_not] at hover
    cases hcurrent : e.state.current with
    | none => exact .finished hrunning hcurrent
    | some index =>
        dsimp only
        cases hstep : e.workflow.steps[index]? with
        | none => exact .kept _ (.astray index hrunning hcurrent hstep)
        | some step =>
            have hat : e.IsAt index step := ⟨hcurrent, hstep⟩
            dsimp only
            have hresumed := resume_resumed e step s.state.approvals
            generalize e.resume step s.state.approvals = resumption
              at hresumed ⊢
            cases hresumed with
            | unknown suspension hsuspended hget =>
                exact .kept _
                  (.unknown index step suspension hrunning hat hsuspended hget)
            | waiting suspension hsuspended =>
                exact .kept _
                  (.waiting index step suspension hrunning hat hsuspended)
            | settled verdict hwithheld =>
                exact .withheld index step verdict hrunning hat hwithheld
            | clear events hclear =>
                exact proceed_effect hrunning hat hclear ⟨rfl, rfl⟩

/-! ## Moves -/

/-- The episode ended, without another attempt. -/
structure EndsAs (e e' : Episode) : Prop where
  running : e.state.status = .running
  not_running : e'.state.status ≠ .running
  workflow_eq : e'.workflow = e.workflow
  limits_eq : e'.limits = e.limits
  current_eq : e'.state.current = e.state.current
  history_eq : e'.state.history = e.state.history
  jumps_eq : e'.state.jumps = e.state.jumps
  executions_eq : e'.state.executions = e.state.executions ∨
    (e'.state.executions = e.state.executions + 1 ∧
      e.state.executions < e.limits.maxExecutions)
  suspended_eq : e'.state.suspended = none ∨
    e'.state.suspended = e.state.suspended

theorem EndsAs.terminate (hrunning : e.state.status = .running)
    (status : EpisodeStatus) (hstatus : status ≠ .running)
    (reason : EndReason) (id : Option String) :
    EndsAs e (e.terminate status reason id).1 :=
  ⟨hrunning, hstatus, rfl, rfl, rfl, rfl, rfl, Or.inl rfl, Or.inr rfl⟩

theorem EndsAs.terminate_awake (hrunning : e.state.status = .running)
    (status : EpisodeStatus) (hstatus : status ≠ .running)
    (reason : EndReason) (id : Option String) :
    EndsAs e (e.awake.terminate status reason id).1 :=
  ⟨hrunning, hstatus, rfl, rfl, rfl, rfl, rfl, Or.inl rfl, Or.inl rfl⟩

theorem EndsAs.finish (hrunning : e.state.status = .running)
    (pending : Nat) : EndsAs e (e.finish pending).1 := by
  rw [Episode.finish]
  split
  · exact .terminate hrunning .failed (by decide) _ _
  · split
    · exact .terminate hrunning .succeeded (by decide) _ _
    · exact .terminate hrunning .failed (by decide) _ _

/-- What can happen to an episode, calls and sessions set aside. -/
inductive Move (e : Episode) : Episode → Prop where
  | kept : Move e e
  | waits (i : Nat) (step : Step) (approval : String)
      (hrunning : e.state.status = .running) (hat : e.IsAt i step) :
      Move e (e.awake.waiting step approval)
  | ends (e' : Episode) (hends : EndsAs e e') : Move e e'
  | settles (i : Nat) (step : Step) (executed : Nat)
      (data : KeyMap String Json) (verdict : Verdict) (sent : Option Sent)
      (hrunning : e.state.status = .running) (hat : e.IsAt i step)
      (hexecuted : executed = 0 ∨
        e.state.executions + executed ≤ e.limits.maxExecutions) :
      Move e ((e.readied executed data).settle step verdict sent).1

theorem TurnEffect.move {turn : Turn} {calls : List EpisodeCall}
    (h : TurnEffect e s turn calls e') : Move e e' := by
  cases h with
  | kept result => exact .kept
  | finished hrunning hcurrent => exact .ends _ (.finish hrunning _)
  | withheld i step verdict hrunning hat hwithheld =>
      exact .settles i step 0 e.data verdict none hrunning hat (Or.inl rfl)
  | denied i step told approval args hrunning hat =>
      exact .settles i step 0 e.data _ none hrunning hat (Or.inl rfl)
  | undenied i step told approval args error hrunning hat =>
      exact .ends _ (.terminate_awake hrunning .aborted (by decide) _ _)
  | suspended i step told approval args hrunning hat =>
      exact .waits i step approval hrunning hat
  | timedOut i step hrunning hat hused =>
      exact .ends _ (.terminate_awake hrunning .aborted (by decide) _ _)
  | attempted i step told verdict sent data hrunning hat hleft =>
      exact .settles i step 1 data verdict sent hrunning hat (Or.inr hleft)
  | failed i step told error hrunning hat hleft =>
      refine .ends _ ⟨hrunning, ?_, rfl, rfl, rfl, rfl, rfl, ?_, ?_⟩
      · exact nofun
      · exact Or.inr ⟨rfl, hleft⟩
      · exact Or.inl rfl

theorem turn_move (e : Episode) (s : Session) : Move e (e.turn s).2.1 :=
  (turn_effect e s).move

theorem settle_limits (e : Episode) (step : Step) (verdict : Verdict)
    (sent : Option Sent) :
    (e.settle step verdict sent).1.limits = e.limits := by
  obtain ⟨transition, current, jumps, reason, -, hsettle⟩ :=
    exists_course_of_settle e step verdict sent
  rw [hsettle]

theorem Move.frame (h : Move e e') :
    e'.workflow = e.workflow ∧ e'.limits = e.limits := by
  cases h with
  | kept => exact ⟨rfl, rfl⟩
  | waits => exact ⟨rfl, rfl⟩
  | ends _ hends => exact ⟨hends.workflow_eq, hends.limits_eq⟩
  | settles i step executed data verdict sent =>
      exact ⟨settle_workflow _ step verdict sent,
        settle_limits _ step verdict sent⟩

/-! ## Runs -/

theorem turn_of_over (h : e.state.status ≠ .running) (s : Session) :
    e.turn s = (.over (.ok (.finished e.state.status)), e, s) := by
  rw [turn, if_pos (EpisodeStatus.isTerminal_iff.2 h)]

theorem run_of_over (h : e.state.status ≠ .running) (s : Session) :
    e.run s = (.ok (.finished e.state.status), e, s) := by
  rw [run, maxTurns, turns, turn_of_over h s]

/-- What every turn keeps is kept by turns up to a number. -/
theorem turns_keep {P : Episode → Session → Prop}
    (hturn : ∀ e s, P e s → P (e.turn s).2.1 (e.turn s).2.2) (fuel : Nat)
    (h : P e s) : P (turns fuel e s).2.1 (turns fuel e s).2.2 := by
  induction fuel generalizing e s with
  | zero => exact h
  | succ fuel ih =>
      have hnext := hturn e s h
      rw [turns]
      generalize e.turn s = taken at hnext ⊢
      obtain ⟨_ | _, e', s'⟩ := taken
      · exact ih hnext
      · exact hnext

theorem run_keeps {P : Episode → Session → Prop}
    (hturn : ∀ e s, P e s → P (e.turn s).2.1 (e.turn s).2.2) (h : P e s) :
    P (e.run s).2.1 (e.run s).2.2 :=
  turns_keep hturn e.maxTurns h

/-! ## Episodes that can be reached -/

theorem endEpisode_of_over (h : e.state.status ≠ .running) (s : Session) :
    (e.endEpisode s).2.1 = e := by
  rw [endEpisode]
  dsimp only
  rw [if_pos (EpisodeStatus.isTerminal_iff.2 h)]
  split <;> rfl

theorem endEpisode_of_running (h : e.state.status = .running)
    (s : Session) : (e.endEpisode s).2.1 = e.expire.1 := by
  rw [endEpisode]
  dsimp only
  rw [if_neg fun hover => EpisodeStatus.isTerminal_iff.1 hover h]
  split <;> rfl

theorem EndsAs.expire (hrunning : e.state.status = .running)
    (hsuspended : e.state.suspended = none) : EndsAs e e.expire.1 := by
  rw [Episode.expire, hsuspended]
  exact .terminate hrunning .aborted (by decide) _ _

/-- The attempt of a step that waits when the episode ends. -/
def expiredAttempt (e : Episode) (suspension : Suspension) : Attempt :=
  .make suspension.step (e.state.attemptCount suspension.step + 1) none
    (.approvalExpired suspension.approval) .stop

theorem expire_of_suspended {suspension : Suspension}
    (hsuspended : e.state.suspended = some suspension) :
    e.expire.1 =
      { e with
        state := { e.state with
          suspended := none
          history := e.state.history ++ [e.expiredAttempt suspension]
          status := .aborted
          reason := some .episodeTimeout } } := by
  rw [expire, hsuspended]
  rfl

/-- The episodes of a workflow that can come about.  Each run and each end may
meet any session at all, so whatever others do to sessions in between is
allowed for. -/
inductive Reached (w : Workflow) (limits : EpisodeLimits) :
    Episode → Prop where
  | start : Reached w limits (start w limits)
  | run {e : Episode} (h : Reached w limits e) (s : Session) :
      Reached w limits (e.run s).2.1
  | endEpisode {e : Episode} (h : Reached w limits e) (s : Session) :
      Reached w limits (e.endEpisode s).2.1

/-- What holds at the start and is kept by moves and by the end of an episode
that waits holds of all episodes that can be reached. -/
theorem Reached.invariant {w : Workflow} {limits : EpisodeLimits}
    {P : Episode → Prop} (hstart : P (Episode.start w limits))
    (hmove : ∀ {e e' : Episode}, P e → Move e e' → P e')
    (hexpire : ∀ {e : Episode} {suspension : Suspension}, P e →
      e.state.status = .running → e.state.suspended = some suspension →
      P e.expire.1)
    (h : Reached w limits e) : P e := by
  induction h with
  | start => exact hstart
  | @run e _ s ih =>
      exact run_keeps (P := fun e _ => P e)
        (fun e s hP => hmove hP (turn_move e s)) (s := s) ih
  | @endEpisode e _ s ih =>
      by_cases hrunning : e.state.status = .running
      · rw [endEpisode_of_running hrunning s]
        cases hsuspended : e.state.suspended with
        | none => exact hmove ih (.ends _ (.expire hrunning hsuspended))
        | some suspension => exact hexpire ih hrunning hsuspended
      · rw [endEpisode_of_over hrunning s]
        exact ih

/-- An episode that was reached runs its workflow under its limits, and what
it waits for is for the step that it is at. -/
structure Steady (w : Workflow) (limits : EpisodeLimits) (e : Episode) :
    Prop where
  workflow_eq : e.workflow = w
  limits_eq : e.limits = limits
  suspended_at : ∀ suspension, e.state.suspended = some suspension →
    ∃ i step, e.IsAt i step ∧ suspension.step = step.id

theorem settle_suspended (e : Episode) (step : Step) (verdict : Verdict)
    (sent : Option Sent) :
    (e.settle step verdict sent).1.state.suspended = e.state.suspended := by
  obtain ⟨transition, current, jumps, reason, -, hsettle⟩ :=
    exists_course_of_settle e step verdict sent
  rw [hsettle]
  rfl

theorem Steady.move {w : Workflow} {limits : EpisodeLimits}
    (h : Steady w limits e) (hmove : Move e e') : Steady w limits e' := by
  obtain ⟨hworkflow, hlimits⟩ := hmove.frame
  refine ⟨hworkflow.trans h.workflow_eq, hlimits.trans h.limits_eq, ?_⟩
  intro suspension hsuspended
  cases hmove with
  | kept => exact h.suspended_at suspension hsuspended
  | waits i step approval hrunning hat =>
      cases hsuspended
      exact ⟨i, step, ⟨hat.current_eq, hat.step_eq⟩, rfl⟩
  | ends _ hends =>
      rcases hends.suspended_eq with hnone | hsame
      · cases hnone.symm.trans hsuspended
      · obtain ⟨i, step, hat, hid⟩ :=
          h.suspended_at suspension (hsame.symm.trans hsuspended)
        exact ⟨i, step, ⟨hends.current_eq.trans hat.current_eq,
          hends.workflow_eq ▸ hat.step_eq⟩, hid⟩
  | settles =>
      rw [settle_suspended] at hsuspended
      cases hsuspended

theorem Steady.expire {w : Workflow} {limits : EpisodeLimits}
    {suspension : Suspension} (h : Steady w limits e)
    (hsuspended : e.state.suspended = some suspension) :
    Steady w limits e.expire.1 := by
  rw [expire_of_suspended hsuspended]
  exact ⟨h.workflow_eq, h.limits_eq, nofun⟩

theorem steady_start (w : Workflow) (limits : EpisodeLimits) :
    Steady w limits (start w limits) :=
  ⟨rfl, rfl, nofun⟩

theorem Reached.steady {w : Workflow} {limits : EpisodeLimits}
    (h : Reached w limits e) : Steady w limits e :=
  h.invariant (steady_start w limits) Steady.move
    fun hsteady _ hsuspended => hsteady.expire hsuspended

/-- To show that something holds of all episodes that can be reached, one may
use that they are steady. -/
theorem Reached.steady_invariant {w : Workflow} {limits : EpisodeLimits}
    {P : Episode → Prop} (hstart : P (Episode.start w limits))
    (hmove : ∀ {e e' : Episode}, Steady w limits e → P e → Move e e' → P e')
    (hexpire : ∀ {e : Episode} {suspension : Suspension},
      Steady w limits e → P e → e.state.status = .running →
      e.state.suspended = some suspension → P e.expire.1)
    (h : Reached w limits e) : P e := by
  have hboth : Steady w limits e ∧ P e := by
    refine h.invariant (P := fun e => Steady w limits e ∧ P e)
      ⟨steady_start w limits, hstart⟩ ?_ ?_
    · rintro e e' ⟨hsteady, hP⟩ hm
      exact ⟨hsteady.move hm, hmove hsteady hP hm⟩
    · rintro e suspension ⟨hsteady, hP⟩ hrunning hsuspended
      exact ⟨hsteady.expire hsuspended,
        hexpire hsteady hP hrunning hsuspended⟩
  exact hboth.2

/-- The same for what is kept by turns, when the moves say too little. -/
theorem Reached.turn_invariant {w : Workflow} {limits : EpisodeLimits}
    {P : Episode → Prop} (hstart : P (Episode.start w limits))
    (hturn : ∀ {e : Episode} (s : Session),
      Steady w limits e → P e → P (e.turn s).2.1)
    (hexpire : ∀ {e : Episode}, P e → e.state.status = .running →
      P e.expire.1) (h : Reached w limits e) : P e := by
  induction h with
  | start => exact hstart
  | @run e h s ih =>
      have hboth (e : Episode) (s : Session)
          (hP : Steady w limits e ∧ P e) :
          Steady w limits (e.turn s).2.1 ∧ P (e.turn s).2.1 :=
        ⟨hP.1.move (turn_move e s), hturn s hP.1 hP.2⟩
      exact (run_keeps (P := fun e _ => Steady w limits e ∧ P e) hboth
        (s := s) ⟨h.steady, ih⟩).2
  | @endEpisode e h s ih =>
      by_cases hrunning : e.state.status = .running
      · rw [endEpisode_of_running hrunning s]
        exact hexpire ih hrunning
      · rw [endEpisode_of_over hrunning s]
        exact ih

end Episode

end CallGate
