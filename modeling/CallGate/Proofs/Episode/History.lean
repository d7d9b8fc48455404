import CallGate.Proofs.Episode.Bounds

/-!
# The history as a path

The history of an episode records, attempt by attempt, where the episode went.
Followed from the first step it leads to the place where the episode is, and
every attempt in it is one of the step that the attempts before it lead to.
An attempt that stopped is the last one, because an episode that goes on has
none in its history.
-/

namespace CallGate

/-- Whether the episode went to another step than the next one. -/
def Transition.isJump : Transition → Bool
  | .jump _ => true
  | .advance | .continue | .stop => false

namespace Workflow

/-- The place that a transition leads to from a place, none past the last
step.  An episode that stops stays where it is. -/
def leads (w : Workflow) (i : Nat) : Transition → Option Nat
  | .advance | .continue =>
    if i + 1 < w.steps.length then some (i + 1) else none
  | .jump target => w.place? target
  | .stop => some i

/-- The place that attempts lead to from the first step. -/
def follow (w : Workflow) (history : List Attempt) : Option Nat :=
  history.foldl
    (fun place a => place.bind fun i => w.leads i a.transition) (some 0)

theorem follow_concat (w : Workflow) (history : List Attempt)
    (a : Attempt) :
    w.follow (history ++ [a]) =
      (w.follow history).bind fun i => w.leads i a.transition := by
  rw [follow, List.foldl_append]
  rfl

end Workflow

/-- The attempt is one of the step and went where the step says. -/
structure Attempt.Obeys (a : Attempt) (step : Step) : Prop where
  id_eq : a.step = step.id
  advance_iff : a.transition = .advance ↔ a.verdict.isPassed = true
  continue_of : a.transition = .continue →
    a.verdict.isPassed = false ∧ step.onFailure = .continue
  jump_of : ∀ target, a.transition = .jump target →
    a.verdict.isPassed = false ∧
      ∃ index, step.onFailure = .jump target index
  /-- No failed attempt goes on when the attempts of the step are used up. -/
  stop_of_last : a.verdict.isPassed = false → ∀ max,
    step.maxAttempts = some max → max ≤ a.number → a.transition = .stop

/-- A failed attempt may always stop. -/
theorem Attempt.Obeys.of_stop {a : Attempt} {step : Step}
    (hid : a.step = step.id) (hfailed : a.verdict.isPassed = false)
    (hstop : a.transition = .stop) : a.Obeys step where
  id_eq := hid
  advance_iff := by simp [hstop, hfailed]
  continue_of h := by simp [hstop] at h
  jump_of target h := by simp [hstop] at h
  stop_of_last _ _ _ _ := hstop

namespace Episode

variable {w : Workflow} {limits : EpisodeLimits} {e e' : Episode}
  {s : Session} {step : Step} {i k : Nat} {a : Attempt}

/-! ## The path that an episode took -/

/-- The history is the path that the episode took. -/
structure Traced (e : Episode) : Prop where
  attempts : ∀ k a, e.state.history[k]? = some a → ∃ i step,
    e.workflow.follow (e.state.history.take k) = some i ∧
      e.workflow.steps[i]? = some step ∧ a.Obeys step
  current_eq : e.state.current = e.workflow.follow e.state.history
  /-- The attempts of a step are counted from one. -/
  numbers : ∀ id, (e.state.attemptsOf id).map (·.number) =
    List.range' 1 (e.state.attemptCount id)
  jumps_eq : e.state.jumps =
    e.state.history.countP fun a => a.transition.isJump
  last_of_stop : ∀ k a, e.state.history[k]? = some a →
    a.transition = .stop →
    k + 1 = e.state.history.length ∧ e.state.status ≠ .running

theorem traced_start (w : Workflow) (limits : EpisodeLimits) :
    Traced (start w limits) where
  attempts k a h := by cases h
  current_eq := rfl
  numbers id := rfl
  jumps_eq := rfl
  last_of_stop k a h := by cases h

theorem getElem?_concat_cases {α : Type} {l : List α} {x a : α} {k : Nat}
    (h : (l ++ [x])[k]? = some a) :
    (l[k]? = some a ∧ (l ++ [x]).take k = l.take k) ∨
      (k = l.length ∧ a = x ∧ (l ++ [x]).take k = l) := by
  have hk : k < (l ++ [x]).length := (List.getElem?_eq_some_iff.1 h).1
  rw [List.length_append, List.length_singleton] at hk
  by_cases hlt : k < l.length
  · rw [List.getElem?_append_left hlt] at h
    exact Or.inl ⟨h, List.take_append_of_le_length (Nat.le_of_lt hlt)⟩
  · have hlast : k = l.length := by omega
    subst hlast
    rw [List.getElem?_concat_length] at h
    exact Or.inr ⟨rfl, (Option.some.inj h).symm, List.take_left⟩

theorem Traced.not_stop (h : Traced e) (hrunning : e.state.status = .running)
    (ha : e.state.history[k]? = some a) : a.transition ≠ .stop :=
  fun hstop => (h.last_of_stop k a ha hstop).2 hrunning

theorem Traced.number_bounds (h : Traced e) (ha : a ∈ e.state.history) :
    1 ≤ a.number ∧ a.number ≤ e.state.attemptCount a.step := by
  have hown : a ∈ e.state.attemptsOf a.step :=
    List.mem_filter.2 ⟨ha, by simp⟩
  have hnumber := List.mem_map_of_mem (f := (·.number)) hown
  rw [h.numbers, List.mem_range'_1] at hnumber
  omega

/-- A path goes on with an attempt of the step that it has come to. -/
theorem Traced.concat (h : Traced e) (hrunning : e.state.status = .running)
    (hat : e.IsAt i step) (hobeys : a.Obeys step)
    (hnumber : a.number = e.state.attemptCount step.id + 1)
    (hworkflow : e'.workflow = e.workflow)
    (hhistory : e'.state.history = e.state.history ++ [a])
    (hcurrent : e'.state.current = e.workflow.leads i a.transition)
    (hjumps : e'.state.jumps =
      e.state.jumps + if a.transition.isJump then 1 else 0)
    (hover : a.transition = .stop → e'.state.status ≠ .running) :
    Traced e' where
  attempts k b hb := by
    rw [hhistory] at hb ⊢
    rw [hworkflow]
    rcases getElem?_concat_cases hb with ⟨hold, htake⟩ | ⟨-, rfl, htake⟩
    · rw [htake]
      exact h.attempts k b hold
    · rw [htake, ← h.current_eq]
      exact ⟨i, step, hat.current_eq, hat.step_eq, hobeys⟩
  current_eq := by
    rw [hcurrent, hworkflow, hhistory, Workflow.follow_concat,
      ← h.current_eq, hat.current_eq, Option.bind_some]
  numbers id := by
    have hbefore := h.numbers id
    have hattempts : e'.state.attemptsOf id =
        e.state.attemptsOf id ++ [a].filter fun a => a.step = id := by
      rw [EpisodeState.attemptsOf, hhistory, List.filter_append]
      rfl
    rw [EpisodeState.attemptCount, hattempts]
    by_cases hid : a.step = id
    · have hcount : a.number = 1 + (e.state.attemptsOf id).length := by
        rw [hnumber, ← hobeys.id_eq, hid, Nat.add_comm]
        rfl
      rw [List.filter_cons_of_pos (by simpa using hid), List.filter_nil,
        List.map_append, hbefore, List.length_append, List.length_singleton,
        List.range'_1_concat, List.map_singleton, hcount]
      rfl
    · rw [List.filter_cons_of_neg (by simpa using hid), List.filter_nil,
        List.append_nil]
      exact hbefore
  jumps_eq := by
    rw [hjumps, hhistory, List.countP_append, List.countP_singleton,
      h.jumps_eq]
  last_of_stop k b hb hstop := by
    rw [hhistory] at hb ⊢
    rcases getElem?_concat_cases hb with ⟨hold, -⟩ | ⟨rfl, rfl, -⟩
    · exact absurd hstop (h.not_stop hrunning hold)
    · exact ⟨by rw [List.length_append, List.length_singleton], hover hstop⟩

/-! ## Courses and paths -/

section Course

variable {number jumps : Nat} {verdict : Verdict} {transition : Transition}
  {current : Option Nat} {reason : Option EndReason}

theorem Course.obeys
    (h : Course e step number verdict transition current jumps reason)
    (sent : Option Sent) :
    (Attempt.make step.id number sent verdict transition).Obeys step := by
  have hlast (hmore : isExhausted step number = false) (max : Nat)
      (hmax : step.maxAttempts = some max) : ¬max ≤ number := by
    simpa [isExhausted, hmax] using hmore
  cases h with
  | passed hpassed =>
      refine ⟨rfl, ⟨fun _ => hpassed, fun _ => rfl⟩, nofun, nofun, ?_⟩
      intro hfailed
      cases hpassed.symm.trans hfailed
  | failed hfailed _ => exact .of_stop rfl hfailed rfl
  | continued hfailed hmore hrecourse =>
      refine ⟨rfl, ⟨nofun, ?_⟩, fun _ => ⟨hfailed, hrecourse⟩, nofun, ?_⟩
      · intro hpassed
        cases hfailed.symm.trans hpassed
      · intro _ max hmax hle
        exact absurd hle (hlast hmore max hmax)
  | refused target index hfailed _ _ _ => exact .of_stop rfl hfailed rfl
  | jumped target index hfailed hmore hrecourse _ =>
      refine ⟨rfl, ⟨nofun, ?_⟩, nofun, ?_, ?_⟩
      · intro hpassed
        cases hfailed.symm.trans hpassed
      · intro other hother
        cases hother
        exact ⟨hfailed, index, hrecourse⟩
      · intro _ max hmax hle
        exact absurd hle (hlast hmore max hmax)

/-- The place after a course is the one that its transition leads to. -/
theorem Course.current_eq
    (h : Course e step number verdict transition current jumps reason)
    (hlaid : e.workflow.LaidOut) (hat : e.IsAt i step) :
    current = e.workflow.leads i transition := by
  have hindex := hlaid.index_eq i step hat.step_eq
  cases h with
  | passed => rw [next?, hindex, Workflow.leads]
  | failed => exact hat.current_eq
  | continued => rw [next?, hindex, Workflow.leads]
  | refused => exact hat.current_eq
  | jumped target index hfailed hmore hrecourse =>
      have hstep := List.mem_of_getElem? hat.step_eq
      exact (hlaid.jump_eq step hstep target index hrecourse).symm

theorem Course.jumps_eq
    (h : Course e step number verdict transition current jumps reason) :
    jumps = e.state.jumps + if transition.isJump then 1 else 0 := by
  cases h <;> rfl

theorem Course.reason_of_stop
    (h : Course e step number verdict transition current jumps reason)
    (hstop : transition = .stop) :
    reason = some (.stepFailed step.id) ∨
      reason = some (.jumpLimitExceeded step.id e.limits.maxJumps) := by
  cases h with
  | passed => cases hstop
  | failed => exact Or.inl rfl
  | continued => cases hstop
  | refused => exact Or.inr rfl
  | jumped => cases hstop

end Course

structure FailedBy (e : Episode) (a : Attempt) : Prop where
  status_eq : e.state.status = .failed
  reason_eq : e.state.reason = some (.stepFailed a.step) ∨
    e.state.reason = some (.jumpLimitExceeded a.step e.limits.maxJumps)

/-- Settling adds one attempt to the path, and fails the episode if that
attempt stops. -/
theorem Traced.settle {executed : Nat} {data : KeyMap String Json}
    (h : Traced e) (hlaid : e.workflow.LaidOut)
    (hrunning : e.state.status = .running) (hat : e.IsAt i step)
    (verdict : Verdict) (sent : Option Sent) :
    let settled := ((e.readied executed data).settle step verdict sent).1
    Traced settled ∧ ∀ (k : Nat) (a : Attempt),
      settled.state.history[k]? = some a → a.transition = .stop →
        FailedBy settled a := by
  intro settled
  obtain ⟨transition, current, jumps, reason, hcourse, hsettle⟩ :=
    exists_course_of_settle (e.readied executed data) step verdict sent
  let a : Attempt := .make step.id (e.state.attemptCount step.id + 1) sent
    verdict transition
  have hstate : settled.state = settledState (e.readied executed data).state
      a current jumps reason := by
    change ((e.readied executed data).settle step verdict sent).1.state = _
    rw [hsettle]
    rfl
  have hworkflow : settled.workflow = e.workflow :=
    settle_workflow (e.readied executed data) step verdict sent
  have hlimits : settled.limits = e.limits :=
    settle_limits (e.readied executed data) step verdict sent
  have hfailed (hstop : transition = .stop) : FailedBy settled a := by
    rcases hcourse.reason_of_stop hstop with rfl | rfl
    · exact ⟨by rw [hstate]; rfl, Or.inl (by rw [hstate]; rfl)⟩
    · exact ⟨by rw [hstate]; rfl, Or.inr (by rw [hstate, hlimits]; rfl)⟩
  have htraced : Traced settled := by
    refine h.concat hrunning hat (hcourse.obeys sent) rfl hworkflow
      (by rw [hstate]; rfl) ?_ ?_ ?_
    · rw [hstate]
      exact hcourse.current_eq hlaid ⟨hat.current_eq, hat.step_eq⟩
    · rw [hstate]
      exact hcourse.jumps_eq
    · intro hstop
      rw [(hfailed hstop).status_eq]
      exact nofun
  refine ⟨htraced, fun k b hb hstop => ?_⟩
  rw [hstate] at hb
  rcases getElem?_concat_cases hb with ⟨hold, -⟩ | ⟨-, rfl, -⟩
  · exact absurd hstop (h.not_stop hrunning hold)
  · exact hfailed hstop

theorem Traced.of_same (h : Traced e) (hworkflow : e'.workflow = e.workflow)
    (hcurrent : e'.state.current = e.state.current)
    (hhistory : e'.state.history = e.state.history)
    (hjumps : e'.state.jumps = e.state.jumps)
    (hover : e.state.status ≠ .running → e'.state.status ≠ .running) :
    Traced e' where
  attempts k a ha := by
    rw [hhistory] at ha ⊢
    rw [hworkflow]
    exact h.attempts k a ha
  current_eq := by rw [hcurrent, hworkflow, hhistory, h.current_eq]
  numbers id := by
    rw [EpisodeState.attemptCount, EpisodeState.attemptsOf, hhistory]
    exact h.numbers id
  jumps_eq := by rw [hjumps, hhistory, h.jumps_eq]
  last_of_stop k a ha hstop := by
    rw [hhistory] at ha ⊢
    obtain ⟨hlast, hended⟩ := h.last_of_stop k a ha hstop
    exact ⟨hlast, hover hended⟩

theorem Traced.move (h : Traced e) (hlaid : e.workflow.LaidOut)
    (hmove : Move e e') : Traced e' := by
  cases hmove with
  | kept => exact h
  | waits => exact h.of_same rfl rfl rfl rfl id
  | ends _ hends =>
      exact h.of_same hends.workflow_eq hends.current_eq hends.history_eq
        hends.jumps_eq fun _ => hends.not_running
  | settles i step executed data verdict sent hrunning hat hexecuted =>
      exact (h.settle hlaid hrunning hat verdict sent).1

/-- The attempt of a step that waits when the episode ends is the last one of
the path. -/
theorem Traced.expire {suspension : Suspension} (h : Traced e)
    (hsteady : Steady w limits e) (hrunning : e.state.status = .running)
    (hsuspended : e.state.suspended = some suspension) :
    Traced e.expire.1 := by
  obtain ⟨i, step, hat, hid⟩ := hsteady.suspended_at suspension hsuspended
  have hobeys : (e.expiredAttempt suspension).Obeys step :=
    .of_stop hid rfl rfl
  have hnumber : (e.expiredAttempt suspension).number =
      e.state.attemptCount step.id + 1 := by
    rw [← hid]
    rfl
  rw [expire_of_suspended hsuspended]
  exact h.concat hrunning hat hobeys hnumber rfl rfl hat.current_eq rfl
    fun _ => nofun

theorem Reached.traced (h : Reached w limits e) (hlaid : w.LaidOut) :
    Traced e := by
  refine h.steady_invariant (traced_start w limits) ?_ ?_
  · intro e e' hsteady htraced hmove
    exact htraced.move (hsteady.workflow_eq ▸ hlaid) hmove
  · intro e suspension hsteady htraced hrunning hsuspended
    exact htraced.expire hsteady hrunning hsuspended

/-- What turns keep of an episode whose history is its path, a run keeps. -/
theorem Reached.run_keeps {P : Episode → Session → Prop}
    (h : Reached w limits e) (hlaid : w.LaidOut)
    (hturn : ∀ e s, e.workflow = w → Traced e → P e s →
      P (e.turn s).2.1 (e.turn s).2.2) (hP : P e s) :
    P (e.run s).2.1 (e.run s).2.2 := by
  let Q : Episode → Session → Prop := fun e s =>
    e.workflow = w ∧ Traced e ∧ P e s
  have hkeeps (e : Episode) (s : Session) (hQ : Q e s) :
      Q (e.turn s).2.1 (e.turn s).2.2 := by
    obtain ⟨hworkflow, htraced, hP⟩ := hQ
    have hmove := turn_move e s
    refine ⟨hmove.frame.1.trans hworkflow, ?_, hturn e s hworkflow htraced hP⟩
    exact htraced.move (hworkflow ▸ hlaid) hmove
  have hstart : Q e s := ⟨h.steady.workflow_eq, h.traced hlaid, hP⟩
  exact (Episode.run_keeps hkeeps hstart).2.2

/-! ## Attempts that stopped -/

/-- How an attempt that stopped ended the episode: it failed it, or its step
was waiting when the episode was ended from outside. -/
inductive Stopped (w : Workflow) (limits : EpisodeLimits) (e : Episode)
    (a : Attempt) : Prop where
  | failed (hfailed : FailedBy e a)
  | expired (before : Episode) (s : Session) (approval : String)
      (hbefore : Reached w limits before)
      (hrunning : before.state.status = .running)
      (hsuspended : before.state.suspended = some ⟨a.step, approval⟩)
      (hended : e = (before.endEpisode s).2.1)
      (hstatus : e.state.status = .aborted)
      (hreason : e.state.reason = some .episodeTimeout)
      (hverdict : a.verdict = .approvalExpired approval)

theorem Traced.failedBy_of_move (h : Traced e) (hlaid : e.workflow.LaidOut)
    (hfailed : ∀ (k : Nat) (a : Attempt), e.state.history[k]? = some a →
      a.transition = .stop → FailedBy e a)
    (hmove : Move e e') (ha : e'.state.history[k]? = some a)
    (hstop : a.transition = .stop) : FailedBy e' a := by
  cases hmove with
  | kept => exact hfailed k a ha hstop
  | waits i step approval hrunning hat =>
      exact absurd hstop (h.not_stop hrunning ha)
  | ends _ hends =>
      rw [hends.history_eq] at ha
      exact absurd hstop (h.not_stop hends.running ha)
  | settles i step executed data verdict sent hrunning hat hexecuted =>
      exact (h.settle hlaid hrunning hat verdict sent).2 k a ha hstop

theorem Reached.stopped_run (h : Reached w limits e) (hlaid : w.LaidOut)
    (hrunning : e.state.status = .running) (s : Session)
    (ha : (e.run s).2.1.state.history[k]? = some a)
    (hstop : a.transition = .stop) : FailedBy (e.run s).2.1 a := by
  let P : Episode → Session → Prop := fun e _ =>
    ∀ (k : Nat) (a : Attempt),
      e.state.history[k]? = some a → a.transition = .stop → FailedBy e a
  have hturn (e : Episode) (s : Session) (hworkflow : e.workflow = w)
      (htraced : Traced e) (hfailed : P e s) :
      P (e.turn s).2.1 (e.turn s).2.2 := by
    intro k a ha hstop
    exact htraced.failedBy_of_move (hworkflow ▸ hlaid) hfailed
      (turn_move e s) ha hstop
  have hstart : P e s := by
    intro k a ha hstop
    exact absurd hstop ((h.traced hlaid).not_stop hrunning ha)
  exact h.run_keeps hlaid hturn hstart k a ha hstop

theorem Reached.stopped (h : Reached w limits e) (hlaid : w.LaidOut)
    (ha : e.state.history[k]? = some a) (hstop : a.transition = .stop) :
    Stopped w limits e a := by
  induction h with
  | start => cases ha
  | @run e h s ih =>
      by_cases hrunning : e.state.status = .running
      · exact .failed (h.stopped_run hlaid hrunning s ha hstop)
      · rw [run_of_over hrunning s] at ha ⊢
        exact ih ha
  | @endEpisode e h s ih =>
      by_cases hrunning : e.state.status = .running
      · have hgoes := (h.traced hlaid).not_stop (k := k) (a := a) hrunning
        have hended := endEpisode_of_running hrunning s
        cases hsuspended : e.state.suspended with
        | none =>
            rw [hended, (EndsAs.expire hrunning hsuspended).history_eq] at ha
            exact absurd hstop (hgoes ha)
        | some suspension =>
            rw [expire_of_suspended hsuspended] at hended
            rw [hended] at ha
            rcases getElem?_concat_cases ha with ⟨hold, -⟩ | ⟨-, rfl, -⟩
            · exact absurd hstop (hgoes hold)
            · exact .expired e s suspension.approval h hrunning hsuspended
                rfl (by rw [hended]) (by rw [hended]) rfl
      · rw [endEpisode_of_over hrunning s] at ha ⊢
        exact ih ha

/-- The history of an episode is the path that it took through its workflow,
and an attempt in it that stopped is what ended the episode. -/
theorem history_traces_path {d : WorkflowDocument} {known : Registry}
    (hw : d.compile known = .ok w) (h : Reached w limits e) :
    e.workflow = w ∧ e.limits = limits ∧ Traced e ∧
      ∀ (k : Nat) (a : Attempt), e.state.history[k]? = some a →
        a.transition = .stop → Stopped w limits e a := by
  have hlaid := WorkflowDocument.laidOut_of_compile hw
  obtain ⟨hworkflow, hlimits, -⟩ := h.steady
  refine ⟨hworkflow, hlimits, h.traced hlaid, fun k a ha hstop => ?_⟩
  exact h.stopped hlaid ha hstop

/-- The second step goes back once and stops at its second attempt, which is
its last one. -/
theorem retries_trace_path :
    let session := Session.start (mailSetup {}) .null (.logical 0) .none
    let last := ((start retryWorkflow ⟨1, 3⟩).run session).2.1
    last.state.history.map (fun a => (a.step, a.number, a.transition)) =
        [("first", 1, .continue), ("second", 1, .jump "first"),
          ("first", 2, .continue), ("second", 2, .stop)] ∧
      last.state.current = some 1 ∧ Traced last ∧
      ∀ (k : Nat) (a : Attempt), last.state.history[k]? = some a →
        a.transition = .stop → Stopped retryWorkflow ⟨1, 3⟩ last a := by
  intro session last
  have hhistory : last.state.history.map
        (fun a => (a.step, a.number, a.transition)) =
        [("first", 1, .continue), ("second", 1, .jump "first"),
          ("first", 2, .continue), ("second", 2, .stop)] ∧
      last.state.current = some 1 := by
    decide +kernel
  have hreached : Reached retryWorkflow ⟨1, 3⟩ last := .run .start session
  obtain ⟨-, -, htraced, hstopped⟩ :=
    history_traces_path retryDocument_compile hreached
  exact ⟨hhistory.1, hhistory.2, htraced, hstopped⟩

end Episode

end CallGate
