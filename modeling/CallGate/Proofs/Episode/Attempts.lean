import CallGate.Proofs.Episode.History
import CallGate.Proofs.Workflow.Consistency

/-!
# How often a step is attempted

Between two jumps an episode only goes forward, so no step has two attempts
there.  A step therefore has at most one attempt more than the episode has
jumps, and numbers that hold one more than the limit of jumps hold the numbers
of all attempts.
-/

namespace CallGate

/-- The steps of a compiled workflow have different ids. -/
theorem WorkflowDocument.nodup_ids_of_compile {d : WorkflowDocument}
    {known : Registry} {w : Workflow} (hw : d.compile known = .ok w) :
    (w.steps.map (·.id)).Nodup := by
  obtain ⟨specs, hpasses⟩ := exists_passes_of_compile hw
  rw [hpasses.made.map_id]
  exact hpasses.nodup_stepIds

/-- An attempt that goes on without a jump leads to the next place. -/
theorem Workflow.getD_leads {w : Workflow} {transition : Transition} {j : Nat}
    (hj : j < w.steps.length)
    (h : transition = .advance ∨ transition = .continue) :
    (w.leads j transition).getD w.steps.length = j + 1 := by
  have hleads : w.leads j transition =
      if j + 1 < w.steps.length then some (j + 1) else none := by
    rcases h with rfl | rfl <;> rfl
  rw [hleads]
  split_ifs
  · rfl
  · rw [Option.getD_none]
    omega

/-- An attempt is one of the step that it obeys. -/
theorem Attempt.Obeys.step_eq_iff {w : Workflow} {a : Attempt} {i j : Nat}
    {step other : Step} (h : a.Obeys other)
    (hids : (w.steps.map (·.id)).Nodup) (hother : w.steps[j]? = some other)
    (hstep : w.steps[i]? = some step) : a.step = step.id ↔ j = i := by
  rw [h.id_eq]
  constructor
  · intro hid
    have hj : j < (w.steps.map (·.id)).length := by
      rw [List.length_map]
      exact (List.getElem?_eq_some_iff.1 hother).1
    refine (List.getElem?_inj hj hids).1 ?_
    rw [List.getElem?_map, List.getElem?_map, hother, hstep]
    exact congrArg some hid
  · rintro rfl
    cases hother.symm.trans hstep
    rfl

namespace Episode

variable {w : Workflow} {limits : EpisodeLimits} {e : Episode} {step : Step}
  {i k : Nat} {a : Attempt}

/-- The attempts of a step among the first ones of a history. -/
def attemptsAmong (e : Episode) (k : Nat) (id : String) : Nat :=
  (e.state.history.take k).countP fun a => a.step = id

/-- The jumps among the first attempts of a history. -/
def jumpsAmong (e : Episode) (k : Nat) : Nat :=
  (e.state.history.take k).countP fun a => a.transition.isJump

theorem attemptsAmong_succ (ha : e.state.history[k]? = some a) (id : String) :
    e.attemptsAmong (k + 1) id =
      e.attemptsAmong k id + if a.step = id then 1 else 0 := by
  obtain ⟨hk, rfl⟩ := List.getElem?_eq_some_iff.1 ha
  rw [attemptsAmong, List.take_succ_eq_append_getElem hk, List.countP_append,
    List.countP_singleton, attemptsAmong]
  simp only [decide_eq_true_eq]

theorem jumpsAmong_succ (ha : e.state.history[k]? = some a) :
    e.jumpsAmong (k + 1) =
      e.jumpsAmong k + if a.transition.isJump then 1 else 0 := by
  obtain ⟨hk, rfl⟩ := List.getElem?_eq_some_iff.1 ha
  rw [jumpsAmong, List.take_succ_eq_append_getElem hk, List.countP_append,
    List.countP_singleton, jumpsAmong]

theorem attemptsAmong_length (e : Episode) (id : String) :
    e.attemptsAmong e.state.history.length id = e.state.attemptCount id := by
  rw [attemptsAmong, List.take_length, List.countP_eq_length_filter]
  rfl

theorem Traced.jumpsAmong_length (h : Traced e) :
    e.jumpsAmong e.state.history.length = e.state.jumps := by
  rw [jumpsAmong, List.take_length, h.jumps_eq]

/-- The place that the first attempts of a history lead to. -/
def placeAfter (e : Episode) (k : Nat) : Nat :=
  (e.workflow.follow (e.state.history.take k)).getD e.workflow.steps.length

theorem placeAfter_eq {j : Nat}
    (h : e.workflow.follow (e.state.history.take k) = some j) :
    e.placeAfter k = j := by
  rw [placeAfter, h, Option.getD_some]

theorem placeAfter_succ (ha : e.state.history[k]? = some a) {j : Nat}
    (h : e.workflow.follow (e.state.history.take k) = some j) :
    e.placeAfter (k + 1) =
      (e.workflow.leads j a.transition).getD e.workflow.steps.length := by
  obtain ⟨hk, rfl⟩ := List.getElem?_eq_some_iff.1 ha
  rw [placeAfter, List.take_succ_eq_append_getElem hk, Workflow.follow_concat,
    h, Option.bind_some]

/-- Before its last attempt an episode has attempted a step at most as often as
it has jumped, and once more if it is past the step. -/
theorem Traced.attemptsAmong_le (h : Traced e)
    (hids : (e.workflow.steps.map (·.id)).Nodup)
    (hstep : e.workflow.steps[i]? = some step)
    (hk : k < e.state.history.length) :
    e.attemptsAmong k step.id ≤
      e.jumpsAmong k + if i < e.placeAfter k then 1 else 0 := by
  induction k with
  | zero => exact Nat.zero_le _
  | succ k ih =>
      have ha := List.getElem?_eq_getElem (Nat.lt_of_succ_lt hk)
      obtain ⟨j, other, hfollow, hother, hobeys⟩ := h.attempts k _ ha
      have hown := hobeys.step_eq_iff hids hother hstep
      have hj := (List.getElem?_eq_some_iff.1 hother).1
      have hbefore := ih (Nat.lt_of_succ_lt hk)
      rw [placeAfter_eq hfollow] at hbefore
      rw [attemptsAmong_succ ha, jumpsAmong_succ ha,
        placeAfter_succ ha hfollow, if_congr hown rfl rfl]
      cases htransition : e.state.history[k].transition with
      | advance =>
          rw [Workflow.getD_leads hj (.inl rfl), Transition.isJump]
          split_ifs at hbefore ⊢ <;> omega
      | «continue» =>
          rw [Workflow.getD_leads hj (.inr rfl), Transition.isJump]
          split_ifs at hbefore ⊢ <;> omega
      | jump target =>
          rw [Transition.isJump, if_pos rfl]
          split_ifs at hbefore ⊢ <;> omega
      | stop =>
          have hlast := (h.last_of_stop k _ ha htransition).1
          omega

theorem Traced.attemptCount_le (h : Traced e)
    (hids : (e.workflow.steps.map (·.id)).Nodup)
    (hstep : e.workflow.steps[i]? = some step) :
    e.state.attemptCount step.id ≤ e.state.jumps + 1 := by
  rw [← attemptsAmong_length, ← h.jumpsAmong_length]
  cases hlength : e.state.history.length with
  | zero => exact Nat.zero_le _
  | succ k =>
      have ha := List.getElem?_eq_getElem (l := e.state.history) (i := k)
        (by omega)
      obtain ⟨j, other, hfollow, hother, hobeys⟩ := h.attempts k _ ha
      have hown := hobeys.step_eq_iff hids hother hstep
      have hbefore := h.attemptsAmong_le hids hstep (k := k) (by omega)
      rw [placeAfter_eq hfollow] at hbefore
      rw [attemptsAmong_succ ha, jumpsAmong_succ ha, if_congr hown rfl rfl]
      split_ifs at hbefore ⊢ <;> omega

/-- A step has at most one attempt more than the episode may jump. -/
theorem attemptCount_le {d : WorkflowDocument} {known : Registry}
    (hw : d.compile known = .ok w) (h : Reached w limits e)
    (hstep : step ∈ w.steps) :
    e.state.attemptCount step.id ≤ limits.maxJumps + 1 := by
  have hlaid := WorkflowDocument.laidOut_of_compile hw
  have hids := WorkflowDocument.nodup_ids_of_compile hw
  have hjumps := (h.bounded hlaid).jumps_le
  obtain ⟨i, hi⟩ := List.getElem?_of_mem hstep
  obtain ⟨rfl, rfl, -⟩ := h.steady
  have hcount := (h.traced hlaid).attemptCount_le hids hi
  omega

/-- The number of an attempt is at most one more than the episode may jump. -/
theorem number_le {d : WorkflowDocument} {known : Registry}
    (hw : d.compile known = .ok w) (h : Reached w limits e)
    (ha : a ∈ e.state.history) : a.number ≤ limits.maxJumps + 1 := by
  have htraced := h.traced (WorkflowDocument.laidOut_of_compile hw)
  obtain ⟨k, hk⟩ := List.getElem?_of_mem ha
  obtain ⟨i, step, -, hstep, hobeys⟩ := htraced.attempts k a hk
  rw [h.steady.workflow_eq] at hstep
  have hcount := attemptCount_le hw h (List.mem_of_getElem? hstep)
  rw [← hobeys.id_eq] at hcount
  exact Nat.le_trans (htraced.number_bounds ha).2 hcount

end Episode

end CallGate
