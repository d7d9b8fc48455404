import CallGate.Proofs.Episode.History
import CallGate.Proofs.Workflow.Trail
import CallGate.Proofs.Workflow.WellFormed
import Mathlib.Order.Interval.Finset.Nat

/-!
# Episodes that only fail

The attempts of an episode in which none passes are a trail through the graph
of failures.  No cycle of a compiled workflow is free of steps that bound
their attempts, and a step that does is left less often than it bounds.  So
such an episode is no longer than its steps times the largest bound, and with
that much room for jumps it does not end for want of it.
-/

namespace CallGate

namespace Workflow

variable {w : Workflow} {i j : Nat} {step : Step}

/-- The largest number of attempts that a step declares, one when no step
does. -/
def mostAttempts (w : Workflow) : Nat :=
  (w.steps.filterMap (·.maxAttempts)).max?.getD 1

theorem le_mostAttempts (hstep : step ∈ w.steps) {max : Nat}
    (hmax : step.maxAttempts = some max) : max ≤ w.mostAttempts := by
  have hmem : max ∈ w.steps.filterMap (·.maxAttempts) :=
    List.mem_filterMap.2 ⟨step, hstep, hmax⟩
  exact List.le_max?_getD_of_mem hmem

theorem one_le_mostAttempts
    (h : ∀ step ∈ w.steps, step.maxAttempts ≠ some 0) :
    1 ≤ w.mostAttempts := by
  by_cases hnone : w.steps.filterMap (·.maxAttempts) = []
  · rw [mostAttempts, hnone]
    exact Nat.le_refl 1
  · obtain ⟨max, hmem⟩ := List.exists_mem_of_ne_nil _ hnone
    obtain ⟨step, hstep, hmax⟩ := List.mem_filterMap.1 hmem
    have hpos : max ≠ 0 := by
      rintro rfl
      exact h step hstep hmax
    have hle : max ≤ w.mostAttempts := le_mostAttempts hstep hmax
    omega

theorem LaidOut.failureSuccessor_lt (h : w.LaidOut)
    (hnext : Compile.failureSuccessor w.steps i = some j) :
    i < w.steps.length ∧ j < w.steps.length := by
  rw [Compile.failureSuccessor] at hnext
  split at hnext
  · cases hnext
  · rename_i step hstep
    refine ⟨(List.getElem?_eq_some_iff.1 hstep).1, ?_⟩
    split at hnext
    · rename_i target index hrecourse
      cases hnext
      have hplace : w.place? target = some j :=
        h.jump_eq step (List.mem_of_getElem? hstep) target j hrecourse
      exact (List.findIdx?_eq_some_iff_getElem.1 hplace).1
    · split at hnext
      · cases hnext
        assumption
      · cases hnext
    · cases hnext

/-- A failed attempt that does not stop leads to the step that follows the
failure. -/
theorem LaidOut.failureSuccessor_eq (h : w.LaidOut)
    (hstep : w.steps[i]? = some step) {a : Attempt} (hobeys : a.Obeys step)
    (hfailed : a.verdict.isPassed = false) (hgoes : a.transition ≠ .stop) :
    Compile.failureSuccessor w.steps i = w.leads i a.transition := by
  rw [Compile.failureSuccessor, hstep]
  cases htransition : a.transition with
  | advance =>
      have hpassed := hobeys.advance_iff.1 htransition
      cases hfailed.symm.trans hpassed
  | «continue» =>
      have hrecourse := (hobeys.continue_of htransition).2
      simp only [hrecourse, leads]
  | jump target =>
      obtain ⟨-, index, hrecourse⟩ := hobeys.jump_of target htransition
      have hplace : w.place? target = some index :=
        h.jump_eq step (List.mem_of_getElem? hstep) target index hrecourse
      simp only [hrecourse, leads, hplace]
  | stop => exact absurd htransition hgoes

end Workflow

namespace Episode

variable {w : Workflow} {limits : EpisodeLimits} {e e' : Episode}
  {s : Session} {step : Step} {i k : Nat} {a b : Attempt}

/-- The place of the step that an attempt is one of. -/
def placeAt (e : Episode) (k : Nat) : Nat :=
  (e.workflow.follow (e.state.history.take k)).getD 0

theorem Traced.exists_step (h : Traced e)
    (ha : e.state.history[k]? = some a) :
    ∃ step,
      e.workflow.follow (e.state.history.take k) = some (e.placeAt k) ∧
        e.workflow.steps[e.placeAt k]? = some step ∧ a.Obeys step := by
  obtain ⟨i, step, hfollow, hstep, hobeys⟩ := h.attempts k a ha
  have hplace : e.placeAt k = i := by rw [placeAt, hfollow, Option.getD_some]
  rw [hplace]
  exact ⟨step, hfollow, hstep, hobeys⟩

/-- The attempts of an episode in which none passes are a trail through the
graph of failures. -/
theorem Traced.trail (h : Traced e) (hlaid : e.workflow.LaidOut)
    (hfailing : ∀ a ∈ e.state.history, a.verdict.isPassed = false) :
    Cycle.Trail (Compile.failureSuccessor e.workflow.steps) e.placeAt
      e.state.history.length := by
  intro k hk
  have ha : e.state.history[k]? = some e.state.history[k] :=
    List.getElem?_eq_getElem (by omega)
  have hb : e.state.history[k + 1]? = some e.state.history[k + 1] :=
    List.getElem?_eq_getElem hk
  obtain ⟨step, hfollow, hstep, hobeys⟩ := h.exists_step ha
  obtain ⟨-, hfollow', -, -⟩ := h.exists_step hb
  have hgoes : e.state.history[k].transition ≠ .stop := by
    intro hstop
    have hlast := (h.last_of_stop k _ ha hstop).1
    omega
  have hfailed := hfailing _ (List.mem_of_getElem? ha)
  rw [hlaid.failureSuccessor_eq hstep hobeys hfailed hgoes, ← hfollow',
    List.take_succ_eq_append_getElem (by omega), Workflow.follow_concat,
    hfollow, Option.bind_some]

/-! ## The numbers of attempts -/

/-- No two attempts of a step have the same number. -/
theorem Traced.eq_of_number (h : Traced e) {u : Nat}
    (ha : e.state.history[k]? = some a) (hb : e.state.history[u]? = some b)
    (hstep : a.step = b.step) (hnumber : a.number = b.number) : k = u := by
  have hnodup : ((e.state.attemptsOf b.step).map (·.number)).Nodup := by
    rw [h.numbers]
    exact List.nodup_range'
  rw [List.Nodup, List.pairwise_map, EpisodeState.attemptsOf,
    List.pairwise_filter, List.pairwise_iff_getElem] at hnodup
  obtain ⟨hk, rfl⟩ := List.getElem?_eq_some_iff.1 ha
  obtain ⟨hu, rfl⟩ := List.getElem?_eq_some_iff.1 hb
  rcases Nat.lt_trichotomy k u with hlt | heq | hgt
  · have hne := hnodup k u hk hu hlt (by simpa using hstep) (by simp)
    exact absurd hnumber hne
  · exact heq
  · have hne := hnodup u k hu hk hgt (by simp) (by simpa using hstep)
    exact absurd hnumber.symm hne

/-- An episode in which no attempt passes goes on from a step less often than
the step bounds its attempts. -/
theorem Traced.card_visits_lt (h : Traced e)
    (hfailing : ∀ a ∈ e.state.history, a.verdict.isPassed = false)
    (hstep : e.workflow.steps[i]? = some step) {max : Nat}
    (hmax : step.maxAttempts = some max) (hpos : max ≠ 0) :
    (Cycle.visits e.placeAt (e.state.history.length - 1) i).card < max := by
  have hvisit : ∀ k ∈ Cycle.visits e.placeAt (e.state.history.length - 1) i,
      ∃ a, e.state.history[k]? = some a ∧ a.step = step.id ∧
        1 ≤ a.number ∧ a.number < max := by
    intro k hk
    obtain ⟨hlt, hat⟩ := Cycle.mem_visits.1 hk
    have ha : e.state.history[k]? = some e.state.history[k] :=
      List.getElem?_eq_getElem (by omega)
    obtain ⟨step', -, hstep', hobeys⟩ := h.exists_step ha
    rw [hat, hstep] at hstep'
    cases hstep'
    have hmem := List.mem_of_getElem? ha
    refine ⟨_, ha, hobeys.id_eq, (h.number_bounds hmem).1, ?_⟩
    by_contra hall
    have hstop := hobeys.stop_of_last (hfailing _ hmem) max hmax (by omega)
    have hlast := (h.last_of_stop k _ ha hstop).1
    omega
  let number (k : Nat) : Nat :=
    ((e.state.history[k]?).map (·.number)).getD 0
  have hcard : (Cycle.visits e.placeAt (e.state.history.length - 1) i).card ≤
      (Finset.Ico 1 max).card := by
    apply Finset.card_le_card_of_injOn number
    · intro k hk
      obtain ⟨a, ha, -, hone, hlt⟩ := hvisit k hk
      have hnumber : number k = a.number := by simp only [number, ha]; rfl
      rw [hnumber]
      exact Finset.mem_coe.2 (Finset.mem_Ico.2 ⟨hone, hlt⟩)
    · intro k hk u hu hsame
      obtain ⟨a, ha, hid, -⟩ := hvisit k hk
      obtain ⟨b, hb, hid', -⟩ := hvisit u hu
      simp only [number, ha, hb] at hsame
      exact h.eq_of_number ha hb (hid.trans hid'.symm) hsame
  rw [Nat.card_Ico] at hcard
  omega

/-! ## The limit of jumps -/

/-- An episode that ended for want of jumps has more attempts than it has
room for jumps. -/
def JumpsSpent (e : Episode) : Prop :=
  ∀ step limit, e.state.reason = some (.jumpLimitExceeded step limit) →
    e.limits.maxJumps < e.state.history.length

theorem JumpsSpent.settle (h : JumpsSpent e) (htraced : Traced e)
    (executed : Nat) (data : KeyMap String Json) (step : Step)
    (verdict : Verdict) (sent : Option Sent) :
    JumpsSpent ((e.readied executed data).settle step verdict sent).1 := by
  have hjumps : e.state.jumps ≤ e.state.history.length := by
    rw [htraced.jumps_eq]
    exact List.countP_le_length
  obtain ⟨transition, current, jumps, reason, hcourse, hsettle⟩ :=
    exists_course_of_settle (e.readied executed data) step verdict sent
  have hmore : e.limits.maxJumps ≤ e.state.history.length →
      JumpsSpent ((e.readied executed data).settle step verdict sent).1 := by
    intro hle id limit _
    rw [hsettle]
    simpa [settledState, readied] using Nat.lt_succ_of_le hle
  have hkept : reason = none →
      JumpsSpent ((e.readied executed data).settle step verdict sent).1 := by
    rintro rfl id limit hreason
    refine hmore (Nat.le_of_lt (h id limit ?_)) id limit hreason
    rw [hsettle] at hreason
    simpa [settledState, readied] using hreason
  cases hcourse with
  | passed => exact hkept rfl
  | failed =>
      intro id limit hreason
      rw [hsettle] at hreason
      cases hreason
  | continued => exact hkept rfl
  | refused target index hfailed hmore' hrecourse hlimit =>
      exact hmore (Nat.le_trans hlimit hjumps)
  | jumped => exact hkept rfl

/-- An episode that is ended for another reason did not end for want of
jumps. -/
theorem JumpsSpent.terminate (e : Episode) (status : EpisodeStatus)
    {reason : EndReason} (id : Option String)
    (hother : ∀ step limit, reason ≠ .jumpLimitExceeded step limit) :
    JumpsSpent (e.terminate status reason id).1 := by
  intro step limit hreason
  exact absurd (Option.some.inj hreason) (hother step limit)

theorem JumpsSpent.finish (e : Episode) (pending : Nat) :
    JumpsSpent (e.finish pending).1 := by
  rw [Episode.finish]
  split
  · apply terminate
    simp
  · split
    · apply terminate
      simp
    · apply terminate
      simp

theorem JumpsSpent.turn (h : JumpsSpent e) (htraced : Traced e)
    {turn : Turn} {calls : List EpisodeCall}
    (heffect : TurnEffect e s turn calls e') : JumpsSpent e' := by
  cases heffect with
  | kept => exact h
  | finished => exact .finish e s.pendingCount
  | withheld i step verdict => exact h.settle htraced 0 e.data step verdict none
  | denied i step told approval =>
      exact h.settle htraced 0 e.data step (.approvalDenied approval) none
  | undenied i step told approval args error =>
      apply terminate
      simp
  | suspended => exact h
  | timedOut i step =>
      apply terminate
      simp
  | attempted i step told verdict sent data =>
      exact h.settle htraced 1 data step verdict sent
  | failed i step told error =>
      apply terminate
      simp

theorem JumpsSpent.expire (e : Episode) : JumpsSpent e.expire.1 := by
  rw [Episode.expire]
  split
  · apply terminate
    simp
  · apply terminate
    simp

theorem Reached.jumpsSpent (h : Reached w limits e) (hlaid : w.LaidOut) :
    JumpsSpent e := by
  induction h with
  | start => exact nofun
  | @run e h s ih =>
      have hturn (e : Episode) (s : Session) (_ : e.workflow = w)
          (htraced : Traced e) (hspent : JumpsSpent e) :
          JumpsSpent (e.turn s).2.1 :=
        hspent.turn htraced (turn_effect e s)
      exact h.run_keeps (P := fun e _ => JumpsSpent e) hlaid hturn (s := s) ih
  | @endEpisode e h s ih =>
      by_cases hrunning : e.state.status = .running
      · rw [endEpisode_of_running hrunning s]
        exact .expire e
      · rw [endEpisode_of_over hrunning s]
        exact ih

/-! ## The bound -/

/-- An episode in which no attempt passes has at most as many attempts as
there are steps times the most attempts that a step declares, and does not end
for want of jumps when there is room for as many. -/
theorem failing_history_le {d : WorkflowDocument} {known : Registry}
    (hw : d.compile known = .ok w) (h : Reached w limits e)
    (hfailing : ∀ a ∈ e.state.history, a.verdict.isPassed = false) :
    e.state.history.length ≤ w.steps.length * w.mostAttempts ∧
      (w.steps.length * w.mostAttempts ≤ limits.maxJumps →
        ∀ step limit,
          e.state.reason ≠ some (.jumpLimitExceeded step limit)) := by
  have hlaid := WorkflowDocument.laidOut_of_compile hw
  have htraced : Traced e := h.traced hlaid
  have hspent : JumpsSpent e := h.jumpsSpent hlaid
  obtain ⟨specs, -, -, hcycles⟩ := WorkflowDocument.stepsOf_of_compile hw
  have hpos : ∀ step ∈ w.steps, step.maxAttempts ≠ some 0 := fun step hstep =>
    WorkflowDocument.maxAttempts_ne_zero_of_compile hw hstep
  have hacyclic : ∀ i, ¬Cycle.OnCycle (Compile.failureSuccessor w.steps)
      (Compile.isFree w.steps) i :=
    (Compile.checkFailureCycles_eq_ok_iff
      fun i j hnext => hlaid.failureSuccessor_lt hnext).1 hcycles
  obtain ⟨rfl, rfl, -⟩ := h.steady
  have hbounded : ∀ i, Compile.isFree e.workflow.steps i = false →
      (Cycle.visits e.placeAt (e.state.history.length - 1) i).card <
        e.workflow.mostAttempts := by
    intro i hfree
    obtain ⟨max, hdeclared⟩ :=
      Option.isSome_iff_exists.1 (Option.isNone_eq_false_iff.1 hfree)
    obtain ⟨step, hstep, hmax⟩ := Option.bind_eq_some_iff.1 hdeclared
    have hmem : step ∈ e.workflow.steps := List.mem_of_getElem? hstep
    have hne : max ≠ 0 := by
      rintro rfl
      exact hpos step hmem hmax
    exact Nat.lt_of_lt_of_le
      (htraced.card_visits_lt hfailing hstep hmax hne)
      (Workflow.le_mostAttempts hmem hmax)
  have hplaces : ∀ k < e.state.history.length,
      e.placeAt k < e.workflow.steps.length := by
    intro k hk
    obtain ⟨step, -, hstep, -⟩ :=
      htraced.exists_step (List.getElem?_eq_getElem hk)
    exact (List.getElem?_eq_some_iff.1 hstep).1
  have hlength : e.state.history.length ≤
      e.workflow.steps.length * e.workflow.mostAttempts :=
    (htraced.trail hlaid hfailing).count_le hacyclic
      (Workflow.one_le_mostAttempts hpos) hbounded hplaces
  refine ⟨hlength, fun hroom step limit hreason => ?_⟩
  have hless := hspent step limit hreason
  omega

/-- The document whose second step goes back to the first one, twice tried at
most, with room for more jumps: both steps have their two attempts. -/
theorem retries_history_le :
    let session := Session.start (mailSetup {}) .null (.logical 0) .none
    let last := ((start retryWorkflow ⟨4, 9⟩).run session).2.1
    retryWorkflow.steps.length * retryWorkflow.mostAttempts = 4 ∧
      (∀ a ∈ last.state.history, a.verdict.isPassed = false) ∧
      last.state.history.length = 4 ∧ last.state.history.length ≤ 4 ∧
      last.state.reason = some (.stepFailed "second") ∧
      ∀ step limit,
        last.state.reason ≠ some (.jumpLimitExceeded step limit) := by
  intro session last
  have hfacts : retryWorkflow.steps.length * retryWorkflow.mostAttempts = 4 ∧
      (∀ a ∈ last.state.history, a.verdict.isPassed = false) ∧
      last.state.history.length = 4 ∧
      last.state.reason = some (.stepFailed "second") := by
    decide +kernel
  obtain ⟨hbound, hfailing, hhistory, hreason⟩ := hfacts
  have hreached : Reached retryWorkflow ⟨4, 9⟩ last := .run .start session
  obtain ⟨hle, hlimit⟩ :=
    failing_history_le retryDocument_compile hreached hfailing
  rw [hbound] at hle hlimit
  exact ⟨hbound, hfailing, hhistory, hle, hreason, hlimit (Nat.le_refl 4)⟩

end Episode

end CallGate
