import CallGate.Proofs.Workflow.WellFormed

/-!
# The cycle that the search reports

A search that finds something has closed a walk: the list is a cycle in the
order of the walk, and no place is on it twice.  So the check of failures
refuses a list of steps exactly when failures can go round for ever, and the
ids that it names are those of such a cycle.
-/

namespace CallGate

namespace Cycle

variable {next : Nat → Option Nat} {p : Nat → Bool} {count : Nat}

/-- The list is a cycle in the order of a walk: the places follow each other,
and the first one follows the last one. -/
structure IsRound (follows : Nat → Nat → Prop) (cycle : List Nat) : Prop where
  chain : cycle.IsChain follows
  closes : ∃ first last, cycle.head? = some first ∧
    cycle.getLast? = some last ∧ follows last first

theorem Leads.isRound {i : Nat} {after : List Nat}
    (h : Leads next (i :: after) i) :
    IsRound (fun a b => next a = some b) (i :: after) := by
  obtain ⟨last, hlast⟩ := Option.isSome_iff_exists.1
    (List.getLast?_isSome.2 (List.cons_ne_nil i after))
  obtain ⟨hchain, -, hback⟩ := List.isChain_append.1 h
  refine ⟨hchain, i, last, rfl, hlast, ?_⟩
  exact hback last hlast i rfl

theorem IsRound.exists_leads {cycle : List Nat}
    (h : IsRound (fun a b => next a = some b) cycle) :
    ∃ first after, cycle = first :: after ∧
      Leads next (first :: after) first := by
  obtain ⟨first, last, hfirst, hlast, hback⟩ := h.closes
  obtain ⟨after, rfl⟩ := List.head?_eq_some_iff.1 hfirst
  refine ⟨first, after, rfl, ?_⟩
  apply h.chain.append (List.isChain_singleton first)
  intro a ha b hb
  rw [hlast, Option.mem_some_iff] at ha
  rw [List.head?_cons, Option.mem_some_iff] at hb
  subst ha hb
  exact hback

/-- The places of a round lie on a cycle, and all of them satisfy what all of
the round do. -/
theorem IsRound.onCycle {cycle : List Nat}
    (h : IsRound (fun a b => next a = some b) cycle)
    (hall : ∀ i ∈ cycle, p i = true) : ∀ i ∈ cycle, OnCycle next p i := by
  obtain ⟨first, after, rfl, hleads⟩ := h.exists_leads
  intro i hi
  exact hleads.onCycle (hleads.transGen hall) i (List.mem_append_left _ hi)

theorem IsRound.ne_nil {follows : Nat → Nat → Prop} {cycle : List Nat}
    (h : IsRound follows cycle) : cycle ≠ [] := by
  obtain ⟨first, -, hfirst, -⟩ := h.closes
  intro hnil
  rw [hnil] at hfirst
  cases hfirst

/-- A cycle that a walk closes is one in the order of the walk, and no place
is on it twice. -/
theorem isRound_of_walk {settled places : List Nat} {fuel i : Nat}
    {cycle : List Nat} (hleads : Leads next places i)
    (hnodup : places.Nodup)
    (h : (walk next settled fuel places i).cycle = some cycle) :
    IsRound (fun a b => next a = some b) cycle ∧ cycle.Nodup := by
  induction fuel generalizing places i with
  | zero => cases h
  | succ fuel ih =>
      rw [walk] at h
      split at h
      · cases h
      · split at h
        · rename_i hagain
          obtain ⟨before, after, rfl, hbefore⟩ :=
            List.eq_append_cons_of_mem (List.contains_iff_mem.1 hagain)
          rw [dropWhile_ne_append hbefore, Option.some.injEq] at h
          subst h
          exact ⟨hleads.drop.isRound, hnodup.of_append_right⟩
        · rename_i hnew
          split at h
          · cases h
          · rename_i j hj
            have hnew' : i ∉ places := by simpa using hnew
            have hnodup' : (places ++ [i]).Nodup :=
              List.concat_eq_append ▸ List.Nodup.concat hnew' hnodup
            exact ih (hleads.concat hj) hnodup' h

theorem isRound_of_findFrom {bad : List Nat → Bool}
    {settled starts cycle : List Nat}
    (h : findFrom next bad count settled starts = some cycle) :
    bad cycle = true ∧ IsRound (fun a b => next a = some b) cycle ∧
      cycle.Nodup := by
  induction starts generalizing settled with
  | nil => cases h
  | cons start rest ih =>
      rw [findFrom] at h
      split at h
      · exact ih h
      · rename_i found hfound
        split at h
        · rename_i hbad
          cases h
          exact ⟨hbad, isRound_of_walk (leads_nil next start)
            List.nodup_nil hfound⟩
        · exact ih h

end Cycle

namespace Compile

variable {steps : List Step} {i j : Nat}

/-- A failure of the step at a place leads to another place: a jump to its
index, and a step that goes on to the next one, when there is one. -/
inductive FailsTo (steps : List Step) : Nat → Nat → Prop where
  | jump (i j : Nat) (s : Step) (target : String) (hs : steps[i]? = some s)
      (hjump : s.onFailure = .jump target j) : FailsTo steps i j
  | next (i : Nat) (s : Step) (hs : steps[i]? = some s)
      (hgoes : s.onFailure = .continue) (hnext : i + 1 < steps.length) :
      FailsTo steps i (i + 1)

/-- Failures can go round for ever on a list of places: each leads to the next
one, the last one to the first, and no step bounds its attempts. -/
structure EndlessCycle (steps : List Step) (cycle : List Nat) : Prop
    extends Cycle.IsRound (FailsTo steps) cycle where
  unbounded : ∀ i ∈ cycle, ∃ s, steps[i]? = some s ∧ s.maxAttempts = none

/-- All jumps lead to steps. -/
def JumpsWithin (steps : List Step) : Prop :=
  ∀ s ∈ steps, ∀ target index, s.onFailure = .jump target index →
    index < steps.length

theorem failureSuccessor_eq_some_iff :
    failureSuccessor steps i = some j ↔ FailsTo steps i j := by
  constructor
  · intro h
    rw [failureSuccessor] at h
    split at h
    · cases h
    · rename_i s hs
      split at h
      · rename_i target index hjump
        cases h
        exact .jump i j s target hs hjump
      · rename_i hgoes
        split at h
        · rename_i hnext
          cases h
          exact .next i s hs hgoes hnext
        · cases h
      · cases h
  · intro h
    cases h with
    | jump _ s target hs hjump => simp only [failureSuccessor, hs, hjump]
    | next s hs hgoes hnext =>
        simp only [failureSuccessor, hs, hgoes, if_pos hnext]

/-- The cycles of the check are the cycles of failures. -/
theorem isRound_failureSuccessor_iff {cycle : List Nat} :
    Cycle.IsRound (fun a b => failureSuccessor steps a = some b) cycle ↔
      Cycle.IsRound (FailsTo steps) cycle := by
  have hsame : (fun a b => failureSuccessor steps a = some b) =
      FailsTo steps := by
    funext a b
    exact propext failureSuccessor_eq_some_iff
  rw [hsame]

theorem FailsTo.exists_step (h : FailsTo steps i j) :
    ∃ s, steps[i]? = some s := by
  cases h with
  | jump _ s target hs hjump => exact ⟨s, hs⟩
  | next s hs hgoes hnext => exact ⟨s, hs⟩

theorem JumpsWithin.lt_length (hjumps : JumpsWithin steps)
    (h : FailsTo steps i j) : i < steps.length ∧ j < steps.length := by
  obtain ⟨s, hs⟩ := h.exists_step
  refine ⟨(List.getElem?_eq_some_iff.1 hs).1, ?_⟩
  cases h with
  | jump _ s target hs hjump =>
      exact hjumps s (List.mem_of_getElem? hs) target j hjump
  | next s hs hgoes hnext => exact hnext

/-- Every place of a round leads somewhere, so it is that of a step. -/
theorem exists_step_of_isRound {cycle : List Nat}
    (h : Cycle.IsRound (FailsTo steps) cycle) (hi : i ∈ cycle) :
    ∃ s, steps[i]? = some s := by
  have hround := isRound_failureSuccessor_iff.2 h
  have honCycle := hround.onCycle (p := fun _ => true) (fun _ _ => rfl) i hi
  obtain ⟨-, j, hj, -⟩ := honCycle.exists_next
  exact (failureSuccessor_eq_some_iff.1 hj).exists_step

/-- A round is endless exactly when its places are free. -/
theorem endlessCycle_iff {cycle : List Nat} :
    EndlessCycle steps cycle ↔
      Cycle.IsRound (FailsTo steps) cycle ∧ isUnbounded steps cycle = true := by
  constructor
  · intro h
    refine ⟨h.toIsRound, List.all_eq_true.2 fun i hi => ?_⟩
    obtain ⟨s, hs, hmax⟩ := h.unbounded i hi
    simp [hs, hmax]
  · rintro ⟨hround, hfree⟩
    refine ⟨hround, fun i hi => ?_⟩
    obtain ⟨s, hs⟩ := exists_step_of_isRound hround hi
    have hmax := List.all_eq_true.1 hfree i hi
    simp only [hs, Option.bind_some, Option.isNone_iff_eq_none] at hmax
    exact ⟨s, hs, hmax⟩

/-- The ids of places that are all those of steps, one for each. -/
theorem forall₂_filterMap_id {cycle : List Nat}
    (h : ∀ i ∈ cycle, ∃ s, steps[i]? = some s) :
    List.Forall₂ (fun i id => ∃ s, steps[i]? = some s ∧ s.id = id) cycle
      (cycle.filterMap fun i => steps[i]?.map (·.id)) := by
  induction cycle with
  | nil => exact .nil
  | cons i rest ih =>
      obtain ⟨s, hs⟩ := h i List.mem_cons_self
      rw [List.filterMap_cons, hs]
      refine .cons ⟨s, hs, rfl⟩ (ih fun j hj => ?_)
      exact h j (List.mem_cons_of_mem i hj)

/-- The check refuses a list of steps exactly when failures can go round for
ever, and the ids that it names are those of such a cycle in the order of the
walk, on which no step comes twice. -/
theorem failure_cycles_found_exactly (hjumps : JumpsWithin steps) :
    ((∃ e, checkFailureCycles steps = .error e) ↔
        ∃ cycle, EndlessCycle steps cycle) ∧
      ∀ e, checkFailureCycles steps = .error e →
        ∃ cycle ids, EndlessCycle steps cycle ∧ cycle.Nodup ∧
          List.Forall₂ (fun i id => ∃ s, steps[i]? = some s ∧ s.id = id)
            cycle ids ∧
          e = .unboundedFailureCycle ids := by
  have hreported : ∀ e, checkFailureCycles steps = .error e →
      ∃ cycle ids, EndlessCycle steps cycle ∧ cycle.Nodup ∧
        List.Forall₂ (fun i id => ∃ s, steps[i]? = some s ∧ s.id = id)
          cycle ids ∧
        e = .unboundedFailureCycle ids := by
    intro e he
    rw [checkFailureCycles] at he
    split at he
    · cases he
    · rename_i cycle hfound
      cases he
      obtain ⟨hfree, hround, hnodup⟩ := Cycle.isRound_of_findFrom hfound
      rw [isRound_failureSuccessor_iff] at hround
      refine ⟨cycle, _, endlessCycle_iff.2 ⟨hround, hfree⟩, hnodup, ?_, rfl⟩
      exact forall₂_filterMap_id fun i hi => exists_step_of_isRound hround hi
  refine ⟨⟨?_, ?_⟩, hreported⟩
  · rintro ⟨e, he⟩
    obtain ⟨cycle, -, hendless, -⟩ := hreported e he
    exact ⟨cycle, hendless⟩
  · rintro ⟨cycle, hendless⟩
    obtain ⟨hround, hfree⟩ := endlessCycle_iff.1 hendless
    have hround' := isRound_failureSuccessor_iff.2 hround
    obtain ⟨first, hfirst⟩ := List.exists_mem_of_ne_nil cycle hround.ne_nil
    have honCycle := hround'.onCycle (List.all_eq_true.1 hfree) first hfirst
    have hbounds : ∀ i j, failureSuccessor steps i = some j →
        i < steps.length ∧ j < steps.length := by
      intro i j hnext
      exact hjumps.lt_length (failureSuccessor_eq_some_iff.1 hnext)
    cases hcheck : checkFailureCycles steps with
    | error e => exact ⟨e, rfl⟩
    | ok u =>
        have hclear := (checkFailureCycles_eq_ok_iff hbounds).1 hcheck
        exact absurd honCycle (hclear first)

/-- A step that lists mails, given what happens when it fails. -/
def listingStep (index : Nat) (id : String) (onFailure : Recourse)
    (maxAttempts : Option Nat) : Step :=
  ⟨index, id, "", .viaAdapter ⟨"mail", "list"⟩ .read, .null,
    Expectation.ordinary, onFailure, maxAttempts, none⟩

/-- Failures of `a` lead to `b`, and from there to `c` and back.  The step `d`
goes back to itself, but not for ever. -/
def circlingSteps : List Step :=
  [listingStep 0 "a" .continue none, listingStep 1 "b" .continue none,
    listingStep 2 "c" (.jump "b" 1) none,
    listingStep 3 "d" (.jump "d" 3) (some 2)]

theorem circling_steps_refused :
    JumpsWithin circlingSteps ∧
      checkFailureCycles circlingSteps =
        .error (.unboundedFailureCycle ["b", "c"]) ∧
      ∃ cycle, EndlessCycle circlingSteps cycle ∧ cycle.Nodup ∧
        List.Forall₂
          (fun i id => ∃ s, circlingSteps[i]? = some s ∧ s.id = id) cycle
          ["b", "c"] := by
  have hjumps : JumpsWithin circlingSteps := by
    intro s hs target index hjump
    simp only [circlingSteps, listingStep, List.mem_cons, List.not_mem_nil,
      or_false] at hs
    rcases hs with rfl | rfl | rfl | rfl <;> cases hjump <;> decide
  have hcheck : checkFailureCycles circlingSteps =
      .error (.unboundedFailureCycle ["b", "c"]) := by
    decide
  obtain ⟨cycle, ids, hendless, hnodup, hids, heq⟩ :=
    (failure_cycles_found_exactly hjumps).2 _ hcheck
  cases heq
  exact ⟨hjumps, hcheck, cycle, hendless, hnodup, hids⟩

end Compile

end CallGate
