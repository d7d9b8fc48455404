import CallGate.Workflow.Expectation

/-!
# What it is to meet an expectation

An expectation is checked by what is to be said about a response, one
complaint for each expectation that is not met.  Here each kind of expectation
is put as a statement about the response and the approvals that wait, and
nothing is said about a response exactly when all of them hold.
-/

namespace CallGate

theorem Text.occursIn_iff {needle text : List Char} :
    occursIn needle text = true ↔ needle <:+: text := by
  induction text with
  | nil => rw [occursIn, List.isEmpty_iff, List.infix_nil]
  | cons c rest ih =>
      rw [occursIn, Bool.or_eq_true, ih, List.infix_cons_iff]
      refine or_congr ?_ Iff.rfl
      rw [Option.isSome_iff_exists]
      refine exists_congr fun after => ?_
      rw [afterStart_eq_some_iff]
      exact eq_comm

namespace Expectation

variable {r : Response} {pending : Nat} {x : Expectation}

/-- The response meets the expectation while so many approvals wait. -/
def Holds (r : Response) (pending : Nat) : Expectation → Prop
  | .status expected => r.status = expected
  | .contains field text =>
    ∃ v, fieldValue? r field = some v ∧ text.toList <:+: searchable v
  | .equals field value =>
    ∃ v, fieldValue? r field = some v ∧ v.same value = true
  | .present field => ∃ v, fieldValue? r (some field) = some v ∧ v ≠ .null
  | .pendingMax max => pending ≤ max

/-- What is checked of a value that may be missing is that there is one and it
is as it should be. -/
theorem checkedValue_eq_none_iff {found : Option Json}
    {check : Json → Prop} [DecidablePred check] {absent : String}
    {wrong : Json → String} :
    (match found with
      | none => some absent
      | some v => if check v then none else some (wrong v)) = none ↔
      ∃ v, found = some v ∧ check v := by
  cases found with
  | none => simp
  | some v => simp

theorem complaint?_eq_none_iff :
    complaint? r pending x = none ↔ x.Holds r pending := by
  cases x with
  | status expected =>
      rw [complaint?, Holds]
      by_cases h : r.status = expected <;> simp [h]
  | contains field text =>
      rw [complaint?, Holds]
      simp only [← Text.occursIn_iff]
      exact checkedValue_eq_none_iff
  | equals field value =>
      rw [complaint?, Holds]
      exact checkedValue_eq_none_iff
  | present field =>
      rw [complaint?, Holds]
      rcases fieldValue? r (some field) with _ | _ | _ <;> simp
  | pendingMax max =>
      rw [complaint?, Holds]
      by_cases h : pending > max
      · rw [if_pos h]
        simp [Nat.not_le_of_gt h]
      · rw [if_neg h]
        simp [Nat.le_of_not_gt h]

/-- Nothing is said about a response exactly when it meets all that is
expected. -/
theorem complaints_eq_nil_iff {expectations : List Expectation} :
    complaints expectations r pending = [] ↔
      ∀ x ∈ expectations, x.Holds r pending := by
  rw [complaints, List.filterMap_eq_nil_iff]
  exact forall₂_congr fun x _ => complaint?_eq_none_iff

end Expectation

end CallGate
