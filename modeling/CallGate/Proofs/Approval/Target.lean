import CallGate.Policy.Basic

/-!
# Targets that share calls

Whether an approval covers a call and whether a decision reaches an approval
are two relations on targets.  Both are brought to the same shape here: the
operations agree and, when digests count, the digests do not contradict each
other.  The second relation is then seen to be symmetric, and to hold of any
two targets that cover a common call.
-/

namespace CallGate.Approval.Target

variable {t u : Target} {operation : OperationId} {digest : String}
  {matching : Matching}

theorem eq_everyCall (hoperation : t.operation = operation)
    (hdigest : t.digest = none) : t = .everyCall operation := by
  cases t
  cases hoperation
  cases hdigest
  rfl

theorem covers_iff :
    t.covers operation digest matching = true ↔
      t.operation = operation ∧
        (matching = .call → t.digest = none ∨ t.digest = some digest) := by
  rw [covers.eq_def, Bool.and_eq_true, decide_eq_true_iff]
  refine and_congr_right fun _ => ?_
  cases matching <;> cases t.digest <;> simp

theorem decidedBy_iff :
    t.decidedBy u matching = true ↔
      t.operation = u.operation ∧
        (matching = .call →
          t.digest = none ∨ u.digest = none ∨ t.digest = u.digest) := by
  rw [decidedBy.eq_def, Bool.and_eq_true, decide_eq_true_iff]
  refine and_congr_right fun _ => ?_
  cases matching <;> cases t.digest <;> cases u.digest <;> simp [eq_comm]

theorem decidedBy_symm (h : t.decidedBy u matching = true) :
    u.decidedBy t matching = true := by
  obtain ⟨hoperation, hdigest⟩ := decidedBy_iff.1 h
  refine decidedBy_iff.2 ⟨hoperation.symm, fun hcall => ?_⟩
  rcases hdigest hcall with hd | hd | hd
  · exact Or.inr (Or.inl hd)
  · exact Or.inl hd
  · exact Or.inr (Or.inr hd.symm)

/-- Two targets with a call in common reach each other. -/
theorem decidedBy_of_covers (ht : t.covers operation digest matching = true)
    (hu : u.covers operation digest matching = true) :
    t.decidedBy u matching = true := by
  rw [covers_iff] at ht hu
  refine decidedBy_iff.2 ⟨ht.1.trans hu.1.symm, fun hcall => ?_⟩
  rcases ht.2 hcall with htd | htd
  · exact Or.inl htd
  · rcases hu.2 hcall with hud | hud
    · exact Or.inr (Or.inl hud)
    · exact Or.inr (Or.inr (htd.trans hud.symm))

/-- When digests count, the gate asks for one call alone. -/
theorem digest_targetFor {p : Policy} (hcall : p.matching = .call) :
    (p.targetFor operation digest).digest = some digest := by
  rw [Policy.targetFor, hcall]

/-- The target that the gate makes for a call reaches what covers the call. -/
theorem decidedBy_targetFor {p : Policy} (hmatching : p.matching = matching) :
    t.decidedBy (p.targetFor operation digest) matching =
      t.covers operation digest matching := by
  rw [Bool.eq_iff_iff, decidedBy_iff, covers_iff]
  refine and_congr_right fun _ => forall_congr' fun hcall => ?_
  rw [digest_targetFor (hmatching.trans hcall)]
  simp

/-- Whatever the matching is, the target that the gate makes for a call covers
the call. -/
theorem covers_targetFor (p : Policy) (operation : OperationId)
    (digest : String) (matching : Matching) :
    (p.targetFor operation digest).covers operation digest matching = true := by
  refine covers_iff.2 ⟨rfl, fun _ => ?_⟩
  rw [Policy.targetFor]
  cases p.matching with
  | operation => exact Or.inl rfl
  | call => exact Or.inr rfl

end CallGate.Approval.Target
