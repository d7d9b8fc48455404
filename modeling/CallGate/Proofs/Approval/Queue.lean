import CallGate.Proofs.Approval.Target

/-!
# What a queue says about a call

The gate asks a queue two questions about a call: which approval for it waits,
and which was resolved last.  Both are answered from the approvals that cover
the call alone, so two queues with the same covering approvals lead to the
same decision.  The answer to the second question is the approval that was
changed last, which the fold in its definition does not say openly.
-/

namespace CallGate.Approval.Queue

variable {q q' : Queue} {operation : OperationId} {digest : String}
  {target : Target} {a : Approval}

/-! ## The approvals for a call -/

/-- The approvals that cover a call, in the order of the queue. -/
def covering (q : Queue) (operation : OperationId) (digest : String) :
    List Approval :=
  q.entries.filter fun a => a.target.covers operation digest q.matching

theorem mem_covering :
    a ∈ q.covering operation digest ↔
      a ∈ q.entries ∧ a.target.covers operation digest q.matching = true :=
  List.mem_filter

theorem unresolvedFor?_eq_find?_covering :
    q.unresolvedFor? operation digest =
      (q.covering operation digest).find? fun a =>
        a.resolution = .unresolved := by
  rw [unresolvedFor?, covering, List.find?_filter]
  congr 1
  funext a
  simp [Approval.awaits, Bool.and_comm]

theorem lastResolved?_eq_foldl_covering :
    q.lastResolved? operation digest =
      ((q.covering operation digest).filter fun a =>
        a.resolution.isTerminal).foldl later none := by
  rw [lastResolved?, covering, List.filter_filter]

theorem isTerminal_iff {r : Resolution} :
    r.isTerminal = true ↔ r ≠ .unresolved := by
  rw [Resolution.isTerminal, decide_eq_true_iff]

/-- No approval for a call waits exactly when all that cover it are resolved. -/
theorem unresolvedFor?_eq_none_iff :
    q.unresolvedFor? operation digest = none ↔
      ∀ a ∈ q.covering operation digest, a.resolution ≠ .unresolved := by
  rw [unresolvedFor?_eq_find?_covering, List.find?_eq_none]
  simp

/-! ## The approval that was resolved last -/

/-- The later of two approvals is one of them, and neither is later. -/
theorem later_eq_some (s c : Approval) :
    ∃ d, later (some s) c = some d ∧ (d = s ∨ d = c) ∧
      s.changedAt ≤ d.changedAt ∧ c.changedAt ≤ d.changedAt := by
  by_cases hsc : s.changedAt ≤ c.changedAt
  · exact ⟨c, if_pos hsc, Or.inr rfl, hsc, Nat.le_refl _⟩
  · exact ⟨s, if_neg hsc, Or.inl rfl, Nat.le_refl _,
      Nat.le_of_lt (Nat.lt_of_not_le hsc)⟩

theorem foldl_later_eq_some (l : List Approval) (s : Approval) :
    ∃ a, l.foldl later (some s) = some a ∧ (a = s ∨ a ∈ l) ∧
      s.changedAt ≤ a.changedAt ∧ ∀ b ∈ l, b.changedAt ≤ a.changedAt := by
  induction l generalizing s with
  | nil => exact ⟨s, rfl, Or.inl rfl, Nat.le_refl _, by simp⟩
  | cons c rest ih =>
      obtain ⟨d, hd, hpick, hs, hc⟩ := later_eq_some s c
      obtain ⟨a, ha, hmem, hda, hrest⟩ := ih d
      refine ⟨a, by rw [List.foldl_cons, hd, ha], ?_, Nat.le_trans hs hda, ?_⟩
      · rcases hmem with rfl | hmem
        · rcases hpick with rfl | rfl
          · exact Or.inl rfl
          · exact Or.inr List.mem_cons_self
        · exact Or.inr (List.mem_cons_of_mem _ hmem)
      · intro b hb
        rcases List.mem_cons.1 hb with rfl | hb
        · exact Nat.le_trans hc hda
        · exact hrest b hb

theorem mem_filter_isTerminal {l : List Approval} :
    a ∈ l.filter (fun a => a.resolution.isTerminal) ↔
      a ∈ l ∧ a.resolution ≠ .unresolved := by
  rw [List.mem_filter, isTerminal_iff]

/-- The approval for a call that was resolved last is resolved, and no other
resolved one was changed later. -/
theorem lastResolved?_spec (h : q.lastResolved? operation digest = some a) :
    a ∈ q.covering operation digest ∧ a.resolution ≠ .unresolved ∧
      ∀ b ∈ q.covering operation digest, b.resolution ≠ .unresolved →
        b.changedAt ≤ a.changedAt := by
  rw [lastResolved?_eq_foldl_covering] at h
  have hresolved : ∀ c, c ∈ (q.covering operation digest).filter
      (fun a => a.resolution.isTerminal) ↔
        c ∈ q.covering operation digest ∧ c.resolution ≠ .unresolved :=
    fun _ => mem_filter_isTerminal
  cases hl : (q.covering operation digest).filter
      fun a => a.resolution.isTerminal with
  | nil =>
      rw [hl] at h
      cases h
  | cons s rest =>
      obtain ⟨b, hb, hmem, hs, hrest⟩ := foldl_later_eq_some rest s
      rw [hl] at h hresolved
      cases hb.symm.trans h
      have hal : a ∈ s :: rest := List.mem_cons.2 hmem
      refine ⟨((hresolved a).1 hal).1, ((hresolved a).1 hal).2, ?_⟩
      intro c hc hcr
      rcases List.mem_cons.1 ((hresolved c).2 ⟨hc, hcr⟩) with rfl | hcrest
      · exact hs
      · exact hrest c hcrest

theorem exists_lastResolved? (ha : a ∈ q.covering operation digest)
    (hresolved : a.resolution ≠ .unresolved) :
    ∃ b, q.lastResolved? operation digest = some b := by
  rw [lastResolved?_eq_foldl_covering]
  cases hl : (q.covering operation digest).filter
      fun a => a.resolution.isTerminal with
  | nil => simpa [hl] using mem_filter_isTerminal.2 ⟨ha, hresolved⟩
  | cons s rest =>
      obtain ⟨b, hb, -⟩ := foldl_later_eq_some rest s
      exact ⟨b, hb⟩

/-- An approval that was changed after all other resolved ones for a call is
the one that was resolved last. -/
theorem lastResolved?_eq_some (ha : a ∈ q.covering operation digest)
    (hresolved : a.resolution ≠ .unresolved)
    (hlast : ∀ b ∈ q.covering operation digest, b.resolution ≠ .unresolved →
      b = a ∨ b.changedAt < a.changedAt) :
    q.lastResolved? operation digest = some a := by
  obtain ⟨b, hb⟩ := exists_lastResolved? ha hresolved
  obtain ⟨hbmem, hbr, hbmax⟩ := lastResolved?_spec hb
  rcases hlast b hbmem hbr with rfl | hlt
  · exact hb
  · exact absurd (hbmax a ha hresolved) (Nat.not_le_of_lt hlt)

end CallGate.Approval.Queue
