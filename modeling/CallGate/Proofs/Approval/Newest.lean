import CallGate.Proofs.Approval.Change
import CallGate.Proofs.Policy.Gate

/-!
# The newest approval for a call

The approvals for a call follow one another: each was asked for after the one
before it was resolved.  So at most the newest of them waits, and the newest
alone tells how the call stands.  A report on approvals names the newest one
and the gate asks for the one that was resolved last, yet the two agree.
-/

namespace CallGate.Approval

/-- How a call stands when its newest approval stands as given. -/
def Resolution.verdict : Resolution → Decision
  | .approved => .allow .approvalGranted
  | .denied => .deny .approvalDenied
  | .unresolved | .expired => .requireApproval

namespace Queue

variable {q : Queue} {operation : OperationId} {digest : String}
  {a : Approval} {n : Nat}

/-- Of two approvals for a call the earlier one was resolved before the later
one was asked for. -/
theorem WellKept.covering_succession (h : q.WellKept n)
    (operation : OperationId) (digest : String) :
    (q.covering operation digest).Pairwise fun a b =>
      a.resolution ≠ .unresolved ∧ a.changedAt < b.requestedAt := by
  rw [covering, List.pairwise_filter]
  apply h.succession.imp
  intro a b hab hacovers hbcovers
  exact hab (Target.decidedBy_of_covers hacovers hbcovers)

/-- At most one approval for a call waits, since nothing comes after one that
waits. -/
theorem WellKept.countP_waiting_le (h : q.WellKept n)
    (operation : OperationId) (digest : String) :
    (q.covering operation digest).countP
      (fun a => a.resolution = .unresolved) ≤ 1 := by
  have hsuccession := h.covering_succession operation digest
  generalize q.covering operation digest = approvals at hsuccession ⊢
  induction approvals with
  | nil => exact Nat.zero_le 1
  | cons a rest ih =>
      obtain ⟨hfirst, hrest⟩ := List.pairwise_cons.1 hsuccession
      by_cases hwaiting : a.resolution = .unresolved
      · have hlast : rest = [] := by
          apply List.eq_nil_iff_forall_not_mem.2
          intro b hb
          exact (hfirst b hb).1 hwaiting
        rw [hlast, List.countP_singleton]
        split <;> decide
      · rw [List.countP_cons_of_neg (by simpa using hwaiting)]
        exact ih hrest

/-- What a report on the target of a call names is the newest approval for the
call. -/
theorem latestFor?_targetFor {p : Policy}
    (hmatching : p.matching = q.matching) :
    q.latestFor? (p.targetFor operation digest) =
    (q.covering operation digest).getLast? := by
  have hcovers : (fun a : Approval =>
      a.target.decidedBy (p.targetFor operation digest) q.matching) =
        fun a => a.target.covers operation digest q.matching := by
    funext a
    exact Target.decidedBy_targetFor hmatching
  rw [latestFor?, hcovers, covering, ← List.head?_reverse,
    ← List.filter_reverse, List.head?_filter]

/-- A call that no approval is for has to wait. -/
theorem standing_of_uncovered
    (hnone : (q.covering operation digest).getLast? = none) :
    q.standing operation digest = .requireApproval := by
  have hempty := List.getLast?_eq_none_iff.1 hnone
  have hlatest : q.latestResolution? operation digest = none := by
    rw [latestResolution?, lastResolved?_eq_foldl_covering, hempty]
    rfl
  rw [standing, hlatest]

/-- The newest approval for a call tells how the call stands. -/
theorem WellKept.standing_of_newest (h : q.WellKept n)
    (hnewest : (q.covering operation digest).getLast? = some a) :
    q.standing operation digest = a.resolution.verdict := by
  obtain ⟨older, hcovering⟩ := List.getLast?_eq_some_iff.1 hnewest
  have ha : a ∈ q.covering operation digest := by
    rw [hcovering]
    exact List.mem_append_right older (List.mem_singleton_self a)
  have holder : ∀ b ∈ q.covering operation digest,
      b = a ∨ b.resolution ≠ .unresolved ∧ b.changedAt < a.changedAt := by
    have hsuccession := h.covering_succession operation digest
    rw [hcovering] at hsuccession ⊢
    intro b hb
    rcases List.mem_append.1 hb with hb | hb
    · obtain ⟨hresolved, hlt⟩ := (List.pairwise_append.1 hsuccession).2.2 b hb
        a (List.mem_singleton_self a)
      have hle := h.requestedAt_le a (mem_covering.1 ha).1
      exact Or.inr ⟨hresolved, Nat.lt_of_lt_of_le hlt hle⟩
    · exact Or.inl (List.mem_singleton.1 hb)
  by_cases hwaiting : a.resolution = .unresolved
  · have hfound : q.unresolvedFor? operation digest ≠ none := by
      intro hnone
      exact unresolvedFor?_eq_none_iff.1 hnone a ha hwaiting
    obtain ⟨b, hb⟩ := Option.ne_none_iff_exists'.1 hfound
    rw [standing_of_waiting hb, hwaiting]
    rfl
  · have hsettled : q.unresolvedFor? operation digest = none := by
      apply unresolvedFor?_eq_none_iff.2
      intro b hb
      rcases holder b hb with rfl | ⟨hresolved, -⟩
      · exact hwaiting
      · exact hresolved
    have hlatest :
        q.latestResolution? operation digest = some a.resolution := by
      rw [latestResolution?, lastResolved?_eq_some ha hwaiting]
      · rfl
      · intro b hb _
        exact (holder b hb).imp_right And.right
    rw [standing, hlatest, hsettled]
    cases hresolution : a.resolution with
    | unresolved => exact absurd hresolution hwaiting
    | approved => rfl
    | denied => rfl
    | expired => rfl

end Queue

end CallGate.Approval
