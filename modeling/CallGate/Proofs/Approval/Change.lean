import CallGate.Proofs.Approval.Queue
import CallGate.Text.Numeral

/-!
# How a queue changes

A queue changes in two ways: an approval that waits is added at the end, and
approvals that wait are resolved in place.  Each way keeps the order in which
the queue was built: an approval that shares a call with an earlier one was
asked for only after the earlier one was resolved.  At most one approval for a
call waits at any time because of that, and no two were resolved at once.
-/

namespace CallGate.Approval.Queue

variable {q q' : Queue} {operation : OperationId} {digest : String}
  {target : Target} {resolution : Resolution} {a b : Approval}
  {fingerprint : String} {m n : Nat}

/-- Different places give different ids. -/
theorem idAt_injective {i j : Nat} (h : idAt i = idAt j) : i = j := by
  have hdigits := congrArg String.toList h
  rw [idAt, idAt, String.toList_append, String.toList_append] at hdigits
  exact Text.decimal_injective
    (by simpa [Text.decimal] using List.append_cancel_left hdigits)

/-! ## The two ways -/

theorem mem_enqueue :
    a ∈ (q.enqueue target fingerprint n).entries ↔
      a ∈ q.entries ∨
        a = ⟨q.nextId, target, fingerprint, n, .unresolved, none⟩ := by
  simp [enqueue]

theorem mem_resolveWhere {p : Approval → Bool} :
    a ∈ (q.resolveWhere p resolution n).entries ↔
      ∃ b ∈ q.entries, (if p b then b.resolve resolution n else b) = a := by
  simp [resolveWhere]

/-- Resolving an approval keeps what it is for. -/
theorem target_of_ite (a : Approval) (c : Prop) [Decidable c] :
    (if c then a.resolve resolution n else a).target = a.target := by
  split <;> rfl

/-- Nothing waits for a decision about a target exactly when all that it would
reach is resolved. -/
theorem openFor?_eq_none_iff :
    q.openFor? target = none ↔
      ∀ a ∈ q.entries, a.target.decidedBy target q.matching = true →
        a.resolution ≠ .unresolved := by
  rw [openFor?, List.find?_eq_none]
  refine forall₂_congr fun a _ => ?_
  rw [isOpenFor, Bool.and_eq_true, decide_eq_true_iff]
  exact ⟨fun h hd hr => h ⟨hr, hd⟩, fun h hrd => h hrd.2 hrd.1⟩

/-- When no approval for a call waits, nothing waits for a decision about the
target that the gate makes for the call. -/
theorem openFor?_targetFor {p : Policy} {digest : String}
    (hmatching : p.matching = q.matching)
    (hnone : q.unresolvedFor? operation digest = none) :
    q.openFor? (p.targetFor operation digest) = none := by
  refine openFor?_eq_none_iff.2 fun a ha hshared => ?_
  rw [Target.decidedBy_targetFor hmatching] at hshared
  exact unresolvedFor?_eq_none_iff.1 hnone a
    (mem_covering.2 ⟨ha, hshared⟩)

theorem isOpenFor_iff :
    q.isOpenFor target a = true ↔
      a.resolution = .unresolved ∧
        a.target.decidedBy target q.matching = true := by
  rw [isOpenFor, Bool.and_eq_true, decide_eq_true_iff]

/-- A decision about the target that the gate makes for a call reaches what
covers the call, whether or not policy and queue have the same matching. -/
theorem decidedBy_targetFor_of_mem_covering (p : Policy)
    (ha : a ∈ q.covering operation digest) :
    a.target.decidedBy (p.targetFor operation digest) q.matching = true :=
  Target.decidedBy_of_covers (mem_covering.1 ha).2
    (Target.covers_targetFor p operation digest q.matching)

theorem isOpenFor_targetFor (p : Policy)
    (ha : a ∈ q.covering operation digest)
    (hwaiting : a.resolution = .unresolved) :
    q.isOpenFor (p.targetFor operation digest) a = true :=
  isOpenFor_iff.2 ⟨hwaiting, decidedBy_targetFor_of_mem_covering p ha⟩

/-- A decision that was taken resolved all that waited for it, and there was
something that did. -/
theorem decide_eq_ok {decided : List Approval}
    (h : q.decide target resolution n = .ok (decided, q')) :
    resolution.isDecision = true ∧
      decided = (q.entries.filter (q.isOpenFor target)).map
        (·.resolve resolution n) ∧
      q' = q.resolveWhere (q.isOpenFor target) resolution n := by
  rw [Queue.decide] at h
  split at h
  · cases h
  · rename_i hdecision
    split at h
    · cases h
    · cases h
      exact ⟨by simpa using hdecision, rfl, rfl⟩

/-! ## The order of a queue -/

/-- Every approval has the id of its place in the queue, and a time of
resolution exactly when it is resolved. -/
structure Filed (q : Queue) : Prop where
  id_eq : ∀ i a, q.entries[i]? = some a → a.id = idAt (i + 1)
  open_iff : ∀ a ∈ q.entries,
    a.resolution = .unresolved ↔ a.resolvedAt = none

namespace Filed

theorem empty (matching : Matching) : (Queue.empty matching).Filed where
  id_eq i a h := by cases h
  open_iff a h := by cases h

theorem enqueue (h : q.Filed) (target : Target) (fingerprint : String)
    (n : Nat) : (q.enqueue target fingerprint n).Filed where
  id_eq i a hi := by
    rw [Queue.enqueue, List.getElem?_append] at hi
    split at hi
    · exact h.id_eq i a hi
    · rename_i hlen
      rw [List.getElem?_singleton] at hi
      split at hi
      · rename_i hzero
        cases hi
        have hi : i = q.entries.length := by omega
        rw [hi, Queue.nextId]
      · cases hi
  open_iff a ha := by
    rcases mem_enqueue.1 ha with ha | rfl
    · exact h.open_iff a ha
    · simp

theorem resolveWhere (h : q.Filed) (p : Approval → Bool)
    (hresolution : resolution ≠ .unresolved) (n : Nat) :
    (q.resolveWhere p resolution n).Filed where
  id_eq i a hi := by
    rw [Queue.resolveWhere, List.getElem?_map] at hi
    obtain ⟨b, hb, rfl⟩ := Option.map_eq_some_iff.1 hi
    rw [← h.id_eq i b hb]
    split <;> rfl
  open_iff a ha := by
    obtain ⟨b, hb, rfl⟩ := mem_resolveWhere.1 ha
    split
    · simp [Approval.resolve, hresolution]
    · exact h.open_iff b hb

end Filed

/-- The order in which a queue was built by calls up to a sequence number. -/
structure WellKept (q : Queue) (sequence : Nat) : Prop where
  id_eq : ∀ i a, q.entries[i]? = some a → a.id = idAt (i + 1)
  open_iff : ∀ a ∈ q.entries,
    a.resolution = .unresolved ↔ a.resolvedAt = none
  requestedAt_le : ∀ a ∈ q.entries, a.requestedAt ≤ a.changedAt
  changedAt_le : ∀ a ∈ q.entries, a.changedAt ≤ sequence
  /-- Of two approvals that share a call the earlier one was resolved before
  the later one was asked for. -/
  succession : q.entries.Pairwise fun a b =>
    a.target.decidedBy b.target q.matching = true →
      a.resolution ≠ .unresolved ∧ a.changedAt < b.requestedAt

namespace WellKept

theorem filed (h : q.WellKept n) : q.Filed := ⟨h.id_eq, h.open_iff⟩

theorem empty (matching : Matching) (n : Nat) :
    (Queue.empty matching).WellKept n where
  id_eq := (Filed.empty matching).id_eq
  open_iff := (Filed.empty matching).open_iff
  requestedAt_le a h := by cases h
  changedAt_le a h := by cases h
  succession := List.Pairwise.nil

theorem mono (h : q.WellKept m) (hmn : m ≤ n) : q.WellKept n where
  id_eq := h.id_eq
  open_iff := h.open_iff
  requestedAt_le := h.requestedAt_le
  changedAt_le a ha := Nat.le_trans (h.changedAt_le a ha) hmn
  succession := h.succession

/-- Asking for an approval keeps the order when nothing waits for a decision
about its target. -/
theorem enqueue (h : q.WellKept m) (hmn : m < n)
    (hopen : q.openFor? target = none) :
    (q.enqueue target fingerprint n).WellKept n where
  id_eq := (h.filed.enqueue target fingerprint n).id_eq
  open_iff := (h.filed.enqueue target fingerprint n).open_iff
  requestedAt_le a ha := by
    rcases mem_enqueue.1 ha with ha | rfl
    · exact h.requestedAt_le a ha
    · exact Nat.le_refl _
  changedAt_le a ha := by
    rcases mem_enqueue.1 ha with ha | rfl
    · exact Nat.le_trans (h.changedAt_le a ha) (Nat.le_of_lt hmn)
    · exact Nat.le_refl _
  succession := by
    refine List.pairwise_append.2 ⟨h.succession, by simp, ?_⟩
    intro a ha b hb hshared
    cases List.mem_singleton.1 hb
    refine ⟨openFor?_eq_none_iff.1 hopen a ha hshared, ?_⟩
    exact Nat.lt_of_le_of_lt (h.changedAt_le a ha) hmn

/-- Resolving approvals that wait keeps the order.  What an approval is for and
when it was asked for stay, and so does what was resolved before. -/
theorem resolveWhere (h : q.WellKept m) (hmn : m ≤ n) {p : Approval → Bool}
    (hp : ∀ a, p a = true → a.resolution = .unresolved)
    (hresolution : resolution ≠ .unresolved) :
    (q.resolveWhere p resolution n).WellKept n where
  id_eq := (h.filed.resolveWhere p hresolution n).id_eq
  open_iff := (h.filed.resolveWhere p hresolution n).open_iff
  requestedAt_le a ha := by
    obtain ⟨b, hb, rfl⟩ := mem_resolveWhere.1 ha
    split
    · exact Nat.le_trans (h.requestedAt_le b hb)
        (Nat.le_trans (h.changedAt_le b hb) hmn)
    · exact h.requestedAt_le b hb
  changedAt_le a ha := by
    obtain ⟨b, hb, rfl⟩ := mem_resolveWhere.1 ha
    split
    · exact Nat.le_refl n
    · exact Nat.le_trans (h.changedAt_le b hb) hmn
  succession := by
    refine List.pairwise_map.2 (h.succession.imp_of_mem ?_)
    intro a b _ _ hab hshared
    have hshared' : a.target.decidedBy b.target q.matching = true := by
      rw [target_of_ite, target_of_ite] at hshared
      exact hshared
    obtain ⟨hresolved, hlt⟩ := hab hshared'
    have hpa : ¬p a = true := fun h => hresolved (hp a h)
    rw [if_neg hpa]
    refine ⟨hresolved, ?_⟩
    split
    · exact hlt
    · exact hlt

/-! ## What the order says -/

/-- Two approvals of a queue that share a call are the same, or one of them
was resolved before the other was asked for. -/
theorem eq_or_resolved_before (h : q.WellKept n) (ha : a ∈ q.entries)
    (hb : b ∈ q.entries)
    (hshared : a.target.decidedBy b.target q.matching = true) :
    a = b ∨ (a.resolution ≠ .unresolved ∧ a.changedAt < b.requestedAt) ∨
      (b.resolution ≠ .unresolved ∧ b.changedAt < a.requestedAt) := by
  obtain ⟨i, hi, rfl⟩ := List.getElem_of_mem ha
  obtain ⟨j, hj, rfl⟩ := List.getElem_of_mem hb
  have horder := List.pairwise_iff_getElem.1 h.succession
  rcases Nat.lt_trichotomy i j with hij | rfl | hji
  · exact Or.inr (Or.inl (horder i j hi hj hij hshared))
  · exact Or.inl rfl
  · exact Or.inr (Or.inr
      (horder j i hj hi hji (Target.decidedBy_symm hshared)))

/-- At most one approval that shares a call with another one waits. -/
theorem eq_of_waiting (h : q.WellKept n) (ha : a ∈ q.entries)
    (hb : b ∈ q.entries)
    (hshared : a.target.decidedBy b.target q.matching = true)
    (hwa : a.resolution = .unresolved) (hwb : b.resolution = .unresolved) :
    a = b := by
  rcases h.eq_or_resolved_before ha hb hshared with hab | ⟨hra, -⟩ | ⟨hrb, -⟩
  · exact hab
  · exact absurd hwa hra
  · exact absurd hwb hrb

/-- No two approvals that share a call were changed at the same time. -/
theorem eq_of_changedAt_eq (h : q.WellKept n) (ha : a ∈ q.entries)
    (hb : b ∈ q.entries)
    (hshared : a.target.decidedBy b.target q.matching = true)
    (hat : a.changedAt = b.changedAt) : a = b := by
  have hra := h.requestedAt_le a ha
  have hrb := h.requestedAt_le b hb
  rcases h.eq_or_resolved_before ha hb hshared with hab | ⟨-, hlt⟩ | ⟨-, hlt⟩
  · exact hab
  · omega
  · omega

/-- The id of the next approval is new. -/
theorem get?_nextId (h : q.WellKept n) : q.get? q.nextId = none := by
  rw [Queue.get?, List.find?_eq_none]
  intro a ha
  obtain ⟨i, hi, rfl⟩ := List.getElem_of_mem ha
  have hid := h.id_eq i _ (List.getElem?_eq_getElem hi)
  rw [decide_eq_true_iff, hid, Queue.nextId]
  intro heq
  have := idAt_injective heq
  omega

end WellKept

end CallGate.Approval.Queue
