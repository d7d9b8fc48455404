import CallGate.Proofs.Approval.Change

/-!
# What an id stands for

An approval is found under its id for as long as the queue lives, and nothing
about it changes once it is resolved.  Both are put into one relation between
a queue and a later one, which every change of a queue satisfies.
-/

namespace CallGate.Approval

theorem Resolution.ne_unresolved_of_isDecision {r : Resolution}
    (h : r.isDecision = true) : r ≠ .unresolved := by
  rintro rfl
  cases h

theorem Resolution.eq_expired_of_not_isDecision {r : Resolution}
    (h : r.isDecision = false) (hresolved : r ≠ .unresolved) :
    r = .expired := by
  cases r with
  | unresolved => exact absurd rfl hresolved
  | approved => cases h
  | denied => cases h
  | expired => rfl

namespace Queue

variable {q q' q'' : Queue} {id : String} {a b : Approval} {n : Nat}
  {resolution : Resolution}

theorem mem_of_get? (h : q.get? id = some a) : a ∈ q.entries ∧ a.id = id := by
  rw [get?] at h
  exact ⟨List.mem_of_find?_eq_some h, by simpa using List.find?_some h⟩

theorem Filed.eq_of_id_eq (h : q.Filed) (ha : a ∈ q.entries)
    (hb : b ∈ q.entries) (hid : a.id = b.id) : a = b := by
  obtain ⟨i, hi, rfl⟩ := List.getElem_of_mem ha
  obtain ⟨j, hj, rfl⟩ := List.getElem_of_mem hb
  have hai := h.id_eq i _ (List.getElem?_eq_getElem hi)
  have hbj := h.id_eq j _ (List.getElem?_eq_getElem hj)
  have hplace : i + 1 = j + 1 := idAt_injective (hai ▸ hbj ▸ hid)
  have hij : i = j := by omega
  subst hij
  rfl

/-- Every approval is found under its id. -/
theorem Filed.get?_of_mem (h : q.Filed) (ha : a ∈ q.entries) :
    q.get? a.id = some a := by
  cases hget : q.get? a.id with
  | none =>
      rw [get?, List.find?_eq_none] at hget
      simpa using hget a ha
  | some b =>
      obtain ⟨hb, hid⟩ := mem_of_get? hget
      rw [h.eq_of_id_eq hb ha hid]

theorem WellKept.get?_of_mem (h : q.WellKept n) (ha : a ∈ q.entries) :
    q.get? a.id = some a :=
  h.filed.get?_of_mem ha

theorem get?_resolveWhere (p : Approval → Bool) :
    (q.resolveWhere p resolution n).get? id =
      (q.get? id).map fun a =>
        if p a then a.resolve resolution n else a := by
  rw [get?, get?, resolveWhere, List.find?_map]
  congr 2
  funext a
  dsimp only [Function.comp_apply]
  split <;> rfl

/-- Nothing is lost on the way to a later queue, and what was resolved stayed
as it was. -/
def Keeps (q q' : Queue) : Prop :=
  ∀ id a, q.get? id = some a →
    ∃ b, q'.get? id = some b ∧ (a.resolution ≠ .unresolved → b = a)

theorem Keeps.refl (q : Queue) : q.Keeps q := by
  intro id a hget
  exact ⟨a, hget, fun _ => rfl⟩

theorem Keeps.trans (h : q.Keeps q') (h' : q'.Keeps q'') : q.Keeps q'' := by
  intro id a hget
  obtain ⟨b, hb, hsame⟩ := h id a hget
  obtain ⟨c, hc, hsame'⟩ := h' id b hb
  refine ⟨c, hc, fun hresolved => ?_⟩
  have hba := hsame hresolved
  subst hba
  exact hsame' hresolved

theorem Keeps.get?_of_resolved (h : q.Keeps q') (hget : q.get? id = some a)
    (hresolved : a.resolution ≠ .unresolved) : q'.get? id = some a := by
  obtain ⟨b, hb, hsame⟩ := h id a hget
  rw [hb, hsame hresolved]

theorem keeps_enqueue (q : Queue) (target : Target) (fingerprint : String)
    (n : Nat) : q.Keeps (q.enqueue target fingerprint n) := by
  intro id a hget
  refine ⟨a, ?_, fun _ => rfl⟩
  rw [get?] at hget
  rw [get?, enqueue, List.find?_append, hget]
  rfl

theorem keeps_resolveWhere {p : Approval → Bool}
    (hp : ∀ a, p a = true → a.resolution = .unresolved) :
    q.Keeps (q.resolveWhere p resolution n) := by
  intro id a hget
  rw [get?_resolveWhere, hget]
  refine ⟨_, rfl, fun hresolved => ?_⟩
  have hnot : ¬p a = true := fun hpa => hresolved (hp a hpa)
  exact if_neg hnot

end Queue

end CallGate.Approval
