import CallGate.Archive.Edit
import CallGate.Proofs.Json.Settled

/-!
# Tables

The rows of a table are determined by what is found under each key.  A row
that is taken out, put in or given another key changes what is found under
these keys only, and the number of rows by as many.
-/

namespace CallGate

namespace KeyMap

variable {κ α β : Type} [Ord κ] [DecidableEq κ]

/-- The rows with other values in them. -/
def mapValues (f : α → β) (m : KeyMap κ α) : KeyMap κ β where
  entries := m.entries.map fun e => (e.1, f e.2)
  ascending := m.ascending.map fun e => f e.2

theorem get?_mapValues (f : α → β) (m : KeyMap κ α) (key : κ) :
    (m.mapValues f).get? key = (m.get? key).map f := by
  rw [get?, get?, mapValues, List.find?_map, Option.map_map, Option.map_map]
  rfl

section Lawful

variable [Std.TransOrd κ] [Std.LawfulEqOrd κ]

theorem get?_insert (m : KeyMap κ α) (key other : κ) (value : α) :
    (m.insert key value).get? other =
      if other = key then some value else m.get? other := by
  by_cases heq : other = key
  · rw [if_pos heq, heq, get?_insert_self]
  · rw [if_neg heq, get?_insert_of_ne m heq]

/-- Of two rows that are put in under one key the last one stays. -/
theorem insert_insert (m : KeyMap κ α) (key : κ) (first last : α) :
    (m.insert key first).insert key last = m.insert key last := by
  apply ext_get?
  intro other
  rw [get?_insert, get?_insert, get?_insert]
  split <;> rfl

/-- A row that is put in as it is there changes nothing. -/
theorem insert_of_get? {m : KeyMap κ α} {key : κ} {value : α}
    (h : m.get? key = some value) : m.insert key value = m := by
  apply ext_get?
  intro other
  rw [get?_insert]
  split
  · rename_i heq
    rw [heq, h]
  · rfl

end Lawful

end KeyMap

namespace KeyMap

variable {κ α : Type} [Ord κ] [Std.TransOrd κ] [Std.LawfulEqOrd κ]
  [DecidableEq κ] {m : KeyMap κ α} {key : κ} {value : α}

/-- A row under a new key is one more. -/
theorem length_insert (h : m.get? key = none) (value : α) :
    (m.insert key value).entries.length = m.entries.length + 1 := by
  have hnew : ∀ e ∈ m.entries, compare key e.1 ≠ .eq := by
    intro e he heq
    rw [Std.LawfulEqOrd.eq_of_compare heq, mem_entries_iff.1 he] at h
    cases h
  exact (Entries.insert_perm hnew).length_eq

end KeyMap

namespace Archive

variable {κ α : Type} [Ord κ] [Std.TransOrd κ] [DecidableEq κ]

theorem entries_without (m : KeyMap κ α) (key : κ) :
    (without m key).entries = m.entries.filter fun e => e.1 ≠ key :=
  KeyMap.entries_ofList_of_ascending (m.ascending.sublist List.filter_sublist)

theorem get?_without (m : KeyMap κ α) (key other : κ) :
    (without m key).get? other =
      if other = key then none else m.get? other := by
  rw [KeyMap.get?, entries_without, KeyMap.get?, List.find?_filter]
  split
  · rename_i heq
    rw [List.find?_eq_none.2, Option.map_none]
    intro e _ h
    simp [heq] at h
  · rename_i hne
    congr 2
    funext e
    by_cases he : e.1 = other <;> simp [he, hne]

theorem get?_without_of_new {m : KeyMap κ α} {key target : κ}
    (hnew : target = key ∨ m.get? target = none) :
    (without m key).get? target = none := by
  rw [get?_without]
  split
  · rfl
  · rename_i hne
    exact hnew.resolve_left hne

variable [Std.LawfulEqOrd κ] {m : KeyMap κ α} {key : κ} {value : α}

/-- A row that is taken out is one less. -/
theorem length_without (h : m.get? key = some value) :
    (without m key).entries.length + 1 = m.entries.length := by
  have hback : (without m key).insert key value = m := by
    apply KeyMap.ext_get?
    intro other
    rw [KeyMap.get?_insert, get?_without]
    split
    · rename_i heq
      rw [heq, h]
    · rfl
  have hnone : (without m key).get? key = none := by
    rw [get?_without, if_pos rfl]
  rw [← KeyMap.length_insert hnone value, hback]

end Archive

/-! ## Another key for a row -/

namespace KeyMap

variable {κ α β : Type} [Ord κ] [Std.TransOrd κ] [DecidableEq κ]

/-- The rows with another key for one of them. -/
def rename (m : KeyMap κ α) (key target : κ) : KeyMap κ α :=
  match m.get? key with
  | none => m
  | some value => (Archive.without m key).insert target value

theorem rename_of_none {m : KeyMap κ α} {key : κ} (h : m.get? key = none)
    (target : κ) : m.rename key target = m := by
  rw [rename, h]

variable [Std.LawfulEqOrd κ]

theorem mapValues_rename (f : α → β) (m : KeyMap κ α) (key target : κ) :
    (m.rename key target).mapValues f =
      (m.mapValues f).rename key target := by
  rw [rename, rename, get?_mapValues]
  cases m.get? key with
  | none => rfl
  | some value =>
      apply ext_get?
      intro other
      rw [get?_mapValues, Option.map_some, get?_insert, get?_insert,
        Archive.get?_without, Archive.get?_without, get?_mapValues]
      split
      · rfl
      · split <;> rfl

theorem rename_self (m : KeyMap κ α) (key : κ) : m.rename key key = m := by
  rw [rename]
  cases hkey : m.get? key with
  | none => rfl
  | some value =>
      apply ext_get?
      intro other
      rw [get?_insert, Archive.get?_without]
      split
      · rename_i heq
        rw [heq, hkey]
      · rfl

/-- A row that is there is not under its old key when it got another one. -/
theorem rename_ne {m : KeyMap κ α} {key target : κ} {value : α}
    (hkey : m.get? key = some value) (hne : target ≠ key) :
    m.rename key target ≠ m := by
  intro hsame
  have hgone : (m.rename key target).get? key = none := by
    rw [rename, hkey]
    dsimp only
    rw [get?_insert_of_ne _ hne.symm, Archive.get?_without, if_pos rfl]
  rw [hsame, hkey] at hgone
  cases hgone

section New

variable {m : KeyMap κ α} {key target : κ}
  (hnew : target = key ∨ m.get? target = none)

include hnew

/-- A row that gets a new key stays one row. -/
theorem length_rename :
    (m.rename key target).entries.length = m.entries.length := by
  rw [rename]
  cases hkey : m.get? key with
  | none => rfl
  | some value =>
      exact (length_insert (Archive.get?_without_of_new hnew) value).trans
        (Archive.length_without hkey)

/-- A row that gets a new key keeps its value, as do all others. -/
theorem forall_rename (p : α → Prop) :
    (∀ e ∈ (m.rename key target).entries, p e.2) ↔ ∀ e ∈ m.entries, p e.2 := by
  have hvalues (m : KeyMap κ α) : (∀ e ∈ m.entries, p e.2) ↔
      ∀ k v, m.get? k = some v → p v :=
    ⟨fun h k v hk => h (k, v) (mem_entries_iff.2 hk),
      fun h e he => h e.1 e.2 (mem_entries_iff.1 he)⟩
  rw [hvalues, hvalues, rename]
  cases hkey : m.get? key with
  | none => rfl
  | some value =>
      dsimp only
      constructor
      · intro h k v hk
        by_cases heq : k = key
        · rw [heq, hkey, Option.some.injEq] at hk
          exact hk ▸ h target value (get?_insert_self _ _ _)
        · have hother : k ≠ target := by
            rintro rfl
            rw [hnew.resolve_left heq] at hk
            cases hk
          refine h k v ?_
          rwa [get?_insert_of_ne _ hother, Archive.get?_without, if_neg heq]
      · intro h k v hk
        rw [get?_insert, Archive.get?_without] at hk
        split at hk
        · cases hk
          exact h key value hkey
        · split at hk
          · cases hk
          · exact h k v hk

end New

end KeyMap

end CallGate
