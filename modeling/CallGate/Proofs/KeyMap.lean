import CallGate.KeyMap
import Mathlib.Data.List.Nodup

/-!
# Looking up and putting in

The two equations of a finite map: a key that was put in has its value, and
every other key has the value that it had.  They hold of the entry list
whether or not it is in ascending order, so no proof about a map needs the
order.
-/

namespace CallGate

variable {κ α : Type} [Ord κ] [DecidableEq κ]

namespace Entries

variable [Std.LawfulEqOrd κ]

theorem find?_insert_self (key : κ) (value : α) (entries : List (κ × α)) :
    (insert key value entries).find? (fun e => e.1 = key) =
      some (key, value) := by
  induction entries with
  | nil => simp [insert]
  | cons entry rest ih =>
      rw [insert]
      split
      · simp
      · simp
      · rename_i hgt
        have hne : entry.1 ≠ key := by
          rintro rfl
          simp [Std.ReflOrd.compare_self] at hgt
        rw [List.find?_cons_of_neg (by simpa using hne)]
        exact ih

theorem find?_insert_of_ne {key other : κ} (hne : other ≠ key)
    (value : α) (entries : List (κ × α)) :
    (insert key value entries).find? (fun e => e.1 = other) =
      entries.find? (fun e => e.1 = other) := by
  induction entries with
  | nil => simp [insert, hne.symm]
  | cons entry rest ih =>
      rw [insert]
      split
      · rw [List.find?_cons_of_neg (by simpa using hne.symm)]
      · rename_i heq
        have hkey : key = entry.1 := Std.LawfulEqOrd.eq_of_compare heq
        rw [List.find?_cons_of_neg (by simpa using hne.symm),
          List.find?_cons_of_neg (by simpa [← hkey] using hne.symm)]
      · by_cases hentry : entry.1 = other
        · rw [List.find?_cons_of_pos (by simpa using hentry),
            List.find?_cons_of_pos (by simpa using hentry)]
        · rw [List.find?_cons_of_neg (by simpa using hentry),
            List.find?_cons_of_neg (by simpa using hentry)]
          exact ih

end Entries

section Ascending

variable {κ α : Type} [Ord κ]

/-- Other values under the same keys are in the same order. -/
theorem Entries.Ascending.map {β : Type} {entries : List (κ × α)}
    (h : Ascending entries) (f : κ × α → β) :
    Ascending (entries.map fun e => (e.1, f e)) := by
  apply List.pairwise_map.2
  exact h

/-- An entry below all others is put in at the front. -/
theorem Entries.insert_of_below {key : κ} {value : α}
    {entries : List (κ × α)} (h : ∀ e ∈ entries, compare key e.1 = .lt) :
    insert key value entries = (key, value) :: entries := by
  cases entries with
  | nil => rfl
  | cons entry rest => rw [insert, h entry List.mem_cons_self]

/-- An entry above all others is put in at the end. -/
theorem Entries.insert_of_above [Std.OrientedOrd κ] {key : κ} {value : α}
    {entries : List (κ × α)} (h : ∀ e ∈ entries, compare e.1 key = .lt) :
    insert key value entries = entries ++ [(key, value)] := by
  induction entries with
  | nil => rfl
  | cons entry rest ih =>
      have habove : compare key entry.1 = .gt :=
        Std.OrientedCmp.gt_of_lt (h entry List.mem_cons_self)
      have hrest := ih fun e he => h e (List.mem_cons_of_mem entry he)
      rw [insert, habove, hrest, List.cons_append]

/-- A new entry is added to those that are there. -/
theorem Entries.insert_perm {key : κ} {value : α} {entries : List (κ × α)}
    (hkey : ∀ e ∈ entries, compare key e.1 ≠ .eq) :
    (insert key value entries).Perm ((key, value) :: entries) := by
  induction entries with
  | nil => exact List.Perm.refl _
  | cons entry rest ih =>
      rw [insert]
      split
      · exact List.Perm.refl _
      · rename_i heq
        exact absurd heq (hkey entry List.mem_cons_self)
      · have hrest := ih fun e he => hkey e (List.mem_cons_of_mem entry he)
        exact (hrest.cons entry).trans (List.Perm.swap _ _ rest)

/-- Ascending entries are determined by which they are. -/
theorem Entries.Ascending.eq_of_perm [Std.OrientedOrd κ]
    {entries entries' : List (κ × α)}
    (h : Ascending entries) (h' : Ascending entries')
    (hperm : entries.Perm entries') : entries = entries' := by
  apply List.Perm.eq_of_pairwise ?_ h h' hperm
  intro a b _ _ hlt hgt
  rw [Std.OrientedCmp.gt_of_lt hlt] at hgt
  cases hgt

theorem Entries.Ascending.nodup [Std.ReflOrd κ] {entries : List (κ × α)}
    (h : Ascending entries) : (entries.map (·.1)).Nodup := by
  rw [List.Nodup, List.pairwise_map]
  apply h.imp
  intro a b hlt heq
  rw [heq, Std.ReflOrd.compare_self] at hlt
  cases hlt

theorem KeyMap.insertAll_append [Std.TransOrd κ] (m : KeyMap κ α)
    (first later : List (κ × α)) :
    m.insertAll (first ++ later) = (m.insertAll first).insertAll later :=
  List.foldl_append

/-- Entries in ascending order above all others are put in behind them. -/
theorem KeyMap.entries_insertAll_of_ascending [Std.TransOrd κ]
    {m : KeyMap κ α} {entries : List (κ × α)}
    (h : Entries.Ascending (m.entries ++ entries)) :
    (m.insertAll entries).entries = m.entries ++ entries := by
  induction entries generalizing m with
  | nil => simp [insertAll]
  | cons entry rest ih =>
      have habove : ∀ e ∈ m.entries, compare e.1 entry.1 = .lt := by
        intro e he
        exact (List.pairwise_append.1 h).2.2 e he entry List.mem_cons_self
      have hinsert : (m.insert entry.1 entry.2).entries =
          m.entries ++ [entry] :=
        Entries.insert_of_above habove
      have hrest := @ih (m.insert entry.1 entry.2)
      rw [hinsert, List.append_assoc, List.singleton_append] at hrest
      exact hrest h

/-- The map of entries in ascending order has these entries. -/
theorem KeyMap.entries_ofList_of_ascending [Std.TransOrd κ]
    {entries : List (κ × α)} (h : Entries.Ascending entries) :
    (ofList entries).entries = entries :=
  entries_insertAll_of_ascending (m := empty) h

/-- A map is that of its entries. -/
theorem KeyMap.ofList_entries [Std.TransOrd κ] (m : KeyMap κ α) :
    ofList m.entries = m :=
  ext (entries_ofList_of_ascending m.ascending)

end Ascending

namespace KeyMap

theorem contains_eq_isSome (m : KeyMap κ α) (key : κ) :
    m.contains key = (m.get? key).isSome := by
  rw [contains, get?, Option.isSome_map, Bool.eq_iff_iff, List.any_eq_true,
    List.find?_isSome]

variable [Std.TransOrd κ] [Std.LawfulEqOrd κ]

@[simp] theorem get?_insert_self (m : KeyMap κ α) (key : κ) (value : α) :
    (m.insert key value).get? key = some value := by
  simp [get?, insert, Entries.find?_insert_self]

theorem get?_insert_of_ne (m : KeyMap κ α) {key other : κ}
    (hne : other ≠ key) (value : α) :
    (m.insert key value).get? other = m.get? other := by
  simp [get?, insert, Entries.find?_insert_of_ne hne]

/-- A value found after entries were put in comes from one of them, or was
there before. -/
theorem mem_or_get?_of_get?_insertAll {m : KeyMap κ α}
    {entries : List (κ × α)} {key : κ} {value : α}
    (h : (m.insertAll entries).get? key = some value) :
    (key, value) ∈ entries ∨ m.get? key = some value := by
  induction entries generalizing m with
  | nil => exact Or.inr h
  | cons entry rest ih =>
      rcases ih (m := m.insert entry.1 entry.2) h with hrest | hfirst
      · exact Or.inl (List.mem_cons_of_mem _ hrest)
      · by_cases hkey : key = entry.1
        · subst hkey
          rw [get?_insert_self] at hfirst
          cases hfirst
          exact Or.inl List.mem_cons_self
        · rw [get?_insert_of_ne m hkey] at hfirst
          exact Or.inr hfirst

theorem get?_insertAll_of_not_mem {m : KeyMap κ α}
    {entries : List (κ × α)} {key : κ}
    (hkey : key ∉ entries.map (·.1)) :
    (m.insertAll entries).get? key = m.get? key := by
  induction entries generalizing m with
  | nil => rfl
  | cons entry rest ih =>
      have hne : key ≠ entry.1 := by
        rintro rfl
        exact hkey List.mem_cons_self
      have hrest := ih (m := m.insert entry.1 entry.2)
        fun hmem => hkey (List.mem_cons_of_mem _ hmem)
      exact hrest.trans (get?_insert_of_ne m hne entry.2)

/-- Of entries with different keys, each one is found. -/
theorem get?_insertAll_of_mem {m : KeyMap κ α} {entries : List (κ × α)}
    {key : κ} {value : α} (hdistinct : (entries.map (·.1)).Nodup)
    (hmem : (key, value) ∈ entries) :
    (m.insertAll entries).get? key = some value := by
  induction entries generalizing m with
  | nil => cases hmem
  | cons entry rest ih =>
      obtain ⟨hfirst, hrest⟩ := List.nodup_cons.1 hdistinct
      rcases List.mem_cons.1 hmem with rfl | hmem
      · exact (get?_insertAll_of_not_mem hfirst).trans
          (get?_insert_self m key value)
      · exact ih hrest hmem

/-- A map that is made of entries with different keys has these and no
others. -/
theorem get?_insertAll_empty_iff {entries : List (κ × α)} {key : κ}
    {value : α} (hdistinct : (entries.map (·.1)).Nodup) :
    (empty.insertAll entries).get? key = some value ↔
      (key, value) ∈ entries := by
  refine ⟨fun h => ?_, get?_insertAll_of_mem hdistinct⟩
  rcases mem_or_get?_of_get?_insertAll h with hmem | hempty
  · exact hmem
  · cases hempty

theorem mem_entries_iff {m : KeyMap κ α} {key : κ} {value : α} :
    (key, value) ∈ m.entries ↔ m.get? key = some value := by
  have hnodup := m.ascending.nodup
  rw [← get?_insertAll_empty_iff hnodup]
  rw [← ofList, ofList_entries]

/-- Tables in which the same is found under each key are the same. -/
theorem ext_get? {m n : KeyMap κ α} (h : ∀ key, m.get? key = n.get? key) :
    m = n := by
  have hnodup : ∀ l : KeyMap κ α, l.entries.Nodup :=
    fun l => l.ascending.nodup.of_map
  apply ext
  apply m.ascending.eq_of_perm n.ascending
  rw [List.perm_ext_iff_of_nodup (hnodup m) (hnodup n)]
  rintro ⟨key, value⟩
  rw [mem_entries_iff, mem_entries_iff, h]

/-- The entries that a map is made of are its entries, if their keys differ. -/
theorem entries_ofList_perm {entries : List (κ × α)}
    (hdistinct : (entries.map (·.1)).Nodup) :
    (ofList entries).entries.Perm entries := by
  rw [List.perm_ext_iff_of_nodup (ofList entries).ascending.nodup.of_map
    hdistinct.of_map]
  rintro ⟨key, value⟩
  rw [mem_entries_iff, ofList, get?_insertAll_empty_iff hdistinct]

/-- A map is made of its entries in any order. -/
theorem ofList_of_perm {m : KeyMap κ α} {entries : List (κ × α)}
    (h : entries.Perm m.entries) : ofList entries = m := by
  have hdistinct : (entries.map (·.1)).Nodup :=
    (h.map _).nodup_iff.2 m.ascending.nodup
  apply ext
  apply (ofList entries).ascending.eq_of_perm m.ascending
  exact (entries_ofList_perm hdistinct).trans h

/-- The entries of a map are among those that it is made of. -/
theorem mem_of_mem_ofList {entries : List (κ × α)} {e : κ × α}
    (h : e ∈ (ofList entries).entries) : e ∈ entries := by
  obtain ⟨key, value⟩ := e
  rcases mem_or_get?_of_get?_insertAll (mem_entries_iff.1 h) with hmem | hempty
  · exact hmem
  · cases hempty

end KeyMap

namespace KeySet

variable {κ : Type} [Ord κ] [Std.TransOrd κ]

theorem ofList_eq (keys : List κ) :
    ofList keys = KeyMap.ofList (keys.map fun key => (key, ())) := by
  rw [ofList, KeyMap.ofList, KeyMap.insertAll, List.foldl_map]
  rfl

/-- A set is that of its keys. -/
theorem ofList_keys (s : KeySet κ) : ofList s.keys = s := by
  have hentries : (s.keys.map fun key => (key, ())) = s.entries := by
    rw [KeyMap.keys, List.map_map]
    exact List.map_id _
  rw [ofList_eq, hentries, KeyMap.ofList_entries]

end KeySet

end CallGate
