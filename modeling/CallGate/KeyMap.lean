/-!
# Sorted association lists

A finite map as the list of its entries in strictly ascending order of their
keys.  The order is part of the type, so a map has one representation: two maps
are equal exactly when their entry lists are, and listing a map needs no
sorting.
-/

namespace CallGate

namespace Entries

variable {κ α : Type} [Ord κ]

/-- Puts a value under a key into an ascending list, in place of an entry with
that key. -/
def insert (key : κ) (value : α) : List (κ × α) → List (κ × α)
  | [] => [(key, value)]
  | entry :: rest =>
    match compare key entry.1 with
    | .lt => (key, value) :: entry :: rest
    | .eq => (key, value) :: rest
    | .gt => entry :: insert key value rest

/-- Strictly ascending keys. -/
def Ascending (entries : List (κ × α)) : Prop :=
  entries.Pairwise fun a b => compare a.1 b.1 = .lt

theorem mem_insert {key : κ} {value : α} {entries : List (κ × α)} {e : κ × α}
    (h : e ∈ insert key value entries) : e = (key, value) ∨ e ∈ entries := by
  induction entries with
  | nil => simpa [insert] using h
  | cons entry rest ih =>
    rw [insert] at h
    split at h
    · simpa using h
    · rcases List.mem_cons.1 h with h | h
      · exact .inl h
      · exact .inr (List.mem_cons_of_mem _ h)
    · rcases List.mem_cons.1 h with h | h
      · exact .inr (h ▸ List.mem_cons_self)
      · exact (ih h).imp_right (List.mem_cons_of_mem _)

theorem ascending_insert [Std.TransOrd κ] {key : κ} {value : α}
    {entries : List (κ × α)} (h : Ascending entries) :
    Ascending (insert key value entries) := by
  induction entries with
  | nil => simp [insert, Ascending]
  | cons entry rest ih =>
    have ⟨first, tail⟩ := List.pairwise_cons.1 h
    rw [insert]
    split
    · rename_i below
      refine List.pairwise_cons.2 ⟨fun e he => ?_, h⟩
      rcases List.mem_cons.1 he with rfl | he
      · exact below
      · exact Std.TransCmp.lt_trans below (first e he)
    · rename_i same
      exact List.pairwise_cons.2
        ⟨fun e he => Std.TransCmp.lt_of_eq_of_lt same (first e he), tail⟩
    · rename_i above
      refine List.pairwise_cons.2 ⟨fun e he => ?_, ih tail⟩
      rcases mem_insert he with rfl | he
      · exact Std.OrientedCmp.lt_of_gt above
      · exact first e he

end Entries

/-- A finite map with its entries in ascending order of their keys. -/
structure KeyMap (κ α : Type) [Ord κ] where
  entries : List (κ × α)
  ascending : Entries.Ascending entries

namespace KeyMap

variable {κ α : Type} [Ord κ]

@[ext]
theorem ext {m n : KeyMap κ α} (h : m.entries = n.entries) : m = n := by
  cases m; cases n; cases h; rfl

instance [DecidableEq κ] [DecidableEq α] :
    DecidableEq (KeyMap κ α) := fun m n =>
  decidable_of_iff (m.entries = n.entries) ⟨ext, congrArg entries⟩

/-- The map without entries. -/
def empty : KeyMap κ α := ⟨[], List.Pairwise.nil⟩

instance : Inhabited (KeyMap κ α) := ⟨empty⟩

/-- The value under a key. -/
def get? [DecidableEq κ] (m : KeyMap κ α) (key : κ) : Option α :=
  (m.entries.find? fun e => e.1 = key).map (·.2)

/-- Whether a key has a value. -/
def contains [DecidableEq κ] (m : KeyMap κ α) (key : κ) : Bool :=
  m.entries.any fun e => e.1 = key

/-- Puts a value under a key, in place of the one that was there. -/
def insert [Std.TransOrd κ] (m : KeyMap κ α) (key : κ) (value : α) :
    KeyMap κ α :=
  ⟨Entries.insert key value m.entries, Entries.ascending_insert m.ascending⟩

/-- Puts entries in one after the other; of equal keys the last one stays. -/
def insertAll [Std.TransOrd κ] (m : KeyMap κ α) (entries : List (κ × α)) :
    KeyMap κ α :=
  entries.foldl (fun m e => m.insert e.1 e.2) m

/-- The map of some entries; of equal keys the last one stays. -/
def ofList [Std.TransOrd κ] (entries : List (κ × α)) : KeyMap κ α :=
  empty.insertAll entries

/-- The keys in ascending order. -/
def keys (m : KeyMap κ α) : List κ := m.entries.map (·.1)

/-- The values in ascending order of their keys. -/
def values (m : KeyMap κ α) : List α := m.entries.map (·.2)

/-- The number of entries. -/
def size (m : KeyMap κ α) : Nat := m.entries.length

/-- The first entries in ascending order of their keys. -/
def take (m : KeyMap κ α) (count : Nat) : KeyMap κ α :=
  ⟨m.entries.take count,
    m.ascending.sublist (List.take_sublist count m.entries)⟩

end KeyMap

/-- A finite set of keys. -/
abbrev KeySet (κ : Type) [Ord κ] := KeyMap κ Unit

namespace KeySet

variable {κ : Type} [Ord κ] [Std.TransOrd κ]

/-- Puts a key in. -/
def add (s : KeySet κ) (key : κ) : KeySet κ := KeyMap.insert s key ()

/-- The set of some keys. -/
def ofList (keys : List κ) : KeySet κ := keys.foldl add KeyMap.empty

end KeySet

end CallGate
