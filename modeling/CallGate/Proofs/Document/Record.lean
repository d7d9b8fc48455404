import CallGate.Document.Tagged
import CallGate.Proofs.Computation
import CallGate.Proofs.Json.Reading

/-!
# Reading records from their members

A record whose members have different names, each of them known, is read
exactly when every field that has to be there is read from the member of its
name.  The order of the members plays no role.
-/

namespace CallGate

open Json (spelledMembers)

namespace Reads

variable {α β : Type} {names : List String} {members : List (String × Tree)}
  {w : Written} {m : Medium} {name : String} {t : Tree}

/-- The members have different names. -/
def Distinct (members : List (String × Tree)) : Prop :=
  (members.map (·.1)).Nodup

theorem repeated?_eq_none {seen : List String}
    (hfresh : ∀ e ∈ members, e.1 ∉ seen) (hdistinct : Distinct members) :
    repeated? names seen (spelledMembers members) = none := by
  rw [spelledMembers]
  induction members generalizing seen with
  | nil => rfl
  | cons e rest ih =>
      rw [Distinct, List.map_cons, List.nodup_cons] at hdistinct
      obtain ⟨hnew, hrest⟩ := hdistinct
      have hseen : e.1 ∉ seen := hfresh e List.mem_cons_self
      rw [List.map_cons, repeated?, if_neg (by simp [hseen]), ih ?_ hrest]
      · rfl
      · intro f hf hmem
        rcases List.mem_cons.1 hmem with heq | hmem
        · exact hnew (List.mem_map.2 ⟨f, hf, heq⟩)
        · exact hfresh f (List.mem_cons_of_mem e hf) hmem

theorem refused?_eq_none {strict : Bool}
    (hknown : ∀ e ∈ members, e.1 ∈ names) :
    refused? names strict m (spelledMembers members) = none := by
  rw [spelledMembers]
  induction members with
  | nil => rfl
  | cons e rest ih =>
      have hname : e.1 ∈ names := hknown e List.mem_cons_self
      rw [List.map_cons, refused?, if_pos (by simp [hname]),
        ih fun f hf => hknown f (List.mem_cons_of_mem e hf)]
      rfl

/-- A record of known members is what its fields are. -/
theorem record_eq_ok_iff {fields : Reads α} {strict : Bool} {a : α}
    (hdistinct : Distinct members) (hknown : ∀ e ∈ members, e.1 ∈ names) :
    record names fields strict m (.obj (spelledMembers members)) = .ok a ↔
      fields ⟨m, spelledMembers members, false⟩ = .ok a := by
  rw [record, repeated?_eq_none (by simp) hdistinct, refused?_eq_none hknown]
  dsimp only [withFaults, List.foldl_cons, List.foldl_nil]
  cases fields ⟨m, spelledMembers members, false⟩ <;> simp [Except.mapError]

theorem find?_of_mem (hdistinct : Distinct members)
    (hmem : (name, t) ∈ members) :
    ∃ i, find? name (spelledMembers members) = some (i, t) := by
  rw [spelledMembers]
  induction members with
  | nil => cases hmem
  | cons e rest ih =>
      rw [Distinct, List.map_cons, List.nodup_cons] at hdistinct
      obtain ⟨hnew, hrest⟩ := hdistinct
      rw [List.map_cons, find?]
      rcases List.mem_cons.1 hmem with rfl | hmem
      · exact ⟨0, if_pos rfl⟩
      · have hne : some e.1 ≠ some name := by
          intro heq
          cases heq
          exact hnew (List.mem_map.2 ⟨_, hmem, rfl⟩)
        obtain ⟨i, hi⟩ := ih hrest hmem
        exact ⟨i + 1, by rw [if_neg hne, hi]; rfl⟩

/-- A field is what is read from its member. -/
theorem required_eq_ok_iff (name : String) (read : Decoder α)
    (hdistinct : Distinct members) (hmem : (name, t) ∈ members) (a : α) :
    required name read ⟨m, spelledMembers members, false⟩ = .ok a ↔
      read m t = .ok a := by
  obtain ⟨i, hi⟩ := find?_of_mem hdistinct hmem
  rw [required, field]
  simp only [hi]
  cases read m t <;> simp [Except.mapError]

/-- A field whose member can be read has one value. -/
theorem required_of_read (name : String) {read : Decoder α} {a : α}
    (hdistinct : Distinct members) (hmem : (name, t) ∈ members)
    (hread : read m t = .ok a) (b : α) :
    required name read ⟨m, spelledMembers members, false⟩ = .ok b ↔
      a = b := by
  rw [required_eq_ok_iff name read hdistinct hmem, hread, Except.ok.injEq]

theorem eq_ok_of_withFaults {positions : List (Option ℕ)}
    {result : Except Fault α} {a : α}
    (h : withFaults positions result = .ok a) : result = .ok a := by
  induction positions generalizing result with
  | nil => exact h
  | cons position rest ih =>
      rw [withFaults, List.foldl_cons] at h
      have hfirst := ih h
      cases position with
      | none => exact hfirst
      | some i => cases result <;> cases hfirst

/-- A record that is read from members is what its fields are. -/
theorem fields_of_record {names : List String} {fields : Reads α}
    {strict : Bool} {members : List (Option String × Tree)} {a : α}
    (h : record names fields strict m (.obj members) = .ok a) :
    fields ⟨m, members, false⟩ = .ok a := by
  rw [record] at h
  exact eq_ok_of_withFaults (eq_ok_of_mapError h)

theorem seq_eq_ok_iff {f : Reads (α → β)} {x : Reads α} {b : β} :
    (f <*> x) w = .ok b ↔ ∃ g a, f w = .ok g ∧ x w = .ok a ∧ g a = b := by
  change both f x w = .ok b ↔ _
  rw [both]
  cases f w <;> cases x w <;> simp

theorem map_eq_ok_iff {f : α → β} {x : Reads α} {b : β} :
    (f <$> x) w = .ok b ↔ ∃ a, x w = .ok a ∧ f a = b := by
  have hpure : (Pure.pure f : Reads (α → β)) w = .ok f := rfl
  change (Pure.pure f <*> x) w = .ok b ↔ _
  rw [seq_eq_ok_iff, hpure]
  simp

end Reads

namespace Decoder

variable {α β : Type} {m : Medium} {t : Tree}

theorem map_eq_ok_iff {f : α → β} {read : Decoder α} {b : β} :
    Decoder.map f read m t = .ok b ↔ ∃ a, read m t = .ok a ∧ f a = b := by
  rw [Decoder.map]
  cases read m t <;> simp [Except.map]

theorem value_eq_ok_iff {v : Json} :
    Decoder.value m t = .ok v ↔ t.value? = some v := by
  rw [Decoder.value]
  cases t.value? <;> simp

theorem text_str (s : String) : Decoder.text m (.str s) = .ok s := rfl

theorem natural_eq_ok {bound n : ℕ} (h : n < bound) (m : Medium) :
    Decoder.natural bound m (.num (.int n)) = .ok n := by
  have hbound : (0 : ℤ) ≤ n ∧ (n : ℤ) < bound := by omega
  rw [Decoder.natural, if_pos hbound, Int.toNat_natCast]

/-- The kind stands before the content and tells how to read it. -/
theorem kindAndContent_of_lookup {tag content s : String}
    {variants : List (String × Beside α)} {read : Decoder α}
    (hne : tag ≠ content)
    (hlookup : variants.lookup s = some (.something read)) :
    kindAndContent tag content variants m
        (.obj [(some tag, .str s), (some content, t)]) = read m t := by
  have hpasses : passesOthers m [tag, content]
      [(some tag, .str s), (some content, t)] = true := by
    simp [passesOthers, Reads.refused?]
  have hbefore : standsBefore content tag
      [(some tag, .str s), (some content, t)] = false := by
    simp [standsBefore]
  have hne' : content ≠ tag := hne.symm
  rw [kindAndContent, if_pos hpasses]
  simp only [List.filter_cons, hne, hne', Option.some.injEq, decide_true,
    decide_false, if_true, Bool.false_eq_true, if_false, List.filter_nil,
    hbefore, label, labelled, hlookup]
  rfl

end Decoder

end CallGate
