import CallGate.Document.Tree
import CallGate.Proofs.Json.Parts
import CallGate.Proofs.KeyMap

/-!
# Values as documents

A value is a document too, with all of it legible.  The value that a document
stands for stands for itself: its numbers are finite and its members are in
order already.
-/

namespace CallGate

namespace Tree

theorem ofItems_eq_map (items : List Json) :
    ofItems items = items.map ofJson := by
  induction items with
  | nil => rfl
  | cons v rest ih => rw [ofItems, ih, List.map_cons]

theorem ofMembers_eq_map (members : List (String × Json)) :
    ofMembers members = members.map fun e => (some e.1, ofJson e.2) := by
  induction members with
  | nil => rfl
  | cons e rest ih => rw [ofMembers, ih, List.map_cons]

theorem memberValues?_cons (name : String) (t : Tree)
    (rest : List (Option String × Tree)) :
    memberValues? ((some name, t) :: rest) =
      t.value?.bind fun v => (memberValues? rest).map fun later =>
        if later.any fun e => e.1 = name then later
        else Entries.insert name v later := by
  rw [memberValues?.eq_def]
  dsimp only
  cases t.value? with
  | none => rfl
  | some v => cases memberValues? rest <;> rfl

/-- Members in ascending order are the members of the value of their tree. -/
theorem memberValues?_ofMembers {members : List (String × Json)}
    (hascending : Entries.Ascending members)
    (h : ∀ e ∈ members, (ofJson e.2).value? = some e.2) :
    memberValues? (ofMembers members) = some members := by
  induction members with
  | nil => rfl
  | cons e rest ih =>
      obtain ⟨name, v⟩ := e
      obtain ⟨hbelow, hrest⟩ := List.pairwise_cons.1 hascending
      have hv : (ofJson v).value? = some v := h _ List.mem_cons_self
      have hlater := ih hrest fun e he => h e (List.mem_cons_of_mem _ he)
      have hnew : (rest.any fun e => e.1 = name) = false := by
        rw [List.any_eq_false]
        intro e he heq
        have hlt := hbelow e he
        rw [of_decide_eq_true heq, Std.ReflOrd.compare_self] at hlt
        cases hlt
      rw [ofMembers, memberValues?_cons, hv, hlater, Option.bind_some,
        Option.map_some, hnew, if_neg Bool.false_ne_true,
        Entries.insert_of_below hbelow]

mutual

/-- The value of a tree is the value of its own tree. -/
theorem value?_ofJson_of_value? {v : Json} (t : Tree) (h : t.value? = some v) :
    (ofJson v).value? = some v :=
  match t with
  | .null => by
      cases h
      rfl
  | .bool b => by
      cases h
      rfl
  | .num n => by
      cases h
      cases n with
      | int i => rfl
      | real x =>
          rw [Json.ofNumber]
          split
          · rename_i hfinite
            rw [ofJson, value?, Json.ofNumber, if_pos hfinite]
          · rfl
  | .str s => by
      cases h
      rfl
  | .illegible _ => by cases h
  | .arr items => by
      obtain ⟨vs, hvs, rfl⟩ := Option.map_eq_some_iff.1 h
      rw [ofJson, value?, itemValues?_ofItems_of_itemValues? items hvs]
      rfl
  | .obj members => by
      obtain ⟨vs, hvs, rfl⟩ := Option.map_eq_some_iff.1 h
      obtain ⟨hascending, hvalues⟩ := values_of_memberValues? members hvs
      rw [ofJson, value?, memberValues?_ofMembers hascending hvalues]
      rfl
termination_by structural t

theorem itemValues?_ofItems_of_itemValues? {vs : List Json} (ts : List Tree)
    (h : itemValues? ts = some vs) : itemValues? (ofItems vs) = some vs :=
  match ts with
  | [] => by
      cases h
      rfl
  | t :: rest => by
      rw [itemValues?] at h
      split at h
      · rename_i v vs' hv hvs
        cases h
        rw [ofItems, itemValues?, value?_ofJson_of_value? t hv,
          itemValues?_ofItems_of_itemValues? rest hvs]
      · cases h
termination_by structural ts

/-- The members of a value are in ascending order, and their values are those
of their trees. -/
theorem values_of_memberValues? {vs : List (String × Json)}
    (members : List (Option String × Tree))
    (h : memberValues? members = some vs) :
    Entries.Ascending vs ∧ ∀ e ∈ vs, (ofJson e.2).value? = some e.2 :=
  match members with
  | [] => by
      cases h
      exact ⟨List.Pairwise.nil, nofun⟩
  | (none, t) :: rest => by cases h
  | (some name, t) :: rest => by
      rw [memberValues?_cons] at h
      obtain ⟨v, hv, hrest⟩ := Option.bind_eq_some_iff.1 h
      obtain ⟨later, hlater, rfl⟩ := Option.map_eq_some_iff.1 hrest
      obtain ⟨hascending, hvalues⟩ := values_of_memberValues? rest hlater
      split
      · exact ⟨hascending, hvalues⟩
      · refine ⟨Entries.ascending_insert hascending, ?_⟩
        intro e he
        rcases Entries.mem_insert he with rfl | hmem
        · exact value?_ofJson_of_value? t hv
        · exact hvalues e hmem
termination_by structural members

end

/-- All of the tree of a value is legible. -/
theorem isLegible_ofJson (v : Json) : (ofJson v).isLegible = true := by
  rw [isLegible]
  induction v using Json.induct with
  | null => rfl
  | bool b => rfl
  | num n => rfl
  | str s => rfl
  | arr items ih =>
      rw [ofJson, value?, Option.isSome_map]
      induction items with
      | nil => rfl
      | cons v rest ihrest =>
          obtain ⟨hv, hrest⟩ := List.forall_mem_cons.1 ih
          obtain ⟨w, hw⟩ := Option.isSome_iff_exists.1 hv
          obtain ⟨ws, hws⟩ := Option.isSome_iff_exists.1 (ihrest hrest)
          rw [ofItems, itemValues?, hw, hws]
          rfl
  | obj members ih =>
      rw [ofJson, value?, Option.isSome_map]
      induction members with
      | nil => rfl
      | cons e rest ihrest =>
          obtain ⟨name, v⟩ := e
          obtain ⟨hv, hrest⟩ := List.forall_mem_cons.1 ih
          obtain ⟨w, hw⟩ := Option.isSome_iff_exists.1 hv
          obtain ⟨ws, hws⟩ := Option.isSome_iff_exists.1 (ihrest hrest)
          rw [ofMembers, memberValues?_cons, hw, hws]
          rfl

end Tree

end CallGate
