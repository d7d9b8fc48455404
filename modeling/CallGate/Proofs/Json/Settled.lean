import CallGate.Document.Decoder
import CallGate.Proofs.Call.Fingerprint
import CallGate.Proofs.Json.Parts
import CallGate.Proofs.Json.Reading
import CallGate.Proofs.KeyMap

/-!
# Values after they were written and read

The canonical form of a value is read back as the settled value: the same
value, but for the real numbers that were written as integers.  A value with
too many arrays and objects inside each other is not read back at all.
-/

namespace CallGate

namespace Json

mutual

/-- How many arrays and objects are inside each other. -/
def depth : Json → ℕ
  | .null | .bool _ | .num _ | .str _ => 0
  | .arr items => itemsDepth items + 1
  | .obj members => membersDepth members + 1
termination_by structural v => v

/-- The greatest depth of an item. -/
def itemsDepth : List Json → ℕ
  | [] => 0
  | v :: rest => max (depth v) (itemsDepth rest)
termination_by structural v => v

/-- The greatest depth of a member. -/
def membersDepth : List (String × Json) → ℕ
  | [] => 0
  | (_, v) :: rest => max (depth v) (membersDepth rest)
termination_by structural v => v

end

mutual

/-- The value is one that documents can hold: its numbers are within range,
and its members are in ascending order of their names. -/
def IsValid : Json → Prop
  | .null | .bool _ | .str _ => True
  | .num n => n.IsValid
  | .arr items => ItemsValid items
  | .obj members => Entries.Ascending members ∧ MembersValid members
termination_by structural v => v

/-- All items are valid. -/
def ItemsValid : List Json → Prop
  | [] => True
  | v :: rest => IsValid v ∧ ItemsValid rest
termination_by structural v => v

/-- The values of all members are valid. -/
def MembersValid : List (String × Json) → Prop
  | [] => True
  | (_, v) :: rest => IsValid v ∧ MembersValid rest
termination_by structural v => v

end

mutual

/-- The value with its numbers settled. -/
def settled : Json → Json
  | .null => .null
  | .bool b => .bool b
  | .num n => .num n.settled
  | .str s => .str s
  | .arr items => .arr (settledItems items)
  | .obj members => .obj (settledMembers members)
termination_by structural v => v

/-- The items with their numbers settled. -/
def settledItems : List Json → List Json
  | [] => []
  | v :: rest => settled v :: settledItems rest
termination_by structural v => v

/-- The members with the numbers of their values settled. -/
def settledMembers : List (String × Json) → List (String × Json)
  | [] => []
  | (name, v) :: rest => (name, settled v) :: settledMembers rest
termination_by structural v => v

end

section Parts

variable {bound : ℕ} {items : List Json} {members : List (String × Json)}

theorem itemsDepth_le_iff :
    itemsDepth items ≤ bound ↔ ∀ v ∈ items, v.depth ≤ bound := by
  induction items with
  | nil => simp [itemsDepth]
  | cons v rest ih =>
      rw [itemsDepth, max_le_iff, ih, List.forall_mem_cons]

theorem membersDepth_le_iff :
    membersDepth members ≤ bound ↔ ∀ m ∈ members, m.2.depth ≤ bound := by
  induction members with
  | nil => simp [membersDepth]
  | cons m rest ih =>
      rw [membersDepth, max_le_iff, ih, List.forall_mem_cons]

theorem itemsValid_iff : ItemsValid items ↔ ∀ v ∈ items, v.IsValid := by
  induction items with
  | nil => simp [ItemsValid]
  | cons v rest ih => rw [ItemsValid, ih, List.forall_mem_cons]

theorem membersValid_iff :
    MembersValid members ↔ ∀ m ∈ members, m.2.IsValid := by
  induction members with
  | nil => simp [MembersValid]
  | cons m rest ih => rw [MembersValid, ih, List.forall_mem_cons]

theorem settledItems_eq_map : settledItems items = items.map settled := by
  induction items with
  | nil => rfl
  | cons v rest ih => rw [settledItems, ih, List.map_cons]

theorem settledMembers_eq_map :
    settledMembers members = members.map fun m => (m.1, m.2.settled) := by
  induction members with
  | nil => rfl
  | cons m rest ih => rw [settledMembers, ih, List.map_cons]

theorem canonicalItems_eq_map :
    canonicalItems items = items.map canonical := by
  induction items with
  | nil => rfl
  | cons v rest ih => rw [canonicalItems, ih, List.map_cons]

/-- Members are written in some order. -/
theorem exists_perm_canonical_obj (members : List (String × Json)) :
    ∃ sorted : List (String × Json), sorted.Perm members ∧
      (Json.obj members).canonical = braced (canonicalMembers sorted) := by
  refine ⟨members.mergeSort fun a b =>
    nameAtMost (quoted a.1, a.2.canonical) (quoted b.1, b.2.canonical),
    List.mergeSort_perm _ _, ?_⟩
  rw [canonical, canonicalMembers_eq_map, canonicalMembers_eq_map,
    List.map_mergeSort]
  intro a _ b _
  rfl

end Parts

/-! ## The value of the tree that is read -/

theorem ofNumber_settled {n : Number} (hn : n.IsValid) :
    ofNumber n.settled = .num n.settled := by
  cases n with
  | int i => rfl
  | real x =>
      have hfinite : x.isFinite = true := hn
      rw [Number.settled]
      split
      · split
        · rfl
        · rw [ofNumber, if_pos hfinite]
      · rw [ofNumber, if_pos hfinite]

section Values

variable {items : List Json} {members sorted : List (String × Json)}

theorem itemValues?_eq_some {read : Json → Tree} {value : Json → Json}
    (h : ∀ v ∈ items, (read v).value? = some (value v)) :
    Tree.itemValues? (items.map read) = some (items.map value) := by
  induction items with
  | nil => rfl
  | cons v rest ih =>
      have hv := h v List.mem_cons_self
      have hrest := ih fun w hw => h w (List.mem_cons_of_mem v hw)
      rw [List.map_cons, Tree.itemValues?, hv, hrest, List.map_cons]

theorem itemValues?_eq_none {ts : List Tree} {t : Tree} (ht : t ∈ ts)
    (hnone : t.value? = none) : Tree.itemValues? ts = none := by
  induction ts with
  | nil => cases ht
  | cons u rest ih =>
      rcases List.mem_cons.1 ht with rfl | hrest
      · rw [Tree.itemValues?, hnone]
      · rw [Tree.itemValues?, ih hrest]
        cases u.value? <;> rfl

theorem memberValues?_eq_none {ts : List (String × Tree)} {t : String × Tree}
    (ht : t ∈ ts) (hnone : t.2.value? = none) :
    Tree.memberValues? (spelledMembers ts) = none := by
  rw [spelledMembers]
  induction ts with
  | nil => cases ht
  | cons u rest ih =>
      rw [List.map_cons, Tree.memberValues?.eq_def]
      rcases List.mem_cons.1 ht with rfl | hrest
      · simp only [hnone]
      · simp only [ih hrest]
        cases u.2.value? <;> rfl

/-- Members of different names are put in order, whatever order they are
spelled in. -/
theorem exists_memberValues?_perm {read : String × Json → Tree}
    (h : ∀ m ∈ members, (read m).value? = some m.2.settled)
    (hnodup : (members.map (·.1)).Nodup) :
    ∃ found, Tree.memberValues?
        (spelledMembers (members.map fun m => (m.1, read m))) = some found ∧
      Entries.Ascending found ∧ found.Perm (settledMembers members) := by
  induction members with
  | nil => exact ⟨[], rfl, List.Pairwise.nil, List.Perm.refl _⟩
  | cons m rest ih =>
      rw [List.map_cons, List.nodup_cons] at hnodup
      obtain ⟨hfresh, hrest⟩ := hnodup
      have hvalue := h m List.mem_cons_self
      obtain ⟨found, hfound, hascending, hperm⟩ :=
        ih (fun n hn => h n (List.mem_cons_of_mem m hn)) hrest
      have hnew : ∀ e ∈ found, e.1 ≠ m.1 := by
        intro e he heq
        have hsettled := hperm.subset he
        rw [settledMembers_eq_map, List.mem_map] at hsettled
        obtain ⟨n, hn, rfl⟩ := hsettled
        exact hfresh (List.mem_map.2 ⟨n, hn, heq⟩)
      refine ⟨Entries.insert m.1 m.2.settled found, ?_, ?_, ?_⟩
      · rw [spelledMembers] at hfound ⊢
        rw [List.map_cons, List.map_cons, Tree.memberValues?.eq_def]
        simp only [hvalue, hfound]
        rw [if_neg]
        simpa using fun v hv => hnew (m.1, v) hv rfl
      · exact Entries.ascending_insert hascending
      · have hinsert : (Entries.insert m.1 m.2.settled found).Perm
            ((m.1, m.2.settled) :: found) := by
          apply Entries.insert_perm
          intro e he heq
          exact hnew e he (Std.LawfulEqOrd.eq_of_compare heq).symm
        exact hinsert.trans (hperm.cons _)

theorem ascending_settledMembers (h : Entries.Ascending members) :
    Entries.Ascending (settledMembers members) := by
  rw [settledMembers_eq_map]
  exact h.map fun m => m.2.settled

theorem memberValues?_eq_some {read : String × Json → Tree}
    (h : ∀ m ∈ sorted, (read m).value? = some m.2.settled)
    (hperm : sorted.Perm members) (hascending : Entries.Ascending members) :
    Tree.memberValues? (spelledMembers (sorted.map fun m => (m.1, read m))) =
      some (settledMembers members) := by
  have hnodup : (sorted.map (·.1)).Nodup :=
    (hperm.map _).nodup_iff.2 hascending.nodup
  obtain ⟨found, hfound, hfoundAscending, hfoundPerm⟩ :=
    exists_memberValues?_perm h hnodup
  have hsettled : (settledMembers sorted).Perm (settledMembers members) := by
    rw [settledMembers_eq_map, settledMembers_eq_map]
    exact hperm.map _
  rw [hfound, hfoundAscending.eq_of_perm (ascending_settledMembers hascending)
    (hfoundPerm.trans hsettled)]

end Values

/-! ## Reading canonical forms -/

/-- What the tree of a canonical form stands for, with a number of arrays and
objects open around it. -/
def settledAt? (depth : ℕ) (v : Json) : Option Json :=
  if v.depth + depth ≤ maxDepth then some v.settled else none

/-- The canonical form is read as a tree of the settled value. -/
def ReadsBack (depth : ℕ) (v : Json) (t : Tree) : Prop :=
  ReadsAs depth v.canonical t ∧
    (depth ≤ maxDepth → t.value? = v.settledAt? depth)

variable {depth : ℕ}

theorem settledAt?_of_le {v : Json} (h : v.depth + depth ≤ maxDepth) :
    v.settledAt? depth = some v.settled := if_pos h

theorem settledAt?_of_lt {v : Json} (h : maxDepth < v.depth + depth) :
    v.settledAt? depth = none := if_neg (not_le.2 h)

theorem readsBack_of_depth_eq_zero {v : Json} {t : Tree}
    (hread : ReadsAs depth v.canonical t) (hvalue : t.value? = some v.settled)
    (hv : v.depth = 0) : ReadsBack depth v t := by
  refine ⟨hread, fun hdepth => ?_⟩
  rw [hvalue, settledAt?_of_le (by omega)]

theorem readsBack_arr {items : List Json} {read : Json → Tree}
    (h : ∀ v ∈ items, ReadsBack (depth + 1) v (read v)) :
    ReadsBack depth (.arr items) (insideAt depth (.arr (items.map read))) := by
  constructor
  · rw [canonical, canonicalItems_eq_map]
    apply readsAs_bracketed
    rw [List.forall₂_map_left_iff, List.forall₂_map_right_iff,
      List.forall₂_same]
    exact fun v hv => (h v hv).1
  · intro hdepth
    rw [insideAt]
    by_cases hroom : depth < maxDepth
    · rw [if_pos hroom, Tree.value?]
      by_cases hfits : ∀ v ∈ items, v.depth ≤ maxDepth - (depth + 1)
      · have hle := itemsDepth_le_iff.2 hfits
        have hvalues : Tree.itemValues? (items.map read) =
            some (items.map settled) := by
          apply itemValues?_eq_some
          intro v hv
          have hv' := hfits v hv
          rw [(h v hv).2 hroom, settledAt?_of_le (by omega)]
        rw [settledAt?_of_le (by rw [Json.depth]; omega), hvalues, settled,
          settledItems_eq_map, Option.map_some]
      · have hnot : ¬itemsDepth items ≤ maxDepth - (depth + 1) :=
          fun hle => hfits (itemsDepth_le_iff.1 hle)
        push Not at hfits
        obtain ⟨v, hv, hlt⟩ := hfits
        have hnone : (read v).value? = none := by
          rw [(h v hv).2 hroom, settledAt?_of_lt (by omega)]
        rw [settledAt?_of_lt (by rw [Json.depth]; omega),
          itemValues?_eq_none (List.mem_map_of_mem hv) hnone, Option.map_none]
    · rw [if_neg hroom, settledAt?_of_lt (by rw [Json.depth]; omega),
        Tree.value?]

theorem readsBack_obj {members : List (String × Json)}
    {read : String × Json → Tree} (hascending : Entries.Ascending members)
    (h : ∀ m ∈ members, ReadsBack (depth + 1) m.2 (read m)) :
    ∃ t, ReadsBack depth (.obj members) t := by
  obtain ⟨sorted, hperm, hcanonical⟩ := exists_perm_canonical_obj members
  have hread : ∀ m ∈ sorted, ReadsBack (depth + 1) m.2 (read m) :=
    fun m hm => h m (hperm.subset hm)
  refine ⟨insideAt depth
    (.obj (spelledMembers (sorted.map fun m => (m.1, read m)))), ?_, ?_⟩
  · rw [hcanonical, canonicalMembers_eq_map]
    apply readsAs_braced
    rw [List.forall₂_map_left_iff, List.forall₂_map_right_iff,
      List.forall₂_same]
    exact fun m hm => ⟨rfl, (hread m hm).1⟩
  · intro hdepth
    rw [insideAt]
    by_cases hroom : depth < maxDepth
    · rw [if_pos hroom, Tree.value?]
      by_cases hfits : ∀ m ∈ members, m.2.depth ≤ maxDepth - (depth + 1)
      · have hle := membersDepth_le_iff.2 hfits
        have hsettled : ∀ m ∈ sorted, (read m).value? = some m.2.settled := by
          intro m hm
          have hm' := hfits m (hperm.subset hm)
          rw [(hread m hm).2 hroom, settledAt?_of_le (by omega)]
        rw [settledAt?_of_le (by rw [Json.depth]; omega),
          memberValues?_eq_some hsettled hperm hascending, settled,
          Option.map_some]
      · have hnot : ¬membersDepth members ≤ maxDepth - (depth + 1) :=
          fun hle => hfits (membersDepth_le_iff.1 hle)
        push Not at hfits
        obtain ⟨m, hm, hlt⟩ := hfits
        have hmem := List.mem_map_of_mem (f := fun m => (m.1, read m))
          (hperm.symm.subset hm)
        have hnone : (read m).value? = none := by
          rw [(h m hm).2 hroom, settledAt?_of_lt (by omega)]
        rw [settledAt?_of_lt (by rw [Json.depth]; omega),
          memberValues?_eq_none hmem hnone, Option.map_none]
    · rw [if_neg hroom, settledAt?_of_lt (by rw [Json.depth]; omega),
        Tree.value?]

/-- The canonical form of a valid value is read back as the settled value, if
it is not too deep. -/
theorem exists_readsBack {v : Json} (h : v.IsValid) (depth : ℕ) :
    ∃ t, ReadsBack depth v t := by
  induction v using Json.induct generalizing depth with
  | null => exact ⟨.null, readsBack_of_depth_eq_zero readsAs_null rfl rfl⟩
  | bool b =>
      exact ⟨.bool b, readsBack_of_depth_eq_zero (readsAs_bool b) rfl rfl⟩
  | num n =>
      rw [IsValid] at h
      have hvalue : (Tree.num n.settled).value? =
          some (Json.num n).settled := by
        rw [Tree.value?, ofNumber_settled h, settled]
      exact ⟨.num n.settled,
        readsBack_of_depth_eq_zero (readsAs_number h) hvalue rfl⟩
  | str s =>
      exact ⟨.str s, readsBack_of_depth_eq_zero (readsAs_quoted s) rfl rfl⟩
  | arr items ih =>
      rw [IsValid, itemsValid_iff] at h
      have hitems : ∀ v ∈ items, ∃ t, ReadsBack (depth + 1) v t :=
        fun v hv => ih v hv (h v hv) (depth + 1)
      choose! read hread using hitems
      exact ⟨_, readsBack_arr hread⟩
  | obj members ih =>
      rw [IsValid, membersValid_iff] at h
      obtain ⟨hascending, hvalid⟩ := h
      have hmembers : ∀ m ∈ members, ∃ t, ReadsBack (depth + 1) m.2 t :=
        fun m hm => ih m hm (hvalid m hm) (depth + 1)
      choose! read hread using hmembers
      exact readsBack_obj hascending hread

/-- An object whose names are in order is read as the tree of its members. -/
theorem readsAs_obj_of_sorted {members : List (String × Json)}
    {ts : List (String × Tree)}
    (hsorted : ((members.map (·.1)).map quoted).Pairwise fun a b => ¬b < a)
    (h : List.Forall₂ (fun m t => m.1 = t.1 ∧
      ReadsAs (depth + 1) m.2.canonical t.2) members ts) :
    ReadsAs depth (Json.obj members).canonical
      (insideAt depth (.obj (spelledMembers ts))) := by
  rw [canonical_obj_of_sorted hsorted, canonicalMembers_eq_map]
  apply readsAs_braced
  rw [List.forall₂_map_left_iff]
  exact h.imp fun m t ⟨hname, hread⟩ => ⟨congrArg quoted hname, hread⟩

end Json

end CallGate
