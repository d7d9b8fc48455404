import CallGate.Proofs.Json.Settled

/-!
# Values with one canonical form

The canonical form is unambiguous: what a text starts with determines the
value that was written there, and where it ends, up to numbers that are
written with the same characters.  Names of members are part of the form, so
the order in which they are written does not matter.
-/

namespace CallGate

theorem Entries.ascending_iff_names {κ α : Type} [Ord κ]
    {entries : List (κ × α)} :
    Ascending entries ↔
      (entries.map (·.1)).Pairwise fun a b => compare a b = .lt := by
  rw [Ascending, List.pairwise_map]

namespace Json

/-- Values of the same shape: of the same kind, with the same strings and
names, and with alike values in the same places.  Numbers are alike when they
are written with the same characters. -/
inductive Alike : Json → Json → Prop where
  | null : Alike .null .null
  | bool (b : Bool) : Alike (.bool b) (.bool b)
  | num {m n : Number} (h : m.written .canonical = n.written .canonical) :
      Alike (.num m) (.num n)
  | str (s : String) : Alike (.str s) (.str s)
  | arr {items others : List Json} (length : items.length = others.length)
      (alike : ∀ p ∈ items.zip others, Alike p.1 p.2) :
      Alike (.arr items) (.arr others)
  | obj {members others : List (String × Json)}
      (names : members.map (·.1) = others.map (·.1))
      (alike : ∀ p ∈ members.zip others, Alike p.1.2 p.2.2) :
      Alike (.obj members) (.obj others)

/-- Members of the same name with alike values. -/
def MemberAlike (m n : String × Json) : Prop := m.1 = n.1 ∧ Alike m.2 n.2

variable {items others : List Json} {members members' : List (String × Json)}
  {v w : Json} {rest rest' : List Char}

theorem Alike.of_items (h : List.Forall₂ Alike items others) :
    Alike (.arr items) (.arr others) := by
  obtain ⟨hlength, halike⟩ := List.forall₂_iff_zip.1 h
  exact .arr hlength fun p hp => halike hp

/-- Lists of members have the same names when they do place by place. -/
theorem map_fst_eq_iff :
    members.map (·.1) = members'.map (·.1) ↔
      List.Forall₂ (fun m n => m.1 = n.1) members members' := by
  rw [← List.forall₂_eq_eq_eq, List.forall₂_map_left_iff,
    List.forall₂_map_right_iff]

theorem alike_obj_iff :
    Alike (.obj members) (.obj members') ↔
      List.Forall₂ MemberAlike members members' := by
  constructor
  · intro h
    cases h with
    | obj hnames halike =>
        obtain ⟨hlength, hname⟩ :=
          List.forall₂_iff_zip.1 (map_fst_eq_iff.1 hnames)
        exact List.forall₂_iff_zip.2
          ⟨hlength, fun hp => ⟨hname hp, halike _ hp⟩⟩
  · intro h
    obtain ⟨_, halike⟩ := List.forall₂_iff_zip.1 h
    exact .obj (map_fst_eq_iff.2 (h.imp fun m n hmn => hmn.1))
      fun p hp => (halike hp).2

theorem alike_str_iff {s t : String} : Alike (.str s) (.str t) ↔ s = t := by
  constructor
  · rintro ⟨⟩
    rfl
  · rintro rfl
    exact .str s

/-- Alike values are written the same. -/
theorem Alike.canonical_eq (h : Alike v w) : v.canonical = w.canonical := by
  induction h with
  | null => rfl
  | bool b => rfl
  | num h => exact h
  | str s => rfl
  | @arr items others hlength _ ih =>
      have hitems : items.map canonical = others.map canonical := by
        rw [← List.forall₂_eq_eq_eq, List.forall₂_map_left_iff,
          List.forall₂_map_right_iff, List.forall₂_iff_zip]
        exact ⟨hlength, fun hp => ih _ hp⟩
      rw [canonical, canonical, canonicalItems_eq_map, canonicalItems_eq_map,
        hitems]
  | @obj members others hnames _ ih =>
      obtain ⟨hlength, hname⟩ :=
        List.forall₂_iff_zip.1 (map_fst_eq_iff.1 hnames)
      have hmembers : canonicalMembers members = canonicalMembers others := by
        rw [canonicalMembers_eq_map, canonicalMembers_eq_map,
          ← List.forall₂_eq_eq_eq, List.forall₂_map_left_iff,
          List.forall₂_map_right_iff, List.forall₂_iff_zip]
        refine ⟨hlength, fun {m n} hp => ?_⟩
        rw [hname hp, ih _ hp]
      rw [canonical, canonical, hmembers]

/-! ## The first word -/

/-- The word that the canonical form of a value starts with. -/
def firstWord : Json → Word
  | .null => .atom .null
  | .bool b => .atom (.bool b)
  | .num n => .atom (.num n.settled)
  | .str s => .text (some s)
  | .arr _ => .openBracket
  | .obj _ => .openBrace

/-- What is written behind the first word. -/
def behindFirst : Json → List Char
  | .null | .bool _ | .num _ | .str _ => []
  | .arr items => commaSeparated (items.map canonical) ++ [']']
  | .obj members =>
    commaSeparated (((canonicalMembers members).mergeSort nameAtMost).map
      memberText) ++ ['}']

theorem scanWord_canonical (hv : v.IsValid) (hrest : EndsNumber rest) :
    scanWord (v.canonical ++ rest) =
      some (v.firstWord, v.behindFirst ++ rest) := by
  cases v with
  | null => rfl
  | bool b => cases b <;> rfl
  | num n =>
      have hscan := scanNumber_written (n := n) hv hrest
      rw [canonical]
      cases hwritten : n.written .canonical ++ rest with
      | nil =>
          rw [hwritten] at hscan
          cases hscan
      | cons c more =>
          rw [hwritten] at hscan
          rw [scanWord_number (head_of_scanNumber hscan), hscan]
          rfl
  | str s => exact scanWord_quoted s
  | arr items =>
      rw [canonical, bracketed, canonicalItems_eq_map, List.cons_append]
      rfl
  | obj members =>
      rw [canonical, braced, List.cons_append]
      rfl

/-- A value is not written with a closing bracket or brace in front. -/
theorem exists_canonical_eq_cons (hv : v.IsValid) {close : Char}
    (hclose : close = ']' ∨ close = '}') :
    ∃ c more, v.canonical = c :: more ∧ c ≠ close := by
  have hscan : scanWord (v.canonical ++ []) = _ := scanWord_canonical hv nofun
  rw [List.append_nil] at hscan
  cases hcanonical : v.canonical with
  | nil =>
      rw [hcanonical] at hscan
      cases hscan
  | cons c more =>
      refine ⟨c, more, rfl, ?_⟩
      rintro rfl
      rw [hcanonical] at hscan
      rcases hclose with rfl | rfl <;> cases v <;> cases hscan

/-! ## Parts with commas between them -/

section Parts

variable {α : Type} {text : α → List Char} {R : α → α → Prop}
  {parts parts' : List α} {close : Char}

/-- What follows the first of some parts. -/
def behindPart (text : α → List Char) (close : Char) (rest : List Char) :
    List α → List Char
  | [] => close :: rest
  | next :: more =>
    ',' :: (commaSeparated ((next :: more).map text) ++ close :: rest)

theorem commaSeparated_append_eq (text : α → List Char) (close : Char)
    (rest : List Char) (part : α) (more : List α) :
    commaSeparated ((part :: more).map text) ++ close :: rest =
      text part ++ behindPart text close rest more := by
  cases more with
  | nil =>
      rw [List.map_singleton, commaSeparated, List.intercalate_singleton,
        behindPart]
  | cons next more =>
      rw [behindPart, List.map_cons, List.map_cons, commaSeparated_cons,
        List.append_assoc, List.cons_append]

theorem endsNumber_behindPart (hclose : close = ']' ∨ close = '}')
    (parts : List α) (rest : List Char) :
    EndsNumber (behindPart text close rest parts) := by
  cases parts with
  | nil => exact endsNumber_of_head (.inr hclose)
  | cons next more => exact endsNumber_of_head (.inl rfl)

/-- The text of a part determines the part, whatever follows. -/
def Determines (text : α → List Char) (R : α → α → Prop)
    (parts parts' : List α) : Prop :=
  ∀ part ∈ parts, ∀ part' ∈ parts', ∀ rest rest',
    EndsNumber rest → EndsNumber rest' →
    text part ++ rest = text part' ++ rest' → R part part' ∧ rest = rest'

theorem Determines.tail {part part' : α}
    (h : Determines text R (part :: parts) (part' :: parts')) :
    Determines text R parts parts' := fun q hq q' hq' =>
  h q (List.mem_cons_of_mem part hq) q' (List.mem_cons_of_mem part' hq')

theorem forall₂_of_behindPart_eq (hclose : close = ']' ∨ close = '}')
    (hparts : Determines text R parts parts')
    (h : behindPart text close rest parts =
      behindPart text close rest' parts') :
    List.Forall₂ R parts parts' ∧ rest = rest' := by
  have hcomma : close ≠ ',' := by rcases hclose with rfl | rfl <;> decide
  induction parts generalizing parts' with
  | nil =>
      cases parts' with
      | nil => exact ⟨.nil, (List.cons.inj h).2⟩
      | cons part' more' => exact absurd (List.cons.inj h).1 hcomma
  | cons part more ih =>
      cases parts' with
      | nil => exact absurd (List.cons.inj h).1.symm hcomma
      | cons part' more' =>
          have hbehind := (List.cons.inj h).2
          rw [commaSeparated_append_eq, commaSeparated_append_eq] at hbehind
          obtain ⟨hfirst, hmore⟩ := hparts part List.mem_cons_self part'
            List.mem_cons_self _ _ (endsNumber_behindPart hclose more rest)
            (endsNumber_behindPart hclose more' rest') hbehind
          obtain ⟨hmore', hrest⟩ := ih hparts.tail hmore
          exact ⟨.cons hfirst hmore', hrest⟩

/-- Parts up to a closing bracket or brace are determined by their text, when
each of them is and none starts with the closing one. -/
theorem forall₂_of_commaSeparated (hclose : close = ']' ∨ close = '}')
    (hparts : Determines text R parts parts')
    (hstart : ∀ part ∈ parts ++ parts', ∃ c more,
      text part = c :: more ∧ c ≠ close)
    (h : commaSeparated (parts.map text) ++ close :: rest =
      commaSeparated (parts'.map text) ++ close :: rest') :
    List.Forall₂ R parts parts' ∧ rest = rest' := by
  have hopen : ∀ part ∈ parts ++ parts', ∀ tail rest,
      close :: rest ≠ text part ++ tail := by
    intro part hmem tail rest heq
    obtain ⟨c, more, htext, hne⟩ := hstart part hmem
    rw [htext] at heq
    exact hne (List.cons.inj heq).1.symm
  cases parts with
  | nil =>
      cases parts' with
      | nil => exact ⟨.nil, (List.cons.inj h).2⟩
      | cons part' more' =>
          rw [commaSeparated_append_eq] at h
          exact absurd h (hopen part' List.mem_cons_self _ _)
  | cons part more =>
      rw [commaSeparated_append_eq] at h
      cases parts' with
      | nil => exact absurd h.symm (hopen part (by simp) _ _)
      | cons part' more' =>
          rw [commaSeparated_append_eq] at h
          obtain ⟨hfirst, hmore⟩ := hparts part List.mem_cons_self part'
            List.mem_cons_self _ _ (endsNumber_behindPart hclose more rest)
            (endsNumber_behindPart hclose more' rest') h
          obtain ⟨hmore', hrest⟩ :=
            forall₂_of_behindPart_eq hclose hparts.tail hmore
          exact ⟨.cons hfirst hmore', hrest⟩

end Parts

/-! ## Members in another order -/

/-- Members that are alike in the orders in which they are written are alike
in the order of their names. -/
theorem memberAlike_of_perm {sorted sorted' : List (String × Json)}
    (hperm : sorted.Perm members) (hperm' : sorted'.Perm members')
    (hascending : Entries.Ascending members)
    (hascending' : Entries.Ascending members')
    (h : List.Forall₂ MemberAlike sorted sorted') :
    List.Forall₂ MemberAlike members members' := by
  obtain ⟨found, hfound, hfoundPerm⟩ :=
    List.perm_comp_forall₂ hperm.symm h
  have hnames : members.map (·.1) = found.map (·.1) :=
    map_fst_eq_iff.2 (hfound.imp fun m n hmn => hmn.1)
  have hfoundAscending : Entries.Ascending found := by
    rw [Entries.ascending_iff_names, ← hnames]
    exact Entries.ascending_iff_names.1 hascending
  rwa [hfoundAscending.eq_of_perm hascending'
    (hfoundPerm.trans hperm')] at hfound

/-! ## The canonical form is unambiguous -/

/-- The text of a member: its quoted name, a colon and its value. -/
def writtenMember (m : String × Json) : List Char :=
  memberText (quoted m.1, m.2.canonical)

theorem exists_perm_canonical_obj_eq (members : List (String × Json)) :
    ∃ sorted : List (String × Json), sorted.Perm members ∧
      (Json.obj members).canonical =
        '{' :: (commaSeparated (sorted.map writtenMember) ++ ['}']) := by
  obtain ⟨sorted, hperm, hcanonical⟩ := exists_perm_canonical_obj members
  refine ⟨sorted, hperm, ?_⟩
  rw [hcanonical, braced, canonicalMembers_eq_map, List.map_map]
  rfl

/-- Texts that are the same start with the same word. -/
theorem firstWord_eq_of_canonical_append (hv : v.IsValid) (hw : w.IsValid)
    (hrest : EndsNumber rest) (hrest' : EndsNumber rest')
    (h : v.canonical ++ rest = w.canonical ++ rest') :
    v.firstWord = w.firstWord ∧
      v.behindFirst ++ rest = w.behindFirst ++ rest' := by
  have hscan := scanWord_canonical hv hrest
  rw [h, scanWord_canonical hw hrest'] at hscan
  exact Prod.mk.inj (Option.some.inj hscan.symm)

/-- Items that are written the same are alike when each of them is. -/
theorem alike_of_arr_append
    (hitems : Determines canonical Alike items others)
    (hvalid : (Json.arr items).IsValid) (hvalid' : (Json.arr others).IsValid)
    (h : (Json.arr items).canonical ++ rest =
      (Json.arr others).canonical ++ rest') :
    Alike (.arr items) (.arr others) ∧ rest = rest' := by
  rw [IsValid, itemsValid_iff] at hvalid hvalid'
  have hstart : ∀ v ∈ items ++ others, ∃ c more,
      v.canonical = c :: more ∧ c ≠ ']' := by
    intro v hv
    rcases List.mem_append.1 hv with hv | hv
    · exact exists_canonical_eq_cons (hvalid v hv) (.inl rfl)
    · exact exists_canonical_eq_cons (hvalid' v hv) (.inl rfl)
  rw [canonical, canonical, canonicalItems_eq_map, canonicalItems_eq_map,
    bracketed, bracketed, List.cons_append, List.cons_append,
    List.append_assoc, List.append_assoc] at h
  obtain ⟨halike, hrest⟩ := forall₂_of_commaSeparated (.inl rfl) hitems hstart
    (List.cons.inj h).2
  exact ⟨.of_items halike, hrest⟩

/-- A member is determined by its text when its value is. -/
theorem determines_writtenMember
    (h : ∀ m ∈ members, ∀ n ∈ members', ∀ rest rest', EndsNumber rest →
      EndsNumber rest' → m.2.canonical ++ rest = n.2.canonical ++ rest' →
      Alike m.2 n.2 ∧ rest = rest') :
    Determines writtenMember MemberAlike members members' := by
  intro m hm n hn rest rest' hrest hrest' heq
  rw [writtenMember, writtenMember, memberText, memberText, List.append_assoc,
    List.append_assoc] at heq
  have hname : scanWord (quoted m.1 ++ ((':' :: m.2.canonical) ++ rest)) = _ :=
    scanWord_quoted m.1
  rw [heq, scanWord_quoted] at hname
  obtain ⟨hword, hvalue⟩ := Prod.mk.inj (Option.some.inj hname)
  obtain ⟨halike, hrest⟩ := h m hm n hn rest rest' hrest hrest'
    (List.cons.inj hvalue).2.symm
  have hsame : n.1 = m.1 := Option.some.inj (Word.text.inj hword)
  exact ⟨⟨hsame.symm, halike⟩, hrest⟩

/-- Objects that are written the same are alike when the values of their
members are determined by their texts. -/
theorem alike_of_obj_append
    (hmembers : Determines writtenMember MemberAlike members members')
    (hascending : Entries.Ascending members)
    (hascending' : Entries.Ascending members')
    (h : (Json.obj members).canonical ++ rest =
      (Json.obj members').canonical ++ rest') :
    Alike (.obj members) (.obj members') ∧ rest = rest' := by
  obtain ⟨sorted, hperm, hcanonical⟩ := exists_perm_canonical_obj_eq members
  obtain ⟨sorted', hperm', hcanonical'⟩ :=
    exists_perm_canonical_obj_eq members'
  have hsorted : Determines writtenMember MemberAlike sorted sorted' :=
    fun m hm n hn => hmembers m (hperm.subset hm) n (hperm'.subset hn)
  have hstart : ∀ m ∈ sorted ++ sorted', ∃ c more,
      writtenMember m = c :: more ∧ c ≠ '}' :=
    fun m _ => ⟨'"', _, rfl, by decide⟩
  rw [hcanonical, hcanonical', List.cons_append, List.cons_append,
    List.append_assoc, List.append_assoc] at h
  obtain ⟨halike, hrest⟩ := forall₂_of_commaSeparated (.inr rfl) hsorted
    hstart (List.cons.inj h).2
  have hsorted := memberAlike_of_perm hperm hperm' hascending hascending' halike
  exact ⟨alike_obj_iff.2 hsorted, hrest⟩

/-- A value is determined by any text that starts with its canonical form, and
so is where the form ends.  The first word of the form tells the kind of the
value. -/
theorem alike_of_canonical_append (hv : v.IsValid) (hw : w.IsValid)
    (hrest : EndsNumber rest) (hrest' : EndsNumber rest')
    (h : v.canonical ++ rest = w.canonical ++ rest') :
    Alike v w ∧ rest = rest' := by
  induction v using Json.induct generalizing w rest rest' with
  | null =>
      obtain ⟨hfirst, hbehind⟩ :=
        firstWord_eq_of_canonical_append hv hw hrest hrest' h
      cases w with
      | null => exact ⟨.null, hbehind⟩
      | _ => cases hfirst
  | bool b =>
      obtain ⟨hfirst, hbehind⟩ :=
        firstWord_eq_of_canonical_append hv hw hrest hrest' h
      cases w with
      | bool c =>
          cases hfirst
          exact ⟨.bool b, hbehind⟩
      | _ => cases hfirst
  | num n =>
      obtain ⟨hfirst, hbehind⟩ :=
        firstWord_eq_of_canonical_append hv hw hrest hrest' h
      cases w with
      | num m =>
          have hrests : rest = rest' := hbehind
          subst hrests
          exact ⟨.num (List.append_cancel_right h), rfl⟩
      | _ => cases hfirst
  | str s =>
      obtain ⟨hfirst, hbehind⟩ :=
        firstWord_eq_of_canonical_append hv hw hrest hrest' h
      cases w with
      | str t =>
          cases hfirst
          exact ⟨.str s, hbehind⟩
      | _ => cases hfirst
  | arr items ih =>
      obtain ⟨hfirst, -⟩ :=
        firstWord_eq_of_canonical_append hv hw hrest hrest' h
      cases w with
      | arr others =>
          have hitems := itemsValid_iff.1 hv
          have hothers := itemsValid_iff.1 hw
          apply alike_of_arr_append ?_ hv hw h
          exact fun v hmem w hmem' rest rest' =>
            ih v hmem (hitems v hmem) (hothers w hmem')
      | _ => cases hfirst
  | obj members ih =>
      obtain ⟨hfirst, -⟩ :=
        firstWord_eq_of_canonical_append hv hw hrest hrest' h
      cases w with
      | obj members' =>
          have hmembers := membersValid_iff.1 hv.2
          have hmembers' := membersValid_iff.1 hw.2
          apply alike_of_obj_append ?_ hv.1 hw.1 h
          apply determines_writtenMember
          exact fun m hmem n hmem' rest rest' =>
            ih m hmem (hmembers m hmem) (hmembers' n hmem')
      | _ => cases hfirst

/-- Values are written the same exactly when they are alike. -/
theorem canonical_eq_iff (hv : v.IsValid) (hw : w.IsValid) :
    v.canonical = w.canonical ↔ Alike v w := by
  refine ⟨fun h => ?_, Alike.canonical_eq⟩
  have happend : v.canonical ++ [] = w.canonical ++ [] := by rw [h]
  have hends : EndsNumber [] := nofun
  exact (alike_of_canonical_append hv hw hends hends happend).1

/-- The bytes of the canonical form. -/
def canonicalBytes (v : Json) : ByteArray := v.canonicalText.toUTF8

theorem canonicalBytes_inj :
    v.canonicalBytes = w.canonicalBytes ↔ v.canonical = w.canonical := by
  rw [canonicalBytes, canonicalBytes, String.toUTF8, String.toUTF8,
    String.toByteArray_inj, canonicalText, canonicalText, String.ofList_inj]

theorem canonicalBytes_eq_iff (hv : v.IsValid) (hw : w.IsValid) :
    v.canonicalBytes = w.canonicalBytes ↔ Alike v w := by
  rw [canonicalBytes_inj, canonical_eq_iff hv hw]

end Json

end CallGate
