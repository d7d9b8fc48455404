import CallGate.Proofs.Text.ByteOrder
import Mathlib.Data.List.Infix

/-!
# Marks among characters and among bytes

The byte of an ASCII character is part of the UTF-8 form of no other
character.  So a mark of such characters first stands among the bytes of a text
where it first stands among its characters, and what is cut off in front of it
by its offset among the bytes is the UTF-8 form of what is in front of it in
the text.
-/

namespace CallGate.Text

/-- The bytes of some characters. -/
def utf8 (cs : List Char) : List UInt8 := cs.flatMap String.utf8EncodeChar

@[simp] theorem utf8_nil : utf8 [] = [] := rfl

@[simp] theorem utf8_append (cs ds : List Char) :
    utf8 (cs ++ ds) = utf8 cs ++ utf8 ds :=
  List.flatMap_append

theorem utf8_cons (c : Char) (cs : List Char) :
    utf8 (c :: cs) = String.utf8EncodeChar c ++ utf8 cs :=
  List.flatMap_cons

theorem utf8_eq_nil_iff {cs : List Char} : utf8 cs = [] ↔ cs = [] := by
  cases cs with
  | nil => simp
  | cons c rest => simp [utf8_cons, String.utf8EncodeChar_ne_nil]

theorem take_utf8 (cs ds : List Char) :
    (utf8 (cs ++ ds)).take (utf8 cs).length = utf8 cs := by
  rw [utf8_append, List.take_left]

theorem drop_utf8 (cs ds : List Char) :
    (utf8 (cs ++ ds)).drop (utf8 cs).length = utf8 ds := by
  rw [utf8_append, List.drop_left]

/-- An ASCII character. -/
def IsAscii (c : Char) : Prop := c.toNat < 0x80

instance (c : Char) : Decidable (IsAscii c) :=
  inferInstanceAs (Decidable (_ < _))

/-- A byte of ASCII stands for the character with its number.  The bytes of
longer forms are at least 0x80. -/
theorem toNat_eq_of_mem_utf8EncodeChar {c : Char} {byte : UInt8}
    (hbyte : byte.toNat < 0x80) (h : byte ∈ String.utf8EncodeChar c) :
    c.toNat = byte.toNat := by
  have hbound := toNat_lt c
  simp only [String.utf8EncodeChar, Char.toNat_val] at h
  split_ifs at h <;>
    simp (disch := omega) only [List.mem_cons, List.not_mem_nil, or_false,
      ← UInt8.toNat_inj, UInt8.toNat_ofNat', Nat.mod_eq_of_lt] at h <;>
    omega

theorem IsAscii.utf8EncodeChar_eq {c : Char} (h : IsAscii c) :
    ∃ byte : UInt8, byte.toNat = c.toNat ∧ String.utf8EncodeChar c =
    [byte] := by
  have hnumber : c.toNat < 0x80 := h
  have hsize : c.utf8Size = 1 := Char.utf8Size_eq_one_iff.2
    (UInt32.le_iff_toNat_le.2 (Nat.le_of_lt_succ hnumber))
  refine ⟨c.val.toUInt8, ?_, String.utf8EncodeChar_eq_singleton hsize⟩
  rw [UInt32.toNat_toUInt8, Char.toNat_val, Nat.mod_eq_of_lt (by omega)]

/-- What has the byte of an ASCII character in its form is that character. -/
theorem IsAscii.eq_of_mem {c d : Char} {byte : UInt8} (hc : IsAscii c)
    (hform : String.utf8EncodeChar c = [byte])
    (h : byte ∈ String.utf8EncodeChar d) : d = c := by
  obtain ⟨_, hnumber, hform'⟩ := hc.utf8EncodeChar_eq
  cases hform.symm.trans hform'
  have hbyte : byte.toNat < 0x80 := hnumber.trans_lt hc
  exact Char.toNat_inj.1
    ((toNat_eq_of_mem_utf8EncodeChar hbyte h).trans hnumber)

/-- The bytes of ASCII characters begin the bytes of a text only if the
characters begin the text. -/
theorem begins_of_utf8_begins {mark text : List Char}
    (hmark : ∀ c ∈ mark, IsAscii c) (h : utf8 mark <+: utf8 text) :
    mark <+: text := by
  induction mark generalizing text with
  | nil => exact List.nil_prefix
  | cons m rest ih =>
      obtain ⟨hm, hrest⟩ := List.forall_mem_cons.1 hmark
      obtain ⟨byte, -, hform⟩ := hm.utf8EncodeChar_eq
      rw [utf8_cons, hform, List.singleton_append] at h
      cases text with
      | nil => exact absurd h (by simp)
      | cons c others =>
          have hmem : byte ∈ String.utf8EncodeChar c := by
            obtain ⟨first, more, hfirst⟩ := List.exists_cons_of_ne_nil
              (String.utf8EncodeChar_ne_nil (c := c))
            rw [utf8_cons, hfirst, List.cons_append, List.cons_prefix_cons] at h
            rw [hfirst, h.1]
            exact List.mem_cons_self
          obtain rfl := hm.eq_of_mem hform hmem
          rw [utf8_cons, hform, List.singleton_append,
            List.cons_prefix_cons] at h
          exact List.cons_prefix_cons.2 ⟨rfl, ih hrest h.2⟩

/-! ## Offsets -/

section Find

variable {α : Type} [DecidableEq α] {mark : List α}

/-- The offset at which a mark first stands in a list. -/
def find? (mark list : List α) : Option Nat :=
  list.tails.findIdx? mark.isPrefixOf

theorem find?_of_begins {list : List α} (h : mark <+: list) :
    find? mark list = some 0 := by
  have hfirst : mark.isPrefixOf list = true := List.isPrefixOf_iff_prefix.2 h
  cases list with
  | nil => simp [find?, hfirst]
  | cons x rest => simp [find?, List.findIdx?_cons, hfirst]

theorem find?_nil (h : mark ≠ []) : find? mark [] = none := by
  cases mark with
  | nil => exact absurd rfl h
  | cons m rest => rfl

theorem find?_cons_of_not_begins {x : α} {rest : List α}
    (h : ¬mark <+: x :: rest) :
    find? mark (x :: rest) = (find? mark rest).map (· + 1) := by
  have hfirst : mark.isPrefixOf (x :: rest) = false := by
    rw [Bool.eq_false_iff]
    exact mt List.isPrefixOf_iff_prefix.1 h
  rw [find?, List.tails_cons, List.findIdx?_cons, hfirst]
  rfl

/-- A mark that begins nowhere in front of a list first stands where it does
in the list. -/
theorem find?_append {front list : List α}
    (h : ∀ n < front.length, ¬mark <+: (front ++ list).drop n) :
    find? mark (front ++ list) =
      (find? mark list).map (· + front.length) := by
  induction front with
  | nil => simp
  | cons x rest ih =>
      have hfirst := h 0 (Nat.zero_lt_succ _)
      have hrest := ih fun n hn => h (n + 1) (Nat.succ_lt_succ hn)
      rw [List.cons_append] at *
      rw [find?_cons_of_not_begins hfirst, hrest, Option.map_map]
      congr 1

end Find

/-- The bytes of a mark do not begin within the bytes of a character that the
mark does not begin at. -/
theorem not_utf8_begins_drop {mark rest : List Char} {c : Char}
    (hne : mark ≠ []) (hmark : ∀ m ∈ mark, IsAscii m)
    (h : ¬mark <+: c :: rest) {n : Nat}
    (hn : n < (String.utf8EncodeChar c).length) :
    ¬utf8 mark <+: (utf8 (c :: rest)).drop n := by
  intro hbegins
  obtain ⟨m, others, rfl⟩ := List.exists_cons_of_ne_nil hne
  have hm := hmark m List.mem_cons_self
  obtain ⟨byte, -, hform⟩ := hm.utf8EncodeChar_eq
  have hbyte : byte ∈ String.utf8EncodeChar c := by
    rw [utf8_cons, hform, utf8_cons,
      List.drop_append_of_le_length hn.le, List.drop_eq_getElem_cons hn,
      List.singleton_append, List.cons_append, List.cons_prefix_cons]
      at hbegins
    rw [hbegins.1]
    exact List.getElem_mem hn
  obtain rfl := hm.eq_of_mem hform hbyte
  obtain rfl : n = 0 := by
    rw [hform] at hn
    exact Nat.lt_one_iff.1 hn
  exact h (begins_of_utf8_begins hmark hbegins)

/-- Among the bytes of a text, an ASCII mark first stands behind the bytes of
what is in front of it in the text. -/
theorem find?_utf8 {mark : List Char} (hne : mark ≠ [])
    (hmark : ∀ m ∈ mark, IsAscii m) (text : List Char) :
    find? (utf8 mark) (utf8 text) =
      (find? mark text).map fun n => (utf8 (text.take n)).length := by
  induction text with
  | nil => rw [utf8_nil, find?_nil hne, find?_nil (mt utf8_eq_nil_iff.1 hne),
      Option.map_none]
  | cons c rest ih =>
      by_cases hbegins : mark <+: c :: rest
      · have hbytes : utf8 mark <+: utf8 (c :: rest) := by
          obtain ⟨more, hmore⟩ := hbegins
          exact ⟨utf8 more, by rw [← utf8_append, hmore]⟩
        rw [find?_of_begins hbegins, find?_of_begins hbytes]
        rfl
      · have hnowhere : ∀ n < (String.utf8EncodeChar c).length,
            ¬utf8 mark <+: (String.utf8EncodeChar c ++ utf8 rest).drop n := by
          intro n hn
          exact not_utf8_begins_drop hne hmark hbegins hn
        rw [find?_cons_of_not_begins hbegins, utf8_cons,
          find?_append hnowhere, ih, Option.map_map, Option.map_map]
        congr 1
        funext n
        simp [utf8_cons, Nat.add_comm]

end CallGate.Text
