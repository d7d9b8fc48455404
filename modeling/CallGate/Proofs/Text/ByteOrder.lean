import Mathlib.Data.String.Basic
import Mathlib.Tactic.SplitIfs

/-!
# The order of strings and of their bytes

Strings are compared character by character, and the bytes of their UTF-8
forms are in the same order: at the first place where the forms of two
characters differ, the smaller character has the smaller byte, and what
follows does not matter.
-/

namespace CallGate.Text

/-- The bytes of a string. -/
def bytes (s : String) : List UInt8 := s.toList.flatMap String.utf8EncodeChar

/-- They are those of its UTF-8 form. -/
theorem data_toUTF8 (s : String) : s.toUTF8.data = (bytes s).toArray := by
  rw [String.toUTF8, ← String.utf8Encode_toList, List.utf8Encode,
    List.data_toByteArray, bytes]

theorem toNat_lt (c : Char) : c.toNat < 0x110000 := by
  rcases c.valid with hlow | ⟨-, hhigh⟩
  · exact lt_trans hlow (by decide)
  · exact hhigh

theorem utf8EncodeChar_append_lt {c d : Char} (h : c < d)
    (rest rest' : List UInt8) :
    String.utf8EncodeChar c ++ rest < String.utf8EncodeChar d ++ rest' := by
  have hlt : c.toNat < d.toNat := h
  have hbound := toNat_lt d
  simp only [String.utf8EncodeChar, Char.toNat_val]
  split_ifs <;>
    simp (disch := omega) only [List.cons_append, List.cons_lt_cons_iff,
      UInt8.lt_iff_toNat_lt, ← UInt8.toNat_inj, UInt8.toNat_ofNat',
      Nat.mod_eq_of_lt] <;>
    omega

/-- Strings in order have their bytes in order. -/
theorem bytes_lt_of_lt {s t : String} (h : s < t) : bytes s < bytes t := by
  have hchars : ∀ cs ds : List Char, cs < ds →
      cs.flatMap String.utf8EncodeChar < ds.flatMap String.utf8EncodeChar := by
    intro cs ds hlt
    induction hlt with
    | @nil d ds =>
        obtain ⟨byte, more, hform⟩ :=
          List.exists_cons_of_ne_nil (String.utf8EncodeChar_ne_nil (c := d))
        rw [List.flatMap_nil, List.flatMap_cons, hform, List.cons_append]
        exact List.nil_lt_cons byte _
    | rel hfirst =>
        rw [List.flatMap_cons, List.flatMap_cons]
        exact utf8EncodeChar_append_lt hfirst _ _
    | cons _ ih =>
        rw [List.flatMap_cons, List.flatMap_cons]
        exact List.append_left_lt ih
  exact hchars _ _ (String.lt_iff_toList_lt.1 h)

end CallGate.Text
