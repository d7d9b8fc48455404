import CallGate.Json.Written
import CallGate.Proofs.Json.Parts
import CallGate.Proofs.Json.Settled
import CallGate.Proofs.Number.Notation

/-!
# Values on one line

The canonical form of a value has no character below the space, whatever its
strings and names are: inside quotes such characters are escaped, and nothing
else of the form has any.  So it stands on a line of its own.
-/

namespace CallGate

/-- The text has no character below the space. -/
def Text.Printable (text : List Char) : Prop := ∀ c ∈ text, 0x20 ≤ c.toNat

namespace Text

instance (text : List Char) : Decidable (Printable text) :=
  List.decidableBAll _ text

variable {text other : List Char} {parts : List (List Char)}

theorem printable_nil : Printable [] :=
  List.forall_mem_nil _

theorem Printable.append (h : Printable text) (h' : Printable other) :
    Printable (text ++ other) :=
  List.forall_mem_append.2 ⟨h, h'⟩

theorem Printable.cons {c : Char} (hc : 0x20 ≤ c.toNat) (h : Printable text) :
    Printable (c :: text) :=
  List.forall_mem_cons.2 ⟨hc, h⟩

theorem Printable.newline_not_mem (h : Printable text) : '\n' ∉ text :=
  fun hmem => absurd (h '\n' hmem) (by decide)

theorem Digits.printable (h : Digits text) : Printable text := by
  intro c hc
  have hdigit := h c hc
  rw [Char.isDigit, Bool.and_eq_true, decide_eq_true_iff,
    decide_eq_true_iff] at hdigit
  have hlow : ('0' : Char).toNat ≤ c.toNat := hdigit.1
  exact Nat.le_trans (by decide) hlow

theorem printable_integerText (i : Int) : Printable (integerText i) := by
  have hdigits := (digits_decimal i.natAbs).printable
  rw [integerText]
  split
  · exact .cons (by decide) hdigits
  · exact hdigits

end Text

open Text

namespace RealStyle

theorem printable_inPlace (style : RealStyle) {digits : List Char}
    (hdigits : Digits digits) (top : Int) :
    Printable (style.inPlace digits top) := by
  have hzeros (k : Nat) := (digits_zeros k).printable
  rw [inPlace]
  split
  · refine (hdigits.printable.append (hzeros _)).append ?_
    split <;> decide
  · split
    · refine .append ?_ (.cons (by decide) ?_)
      · exact fun c hc => hdigits.printable c (List.mem_of_mem_take hc)
      · exact fun c hc => hdigits.printable c (List.mem_of_mem_drop hc)
    · exact .cons (by decide) (.cons (by decide)
        ((hzeros _).append hdigits.printable))

theorem printable_scientific {digits : List Char} (hdigits : Digits digits)
    (top : Int) : Printable (scientific digits top) := by
  have hfirst : Printable (digits.take 1) :=
    fun c hc => hdigits.printable c (List.mem_of_mem_take hc)
  have hothers : Printable (digits.drop 1) :=
    fun c hc => hdigits.printable c (List.mem_of_mem_drop hc)
  have hpower := (digits_decimal top.natAbs).printable
  rw [scientific]
  refine (hfirst.append ?_).append (.cons (by decide) (.cons ?_ hpower))
  · split
    · exact printable_nil
    · exact .cons (by decide) hothers
  · split <;> decide

theorem printable_render (style : RealStyle) (x : Binary64) :
    Printable (style.render x) := by
  have hdigits := digits_decimal (Decimal.shortest x).digits
  rw [render]
  split
  · decide
  · split
    · cases style.keepsPoint <;> split <;> decide
    · refine .append ?_ ?_
      · split <;> decide
      · split
        · exact style.printable_inPlace hdigits _
        · exact printable_scientific hdigits _

end RealStyle

namespace Json

theorem printable_number (style : RealStyle) (n : Number) :
    Printable (n.written style) := by
  cases n with
  | int i => exact printable_integerText i
  | real x => exact style.printable_render x

/-! ## Quoted strings -/

theorem printable_escaped (c : Char) : Printable (escaped c) := by
  rw [escaped]
  split
  · decide
  · split
    · decide
    · by_cases hcontrol : c.toNat < 0x20
      · have hdigits : ∀ n < 0x20, Printable (hexFixed 4 n) := by decide
        rw [if_pos hcontrol]
        split_ifs
        · decide
        · decide
        · decide
        · decide
        · decide
        · exact .cons (by decide)
            (.cons (by decide) (hdigits c.toNat hcontrol))
      · rw [if_neg hcontrol]
        exact .cons (Nat.le_of_not_lt hcontrol) printable_nil

theorem printable_quoted (s : String) : Printable (quoted s) := by
  refine .cons (by decide) (.append ?_ (.cons (by decide) printable_nil))
  intro c hc
  obtain ⟨d, -, hd⟩ := List.mem_flatMap.1 hc
  exact printable_escaped d c hd

/-! ## Arrays and objects -/

theorem printable_commaSeparated {parts : List (List Char)}
    (h : ∀ part ∈ parts, Printable part) :
    Printable (commaSeparated parts) := by
  induction parts with
  | nil => exact printable_nil
  | cons part rest ih =>
      obtain ⟨hpart, hrest⟩ := List.forall_mem_cons.1 h
      cases rest with
      | nil => rwa [commaSeparated, List.intercalate_singleton]
      | cons next rest =>
          rw [commaSeparated_cons]
          exact hpart.append (.cons (by decide) (ih hrest))

theorem printable_bracketed {parts : List (List Char)}
    (h : ∀ part ∈ parts, Printable part) : Printable (bracketed parts) :=
  .cons (by decide)
    ((printable_commaSeparated h).append (.cons (by decide) printable_nil))

theorem printable_braced {parts : List (List Char × List Char)}
    (h : ∀ m ∈ parts, Printable m.1 ∧ Printable m.2) :
    Printable (braced parts) := by
  refine .cons (by decide) (.append (printable_commaSeparated ?_)
    (.cons (by decide) printable_nil))
  intro part hpart
  obtain ⟨m, hm, rfl⟩ := List.mem_map.1 hpart
  exact (h m hm).1.append (.cons (by decide) (h m hm).2)

/-- The canonical form has no character below the space. -/
theorem printable_canonical (v : Json) : Printable v.canonical := by
  induction v using Json.induct with
  | null => decide
  | bool b => cases b <;> decide
  | num n => exact printable_number .canonical n
  | str s => exact printable_quoted s
  | arr items ih =>
      rw [canonical, canonicalItems_eq_map]
      refine printable_bracketed fun part hpart => ?_
      obtain ⟨v, hv, rfl⟩ := List.mem_map.1 hpart
      exact ih v hv
  | obj members ih =>
      obtain ⟨sorted, hperm, hcanonical⟩ := exists_perm_canonical_obj members
      rw [hcanonical, canonicalMembers_eq_map]
      refine printable_braced fun part hpart => ?_
      obtain ⟨m, hm, rfl⟩ := List.mem_map.1 hpart
      exact ⟨printable_quoted m.1, ih m (hperm.mem_iff.1 hm)⟩

end Json

end CallGate
