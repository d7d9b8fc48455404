import CallGate.Json.Quoted
import CallGate.Json.Reader
import Mathlib.Tactic.SplitIfs

/-!
# Reading quoted strings

A string between quotes is read back as it is, whatever its characters are:
an escaped character takes up one step of the reader, like one that stands
for itself.
-/

namespace CallGate.Json

variable {legible : Bool} {before rest : List Char}

/-- The digits of a control character have its number as their value. -/
theorem hexFixed_of_control {n : Nat} (hn : n < 0x20) :
    ∃ a b c d, Text.hexFixed 4 n = [a, b, c, d] ∧ unit? a b c d = some n := by
  have hvalue : ∀ n < 0x20, Text.hexValue (Text.hexFixed 4 n) = some n := by
    decide
  refine ⟨_, _, _, _, rfl, ?_⟩
  exact hvalue n hn

theorem scanText_escaped (c : Char) :
    scanText legible before (escaped c ++ rest) =
      scanText legible (c :: before) rest := by
  rw [escaped]
  by_cases hquote : c = '"'
  · subst hquote
    simp [scanText, unescape?]
  by_cases hbackslash : c = '\\'
  · subst hbackslash
    simp [scanText, unescape?]
  rw [if_neg hquote, if_neg hbackslash]
  by_cases hcontrol : c.toNat < 0x20
  · rw [if_pos hcontrol]
    split_ifs with hb ht hn hf hr
    · simp [scanText, unescape?, hb]
    · simp [scanText, unescape?, ht]
    · simp [scanText, unescape?, hn]
    · simp [scanText, unescape?, hf]
    · simp [scanText, unescape?, hr]
    · obtain ⟨a, b, d, e, hdigits, hunit⟩ := hexFixed_of_control hcontrol
      have hfirst : isFirstHalf c.toNat = false := by
        simp [isFirstHalf]
        omega
      have hsecond : isSecondHalf c.toNat = false := by
        simp [isSecondHalf]
        omega
      rw [hdigits]
      simp [scanText, hunit, hfirst, hsecond]
  · rw [if_neg hcontrol, List.singleton_append, scanText]
    · rw [if_neg hcontrol]
    all_goals simp_all

theorem scanText_flatMap_escaped (cs : List Char) :
    scanText true before (cs.flatMap escaped ++ '"' :: rest) =
      some (some (String.ofList (before.reverse ++ cs)), rest) := by
  induction cs generalizing before with
  | nil => simp [scanText, spelled?]
  | cons c cs ih =>
      rw [List.flatMap_cons, List.append_assoc, scanText_escaped, ih,
        List.reverse_cons, List.append_assoc, List.singleton_append]

/-- The written form of a string is the word that holds the string. -/
theorem scanWord_quoted (s : String) :
    scanWord (quoted s ++ rest) = some (.text (some s), rest) := by
  rw [quoted, List.cons_append, List.append_assoc, List.singleton_append,
    scanWord, scanText_flatMap_escaped, List.reverse_nil, List.nil_append,
    String.ofList_toList]
  rfl

end CallGate.Json
