import CallGate.Call.Request
import CallGate.Text.Numeral

/-!
# Canonical forms of calls

The canonical form of a call that takes up a sequence number ends with the
digits of the number, behind the colon of the last member.  Forms of calls
with different numbers are therefore different texts, whatever the calls are,
and their fingerprints are too unless the digest collides.
-/

namespace CallGate

namespace Json

theorem canonicalMembers_eq_map (members : List (String × Json)) :
    canonicalMembers members =
      members.map fun m => (quoted m.1, m.2.canonical) := by
  induction members with
  | nil => rfl
  | cons m rest ih => rw [canonicalMembers, ih, List.map_cons]

/-- Members whose names are in order already are written as they stand. -/
theorem canonical_obj_of_sorted {members : List (String × Json)}
    (h : ((members.map (·.1)).map quoted).Pairwise fun a b => ¬b < a) :
    (Json.obj members).canonical = braced (canonicalMembers members) := by
  rw [canonical, List.mergeSort_of_pairwise]
  rw [canonicalMembers_eq_map, List.pairwise_map]
  rw [List.map_map, List.pairwise_map] at h
  refine h.imp fun hlt => ?_
  rw [nameAtMost, Bool.not_eq_true', decide_eq_false_iff_not]
  exact hlt

theorem canonical_ofNat (n : Nat) :
    (Json.ofNat n).canonical = Text.decimal n := by
  rw [ofNat, canonical, Number.written, Text.integerText, if_neg (by omega),
    Int.natAbs_natCast]

end Json

/-- The canonical form of a call. -/
theorem canonical_callBody (operation : OperationId) (args : Arguments) :
    (callBody operation args).canonical =
      Json.braced
        [(Json.quoted "args", (Json.obj args).canonical),
          (Json.quoted "operation", Json.quoted operation.name),
          (Json.quoted "service", Json.quoted operation.service)] := by
  rw [callBody, Json.canonical_obj_of_sorted]
  · rfl
  · change (["args", "operation", "service"].map Json.quoted).Pairwise
      fun a b => ¬b < a
    decide

/-- What is written before the sequence number. -/
def fingerprintHead (seed : Nat) (operation : OperationId)
    (args : Arguments) : List Char :=
  '{' :: (Json.quoted "call" ++ ':' :: (callBody operation args).canonical ++
    ',' :: (Json.quoted "seed" ++ ':' :: Text.decimal seed ++
      ',' :: Json.quoted "sequence"))

/-- The form that a fingerprint is a digest of ends with the number. -/
theorem canonical_fingerprintBody (seed sequence : Nat)
    (operation : OperationId) (args : Arguments) :
    (fingerprintBody seed sequence operation args).canonical =
      fingerprintHead seed operation args ++
        ':' :: (Text.decimal sequence ++ ['}']) := by
  rw [fingerprintBody, Json.canonical_obj_of_sorted]
  · simp only [Json.canonicalMembers, Json.canonical_ofNat, Json.braced,
      Json.commaSeparated, fingerprintHead, Json.memberText, List.map_cons,
      List.map_nil]
    simp [List.intercalate]
  · change (["call", "seed", "sequence"].map Json.quoted).Pairwise
      fun a b => ¬b < a
    decide

/-- A number is determined by a text that ends with it behind a colon. -/
theorem decimal_eq_of_append {head head' : List Char} {m n : Nat}
    (h : head ++ ':' :: Text.decimal m = head' ++ ':' :: Text.decimal n) :
    m = n := by
  have hdigits (k : Nat) :
      ∀ c ∈ (Text.decimal k).reverse, c.isDigit = true := fun c hc =>
    Nat.isDigit_of_mem_toDigits (by decide) (by decide)
      (List.mem_reverse.1 hc)
  have hlast (head : List Char) (k : Nat) :
      (head ++ ':' :: Text.decimal k).reverse.takeWhile Char.isDigit =
        (Text.decimal k).reverse := by
    rw [List.reverse_append, List.reverse_cons, List.append_assoc,
      List.takeWhile_append_of_pos (hdigits k), List.singleton_append,
      List.takeWhile_cons_of_neg (by decide), List.append_nil]
  have hreverse := hlast head m
  rw [h, hlast] at hreverse
  exact (Text.decimal_injective (List.reverse_inj.1 hreverse)).symm

/-- The text that the fingerprint of a call is a digest of. -/
def fingerprintText (seed sequence : Nat) (operation : OperationId)
    (args : Arguments) : String :=
  (fingerprintBody seed sequence operation args).canonicalText

theorem fingerprint_eq_hexOfText (seed sequence : Nat)
    (operation : OperationId) (args : Arguments) :
    fingerprint seed sequence operation args =
      Sha256.hexOfText (fingerprintText seed sequence operation args) :=
  rfl

/-- Calls with the same text have the same number. -/
theorem sequence_eq_of_fingerprintText_eq {seed seed' m n : Nat}
    {operation operation' : OperationId} {args args' : Arguments}
    (h : fingerprintText seed m operation args =
      fingerprintText seed' n operation' args') : m = n := by
  have hchars := String.ofList_injective h
  rw [canonical_fingerprintBody, canonical_fingerprintBody, ← List.cons_append,
    ← List.cons_append, ← List.append_assoc, ← List.append_assoc] at hchars
  exact decimal_eq_of_append (List.append_cancel_right hchars)

end CallGate
