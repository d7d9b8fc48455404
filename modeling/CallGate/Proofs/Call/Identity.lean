import CallGate.Proofs.Json.Alike

/-!
# What identifies a call

The bytes that the fingerprint of a call is a digest of determine the seed,
the sequence number, the operation and the arguments, up to numbers that are
written the same.  Those that the digest of a call is taken of determine the
operation and the arguments.
-/

namespace CallGate

open Json

theorem Text.decimal_append_inj {m n : ℕ} {tail tail' : List Char}
    (htail : EndsDigits tail) (htail' : EndsDigits tail')
    (h : decimal m ++ tail = decimal n ++ tail') : m = n ∧ tail = tail' := by
  have htake := takeWhile_digits (digits_decimal m) htail
  have hdrop := dropWhile_digits (digits_decimal m) htail
  rw [h, takeWhile_digits (digits_decimal n) htail'] at htake
  rw [h, dropWhile_digits (digits_decimal n) htail'] at hdrop
  exact ⟨(decimal_injective htake).symm, hdrop.symm⟩

variable {seed seed' m n : ℕ} {operation operation' : OperationId}
  {args args' : Arguments}

theorem isValid_callBody (operation : OperationId)
    (h : (Json.obj args).IsValid) : (callBody operation args).IsValid := by
  have hnames : ["args", "operation", "service"].Pairwise
      fun a b => compare a b = .lt := by decide +kernel
  rw [callBody, IsValid]
  exact ⟨Entries.ascending_iff_names.2 hnames, h, trivial, trivial, trivial⟩

/-- Calls are alike when operation and arguments are. -/
theorem alike_callBody_iff :
    (callBody operation args).Alike (callBody operation' args') ↔
      operation = operation' ∧ (Json.obj args).Alike (.obj args') := by
  simp only [callBody, @alike_obj_iff [_, _, _], MemberAlike,
    alike_str_iff, List.forall₂_cons, List.forall₂_nil_left_iff, true_and,
    and_true]
  cases operation
  cases operation'
  rw [OperationId.mk.injEq]
  tauto

/-- The bytes of a call determine operation and arguments. -/
theorem canonicalBytes_callBody_eq_iff (hargs : (Json.obj args).IsValid)
    (hargs' : (Json.obj args').IsValid) :
    (callBody operation args).canonicalBytes =
        (callBody operation' args').canonicalBytes ↔
      operation = operation' ∧ (Json.obj args).Alike (.obj args') := by
  rw [canonicalBytes_eq_iff (isValid_callBody operation hargs)
    (isValid_callBody operation' hargs'), alike_callBody_iff]

/-- The bytes of a call that takes up a sequence number determine also the
number and the seed. -/
theorem canonicalBytes_fingerprintBody_eq_iff (hargs : (Json.obj args).IsValid)
    (hargs' : (Json.obj args').IsValid) :
    (fingerprintBody seed m operation args).canonicalBytes =
        (fingerprintBody seed' n operation' args').canonicalBytes ↔
      seed = seed' ∧ m = n ∧ operation = operation' ∧
        (Json.obj args).Alike (.obj args') := by
  have hcall := isValid_callBody operation hargs
  have hcall' := isValid_callBody operation' hargs'
  have hcomma (rest : List Char) : EndsNumber (',' :: rest) :=
    endsNumber_of_head (.inl rfl)
  have hdigits {c : Char} (hc : c.isDigit = false) (rest : List Char) :
      Text.EndsDigits (c :: rest) := by
    rintro _ ⟨⟩
    exact hc
  rw [canonicalBytes_inj, canonical_fingerprintBody, canonical_fingerprintBody,
    fingerprintHead, fingerprintHead]
  simp only [List.cons_append, List.append_assoc, List.cons.injEq, true_and,
    List.append_cancel_left_eq]
  constructor
  · intro h
    obtain ⟨halike, hseedText⟩ :=
      alike_of_canonical_append hcall hcall' (hcomma _) (hcomma _) h
    simp only [List.cons.injEq, true_and, List.append_cancel_left_eq]
      at hseedText
    obtain ⟨hseed, hnumberText⟩ := Text.decimal_append_inj (hdigits rfl _)
      (hdigits rfl _) hseedText
    simp only [List.cons.injEq, true_and, List.append_cancel_left_eq]
      at hnumberText
    obtain ⟨hnumber, -⟩ := Text.decimal_append_inj (hdigits rfl _)
      (hdigits rfl _) hnumberText
    exact ⟨hseed, hnumber, alike_callBody_iff.1 halike⟩
  · rintro ⟨rfl, rfl, hsame⟩
    rw [(alike_callBody_iff.2 hsame).canonical_eq]

/-- Values have the same canonical bytes exactly when they are alike.  Calls
have the same fingerprint, as far as the bytes go that it is a digest of,
exactly when seeds, numbers, services and operations are equal and their
arguments alike, and the same digest likewise without seed and number. -/
theorem canonicalBytes_identify {v w : Json} (hv : v.IsValid)
    (hw : w.IsValid) {args args' : Arguments} (hargs : (Json.obj args).IsValid)
    (hargs' : (Json.obj args').IsValid) (seed seed' sequence sequence' : ℕ)
    (operation operation' : OperationId) :
    (v.canonicalBytes = w.canonicalBytes ↔ v.Alike w) ∧
    fingerprint seed sequence operation args =
      Sha256.hex (fingerprintBody seed sequence operation args).canonicalBytes ∧
    ((fingerprintBody seed sequence operation args).canonicalBytes =
        (fingerprintBody seed' sequence' operation' args').canonicalBytes ↔
      seed = seed' ∧ sequence = sequence' ∧
        operation.service = operation'.service ∧
        operation.name = operation'.name ∧
        (Json.obj args).Alike (.obj args')) ∧
    callDigest operation args =
      Sha256.hex (callBody operation args).canonicalBytes ∧
    ((callBody operation args).canonicalBytes =
        (callBody operation' args').canonicalBytes ↔
      operation.service = operation'.service ∧
        operation.name = operation'.name ∧
        (Json.obj args).Alike (.obj args')) := by
  have hoperation : operation = operation' ↔
      operation.service = operation'.service ∧
        operation.name = operation'.name := by
    cases operation
    cases operation'
    rw [OperationId.mk.injEq]
  refine ⟨canonicalBytes_eq_iff hv hw, rfl, ?_, rfl, ?_⟩
  · rw [canonicalBytes_fingerprintBody_eq_iff hargs hargs', hoperation,
      and_assoc]
  · rw [canonicalBytes_callBody_eq_iff hargs hargs', hoperation, and_assoc]

/-- Arguments with a whole number. -/
def countArguments : Arguments := [("count", .num (.int 1))]

/-- The same arguments with the number as a real one. -/
def realCountArguments : Arguments :=
  [("count", .num (.real ⟨0x3FF0000000000000⟩))]

/-- A whole number and the real one that is written the same identify the same
call, and a digit that moves from the seed to the number identifies another. -/
theorem whole_count_identifies :
    (Json.obj countArguments).IsValid ∧ (Json.obj realCountArguments).IsValid ∧
    countArguments ≠ realCountArguments ∧
    (fingerprintBody 1 23 ⟨"mail", "send"⟩ countArguments).canonicalBytes =
      (fingerprintBody 1 23 ⟨"mail", "send"⟩
        realCountArguments).canonicalBytes ∧
    (fingerprintBody 1 23 ⟨"mail", "send"⟩ countArguments).canonicalBytes ≠
      (fingerprintBody 12 3 ⟨"mail", "send"⟩ realCountArguments).canonicalBytes
    := by
  have hvalid : (Json.obj countArguments).IsValid :=
    ⟨List.pairwise_singleton _ _, by constructor <;> decide, trivial⟩
  have hvalid' : (Json.obj realCountArguments).IsValid :=
    ⟨List.pairwise_singleton _ _, rfl, trivial⟩
  have hwritten : (Number.int 1).written .canonical =
      (Number.real ⟨0x3FF0000000000000⟩).written .canonical := by
    decide +kernel
  have halike : (Json.obj countArguments).Alike (.obj realCountArguments) :=
    alike_obj_iff.2 (.cons ⟨rfl, .num hwritten⟩ .nil)
  have hidentify := canonicalBytes_identify hvalid hvalid' hvalid hvalid'
  refine ⟨hvalid, hvalid', by decide, ?_, fun h => ?_⟩
  · exact (hidentify 1 1 23 23 ⟨"mail", "send"⟩ ⟨"mail", "send"⟩).2.2.1.2
      ⟨rfl, rfl, rfl, rfl, halike⟩
  · have hseed := ((hidentify 1 12 23 3 ⟨"mail", "send"⟩
      ⟨"mail", "send"⟩).2.2.1.1 h).1
    exact absurd hseed (by decide)

end CallGate
