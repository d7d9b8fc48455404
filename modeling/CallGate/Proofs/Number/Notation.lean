import CallGate.Json.Reader
import CallGate.Json.Written
import CallGate.Proofs.Number.Shortest
import Mathlib.Tactic.IntervalCases

/-!
# Reading written numbers

The canonical form of a number is read back as the number, but for one class
of numbers: a real number whose digits are written without a point and without
an exponent looks like an integer, and is read as one if it is within 64 bits.
-/

namespace CallGate

/-! ## Numerals -/

namespace Text

variable {ds tail : List Char} {n : ℕ}

/-- Decimal digits. -/
def Digits (ds : List Char) : Prop := ∀ c ∈ ds, c.isDigit = true

theorem digits_decimal (n : ℕ) : Digits (decimal n) := fun _ hc =>
  Nat.isDigit_of_mem_toDigits (by decide) (by decide) hc

theorem digits_zeros (k : ℕ) : Digits (List.replicate k '0') := by
  intro c hc
  rw [List.eq_of_mem_replicate hc]
  rfl

theorem Digits.append (h : Digits ds) (ht : Digits tail) :
    Digits (ds ++ tail) := by
  intro c hc
  rcases List.mem_append.1 hc with hmem | hmem
  · exact h c hmem
  · exact ht c hmem

theorem decimal_ne_nil (n : ℕ) : decimal n ≠ [] := Nat.toDigits_ne_nil

/-- A numeral does not start with a zero. -/
theorem head_decimal (hn : 0 < n) :
    ∃ c rest, decimal n = c :: rest ∧ c ≠ '0' := by
  induction n using Nat.strong_induction_on with
  | _ n ih =>
      by_cases hlt : n < 10
      · refine ⟨n.digitChar, [], Nat.toDigits_of_lt_base hlt, ?_⟩
        interval_cases n <;> decide
      · obtain ⟨c, rest, heq, hc⟩ := ih (n / 10) (by omega) (by omega)
        refine ⟨c, rest ++ [(n % 10).digitChar], ?_, hc⟩
        rw [decimal, Nat.toDigits_of_base_le (by norm_num) (by omega)]
        rw [decimal] at heq
        rw [heq, List.cons_append]

theorem decimalValue_append (ds tail : List Char) :
    decimalValue (ds ++ tail) =
      decimalValue ds * 10 ^ tail.length + decimalValue tail := by
  rw [decimalValue, Nat.ofDigitChars_append,
    Nat.ofDigitChars_eq_ofDigitChars_zero, Nat.mul_comm]
  rfl

theorem decimalValue_zeros (k : ℕ) :
    decimalValue (List.replicate k '0') = 0 := by
  rw [decimalValue, Nat.ofDigitChars_replicate_zero, Nat.mul_zero]

/-- What follows is no digit. -/
def EndsDigits (tail : List Char) : Prop :=
  ∀ c ∈ tail.head?, c.isDigit = false

theorem takeWhile_digits (h : Digits ds) (htail : EndsDigits tail) :
    (ds ++ tail).takeWhile Char.isDigit = ds := by
  rw [List.takeWhile_append_of_pos h]
  cases tail with
  | nil => simp
  | cons c rest =>
      have hc : c.isDigit = false := htail c rfl
      rw [List.takeWhile_cons_of_neg (by simp [hc]), List.append_nil]

theorem dropWhile_digits (h : Digits ds) (htail : EndsDigits tail) :
    (ds ++ tail).dropWhile Char.isDigit = tail := by
  rw [List.dropWhile_append_of_pos h]
  cases tail with
  | nil => rfl
  | cons c rest =>
      have hc : c.isDigit = false := htail c rfl
      rw [List.dropWhile_cons_of_neg (by simp [hc])]

end Text

namespace Json

open Text

/-! ## The parts of a number -/

variable {rest : List Char}

/-- What follows cannot be part of a number. -/
def EndsNumber (rest : List Char) : Prop :=
  ∀ c ∈ rest.head?, c.isDigit = false ∧ c ≠ '.' ∧ c ≠ 'e' ∧ c ≠ 'E'

theorem EndsNumber.endsDigits (h : EndsNumber rest) : EndsDigits rest :=
  fun c hc => (h c hc).1

/-- The digits of a number before its point. -/
structure Whole (ds : List Char) : Prop where
  digits : Digits ds
  ne_nil : ds ≠ []
  /-- A zero in front stands alone. -/
  head : ∀ c d rest, ds = c :: d :: rest → c ≠ '0'

theorem whole_zero : Whole ['0'] where
  digits := digits_zeros 1
  ne_nil := by simp
  head c d rest h := by simp at h

theorem Whole.of_head {c : Char} {more : List Char}
    (hdigits : Digits (c :: more)) (hc : c ≠ '0') : Whole (c :: more) where
  digits := hdigits
  ne_nil := List.cons_ne_nil c more
  head first second rest heq := by
    cases heq
    exact hc

/-- The text of a fraction. -/
def fractionText : Option (List Char) → List Char
  | none => []
  | some ds => '.' :: ds

/-- The text of an exponent with a sign. -/
def exponentText : Option ℤ → List Char
  | none => []
  | some e => 'e' :: (if e < 0 then '-' else '+') :: decimal e.natAbs

theorem scanFraction_fractionText {fraction : Option (List Char)}
    (hdigits : ∀ ds, fraction = some ds → Digits ds ∧ ds ≠ [])
    (hrest : EndsDigits rest) (hpoint : rest.head? ≠ some '.') :
    scanFraction (fractionText fraction ++ rest) = some (fraction, rest) := by
  cases fraction with
  | none =>
      rw [fractionText, List.nil_append, scanFraction]
      rintro more rfl
      exact hpoint rfl
  | some ds =>
      obtain ⟨hds, hne⟩ := hdigits ds rfl
      rw [fractionText, List.cons_append, scanFraction,
        takeWhile_digits hds hrest, dropWhile_digits hds hrest]
      simp [hne]

theorem scanExponent_exponentText (exponent : Option ℤ)
    (hrest : EndsNumber rest) :
    scanExponent (exponentText exponent ++ rest) = some (exponent, rest) := by
  cases exponent with
  | none =>
      rw [exponentText, List.nil_append]
      cases rest with
      | nil => rfl
      | cons c more =>
          obtain ⟨-, -, he, hE⟩ := hrest c rfl
          simp [scanExponent, he, hE]
  | some e =>
      have hds := digits_decimal e.natAbs
      have hne := decimal_ne_nil e.natAbs
      have hend := hrest.endsDigits
      have htake := takeWhile_digits hds hend
      have hdrop := dropWhile_digits hds hend
      rw [exponentText, List.cons_append, List.cons_append]
      by_cases hneg : e < 0
      · have hvalue : -((e.natAbs : ℕ) : ℤ) = e := by omega
        rw [if_pos hneg]
        simp only [scanExponent, htake, hdrop, decimalValue_decimal, hvalue]
        simp [hne]
      · have hvalue : ((e.natAbs : ℕ) : ℤ) = e := by omega
        rw [if_neg hneg]
        simp only [scanExponent, htake, hdrop, decimalValue_decimal, hvalue]
        simp [hne]

/-- A number that is put together from its parts is taken apart into them. -/
theorem scanNumber_parts (negative : Bool) {whole : List Char}
    (fraction : Option (List Char)) (exponent : Option ℤ)
    (hwhole : Whole whole)
    (hfraction : ∀ ds, fraction = some ds → Digits ds ∧ ds ≠ [])
    (hrest : EndsNumber rest) :
    scanNumber ((if negative then ['-'] else []) ++
        (whole ++ (fractionText fraction ++ (exponentText exponent ++ rest)))) =
      some (numberTree (numberOf negative whole fraction exponent), rest) := by
  have hexponent : EndsDigits (exponentText exponent ++ rest) ∧
      (exponentText exponent ++ rest).head? ≠ some '.' := by
    cases exponent with
    | none =>
        refine ⟨hrest.endsDigits, fun hhead => ?_⟩
        exact (hrest '.' hhead).2.1 rfl
    | some e =>
        refine ⟨fun c hc => ?_, by simp [exponentText]⟩
        cases hc
        rfl
  have hfractionEnds :
      EndsDigits
        (fractionText fraction ++ (exponentText exponent ++ rest)) := by
    cases fraction with
    | none => exact hexponent.1
    | some ds =>
        intro c hc
        cases hc
        rfl
  obtain ⟨c, more, rfl⟩ := List.exists_cons_of_ne_nil hwhole.ne_nil
  have hminus : c ≠ '-' := by
    rintro rfl
    have hdigit := hwhole.digits '-' List.mem_cons_self
    revert hdigit
    decide
  have htake := takeWhile_digits hwhole.digits hfractionEnds
  have hdrop := dropWhile_digits hwhole.digits hfractionEnds
  have hscan := scanFraction_fractionText hfraction hexponent.1 hexponent.2
  have hscan' := scanExponent_exponentText exponent hrest
  generalize fractionText fraction ++ (exponentText exponent ++ rest) = text
    at *
  have hnotZero : ∀ d tl, c :: more = '0' :: d :: tl → False := by
    intro d tl heq
    cases heq
    exact hwhole.head '0' d tl rfl rfl
  cases negative with
  | true =>
      rw [if_pos rfl, List.cons_append, List.nil_append, scanNumber]
      simp only [htake, hdrop, hscan, hscan']
  | false =>
      rw [if_neg (by simp), List.nil_append, scanNumber]
      · simp only [htake, hdrop, hscan, hscan']
      · intro tl heq
        cases heq
        exact hminus rfl

/-! ## Which number is read -/

variable {x : Binary64}

/-- Digits with the value of the shortest decimal of a number are read as the
number. -/
theorem real_of_value_eq (hfinite : x.isFinite = true)
    (hzero : x.isZero = false) {digits : List Char} {e : ℤ}
    (hvalue : (decimalValue digits * 10 ^ e : ℚ) =
      (Decimal.shortest x).value) :
    (Binary64.ofDecimal x.isNegative (decimalValue digits) e).map
        Number.real = some (.real x) := by
  rw [Decimal.ofDecimal_of_value_eq hfinite hzero hvalue]
  rfl

/-- A fraction or an exponent makes a number real. -/
theorem numberOf_real (hfinite : x.isFinite = true)
    (hzero : x.isZero = false) {whole : List Char}
    {fraction : Option (List Char)} {exponent : Option ℤ}
    (hreal : fraction ≠ none ∨ exponent ≠ none)
    (hvalue : (decimalValue (whole ++ fraction.getD []) *
        10 ^ (exponent.getD 0 - (fraction.getD []).length) : ℚ) =
      (Decimal.shortest x).value) :
    numberOf x.isNegative whole fraction exponent = some (.real x) := by
  have hnumber := real_of_value_eq hfinite hzero hvalue
  cases fraction with
  | some ds => exact hnumber
  | none =>
      cases exponent with
      | some e => exact hnumber
      | none => simp at hreal

end Json

/-- The integer is within 64 bits, with or without a sign. -/
def Number.InRange (i : ℤ) : Prop := -2 ^ 63 ≤ i ∧ i < 2 ^ 64

instance (i : ℤ) : Decidable (Number.InRange i) :=
  inferInstanceAs (Decidable (_ ∧ _))

/-- The integer that a number is written as in canonical form, when it is
written without a point and an exponent. -/
def Binary64.written? (x : Binary64) : Option ℤ :=
  if x.isZero then some 0
  else
    let d := Decimal.shortest x
    let n : ℕ := d.digits * 10 ^ d.exponent.toNat
    if 0 ≤ d.exponent then some (if x.isNegative then -n else n) else none

/-- The number as it is after it was written in canonical form and read again:
a real number that was written as an integer within 64 bits is that integer
from then on. -/
def Number.settled : Number → Number
  | .int i => .int i
  | .real x =>
    match x.written? with
    | some i => if InRange i then .int i else .real x
    | none => .real x

namespace Json

open Text

variable {rest : List Char} {x : Binary64}

/-- Digits alone are read as an integer if they are within 64 bits. -/
theorem numberOf_whole (hfinite : x.isFinite = true)
    (hzero : x.isZero = false) (hexponent : 0 ≤ (Decimal.shortest x).exponent)
    {whole : List Char}
    (hwhole : decimalValue whole = (Decimal.shortest x).digits *
      10 ^ (Decimal.shortest x).exponent.toNat) :
    numberOf x.isNegative whole none none =
      some (Number.real x).settled := by
  have hvalue : (decimalValue whole * 10 ^ (0 : ℤ) : ℚ) =
      (Decimal.shortest x).value := by
    have hscale : (10 : ℚ) ^ (Decimal.shortest x).exponent =
        ((10 ^ (Decimal.shortest x).exponent.toNat : ℕ) : ℚ) :=
      zpow_of_nonneg 10 hexponent
    rw [zpow_zero, mul_one, hwhole, Decimal.value, hscale, Nat.cast_mul]
  have hreal := real_of_value_eq hfinite hzero hvalue
  have hpos : decimalValue whole ≠ 0 := by
    intro heq
    have hlow := Binary64.lowEnd_pos hzero
    have hcovers := (Decimal.covers_shortest hzero).low_le
    rw [← hvalue, heq, Nat.cast_zero, zero_mul] at hcovers
    linarith
  rw [Number.settled, Binary64.written?, if_neg (by simp [hzero])]
  simp only [if_pos hexponent, ← hwhole]
  rw [numberOf]
  dsimp only
  generalize decimalValue whole = n at *
  by_cases hnegative : x.isNegative = true
  · rw [hnegative] at hreal ⊢
    simp only [if_true]
    by_cases hrange : n ≤ Nat.pow 2 63
    · rw [if_pos ⟨hpos, hrange⟩, if_pos]
      rw [Nat.pow_eq] at hrange
      exact ⟨by omega, by omega⟩
    · rw [if_neg (fun h => hrange h.2), if_neg, hreal]
      rintro ⟨hlow, -⟩
      rw [Nat.pow_eq] at hrange
      omega
  · rw [Bool.not_eq_true] at hnegative
    rw [hnegative] at hreal ⊢
    simp only [Bool.false_eq_true, if_false]
    by_cases hrange : n < UInt64.size
    · rw [if_pos hrange, if_pos]
      rw [UInt64.size] at hrange
      exact ⟨by omega, by omega⟩
    · rw [if_neg hrange, if_neg, hreal]
      rintro ⟨-, hhigh⟩
      rw [UInt64.size] at hrange
      omega

/-- A number that is written with a point or an exponent stays what it is. -/
theorem settled_of_exponent_neg (hzero : x.isZero = false)
    (hexponent : (Decimal.shortest x).exponent < 0) :
    (Number.real x).settled = .real x := by
  rw [Number.settled, Binary64.written?, if_neg (by simp [hzero])]
  simp only [if_neg (not_le.2 hexponent)]

/-- A number that is too large to be written in place stays what it is. -/
theorem settled_of_large (hzero : x.isZero = false)
    (htop : 21 ≤ (Decimal.shortest x).exponent +
      (decimal (Decimal.shortest x).digits).length - 1) :
    (Number.real x).settled = .real x := by
  by_cases hexponent : 0 ≤ (Decimal.shortest x).exponent
  · have hdigits := Decimal.shortest_digits_pos hzero
    obtain ⟨hlow, -⟩ := Binary64.pow_length_toDigits hdigits
    have hlength : 0 < (decimal (Decimal.shortest x).digits).length :=
      Nat.length_toDigits_pos
    rw [Number.settled, Binary64.written?, if_neg (by simp [hzero])]
    simp only [if_pos hexponent]
    rw [decimal] at htop hlength
    generalize (Decimal.shortest x).digits = digits at *
    generalize (Decimal.shortest x).exponent = e at *
    have hlarge : 10 ^ 21 ≤ digits * 10 ^ e.toNat := by
      calc
        10 ^ 21 ≤ 10 ^ ((Nat.toDigits 10 digits).length - 1 + e.toNat) :=
          Nat.pow_le_pow_right (by norm_num) (by omega)
        _ = 10 ^ ((Nat.toDigits 10 digits).length - 1) * 10 ^ e.toNat :=
          pow_add _ _ _
        _ ≤ digits * 10 ^ e.toNat := Nat.mul_le_mul_right _ hlow
    generalize digits * 10 ^ e.toNat = n at *
    rw [if_neg]
    rintro ⟨hmin, hmax⟩
    by_cases hnegative : x.isNegative = true
    · rw [if_pos hnegative] at hmin
      omega
    · rw [if_neg hnegative] at hmax
      omega
  · exact settled_of_exponent_neg hzero (not_le.1 hexponent)

/-! ## Reading what was written -/

/-- The shortest digits of a number do not start with a zero. -/
theorem head_shortest (hzero : x.isZero = false) :
    ∃ c more, decimal (Decimal.shortest x).digits = c :: more ∧ c ≠ '0' :=
  head_decimal (Decimal.shortest_digits_pos hzero)

theorem digits_shortest (x : Binary64) :
    Digits (decimal (Decimal.shortest x).digits) :=
  digits_decimal (Decimal.shortest x).digits

theorem decimalValue_shortest (x : Binary64) :
    decimalValue (decimal (Decimal.shortest x).digits) =
      (Decimal.shortest x).digits :=
  decimalValue_decimal (Decimal.shortest x).digits

/-- A text with the value of the shortest decimal and with a fraction or an
exponent is read back as the number. -/
theorem scanNumber_real (hfinite : x.isFinite = true)
    (hzero : x.isZero = false) {whole : List Char}
    (fraction : Option (List Char)) (exponent : Option ℤ)
    (hwhole : Whole whole)
    (hfraction : ∀ ds, fraction = some ds → Digits ds ∧ ds ≠ [])
    (hreal : fraction ≠ none ∨ exponent ≠ none)
    (hvalue : (decimalValue (whole ++ fraction.getD []) *
        10 ^ (exponent.getD 0 - (fraction.getD []).length) : ℚ) =
      (Decimal.shortest x).value) (hrest : EndsNumber rest) :
    scanNumber ((if x.isNegative then ['-'] else []) ++
        (whole ++ (fractionText fraction ++ (exponentText exponent ++ rest)))) =
      some (.num (.real x), rest) := by
  rw [scanNumber_parts x.isNegative fraction exponent hwhole hfraction hrest,
    numberOf_real hfinite hzero hreal hvalue, numberTree]

/-- The digits with zeros behind them are read back as what they look like. -/
theorem scanNumber_zerosBehind (hfinite : x.isFinite = true)
    (hzero : x.isZero = false) (hrest : EndsNumber rest)
    (hexponent : 0 ≤ (Decimal.shortest x).exponent) :
    scanNumber ((if x.isNegative then ['-'] else []) ++
        (decimal (Decimal.shortest x).digits ++
          List.replicate (Decimal.shortest x).exponent.toNat '0' ++ rest)) =
      some (.num (Number.real x).settled, rest) := by
  have hall := (digits_shortest x).append
    (digits_zeros (Decimal.shortest x).exponent.toNat)
  have hwhole : Whole (decimal (Decimal.shortest x).digits ++
      List.replicate (Decimal.shortest x).exponent.toNat '0') := by
    obtain ⟨c, more, hhead, hc⟩ := head_shortest hzero
    rw [hhead] at hall ⊢
    exact .of_head hall hc
  have hread : decimalValue (decimal (Decimal.shortest x).digits ++
        List.replicate (Decimal.shortest x).exponent.toNat '0') =
      (Decimal.shortest x).digits *
        10 ^ (Decimal.shortest x).exponent.toNat := by
    rw [decimalValue_append, decimalValue_zeros, decimalValue_shortest,
      List.length_replicate, Nat.add_zero]
  have hscan := scanNumber_parts x.isNegative none none hwhole nofun hrest
  rw [numberOf_whole hfinite hzero hexponent hread] at hscan
  exact hscan

/-- The digits with a point among them are read back as the number. -/
theorem scanNumber_pointAmong (hfinite : x.isFinite = true)
    (hzero : x.isZero = false) (hrest : EndsNumber rest) {k : ℕ} (hk : 0 < k)
    (hexponent : (Decimal.shortest x).exponent < 0)
    (hshift :
      (((decimal (Decimal.shortest x).digits).drop k).length : ℤ) =
        -(Decimal.shortest x).exponent) :
    scanNumber ((if x.isNegative then ['-'] else []) ++
        ((decimal (Decimal.shortest x).digits).take k ++
          '.' :: (decimal (Decimal.shortest x).digits).drop k ++ rest)) =
      some (.num (.real x), rest) := by
  have hdigits := digits_shortest x
  have hwhole : Whole ((decimal (Decimal.shortest x).digits).take k) := by
    obtain ⟨c, more, hhead, hc⟩ := head_shortest hzero
    obtain ⟨k, rfl⟩ := Nat.exists_eq_succ_of_ne_zero hk.ne'
    have htake : Digits ((decimal (Decimal.shortest x).digits).take (k + 1)) :=
      fun c hc => hdigits c (List.mem_of_mem_take hc)
    rw [hhead, List.take_succ_cons] at htake ⊢
    exact .of_head htake hc
  have hscan := scanNumber_real hfinite hzero
    (some ((decimal (Decimal.shortest x).digits).drop k)) none hwhole ?_
    (Or.inl (by simp)) ?_ hrest
  · simpa [fractionText, exponentText] using hscan
  · rintro ds ⟨⟩
    refine ⟨fun c hc => hdigits c (List.mem_of_mem_drop hc), ?_⟩
    intro hnil
    rw [hnil, List.length_nil] at hshift
    omega
  · rw [Option.getD_some, Option.getD_none, List.take_append_drop,
      decimalValue_shortest, hshift, zero_sub, neg_neg]
    rfl

/-- The digits with a point and zeros in front are read back as the number. -/
theorem scanNumber_zerosInFront (hfinite : x.isFinite = true)
    (hzero : x.isZero = false) (hrest : EndsNumber rest) {k : ℕ}
    (hshift : ((k + (decimal (Decimal.shortest x).digits).length : ℕ) : ℤ) =
      -(Decimal.shortest x).exponent) :
    scanNumber ((if x.isNegative then ['-'] else []) ++
        ('0' :: '.' :: List.replicate k '0' ++
          decimal (Decimal.shortest x).digits ++ rest)) =
      some (.num (.real x), rest) := by
  have hzeroValue : decimalValue ['0'] = 0 := decimalValue_zeros 1
  have hscan := scanNumber_real hfinite hzero
    (some (List.replicate k '0' ++ decimal (Decimal.shortest x).digits)) none
    whole_zero ?_ (Or.inl (by simp)) ?_ hrest
  · simpa [fractionText, exponentText] using hscan
  · rintro ds ⟨⟩
    exact ⟨(digits_zeros k).append (digits_shortest x),
      List.append_ne_nil_of_right_ne_nil _ (decimal_ne_nil _)⟩
  · rw [Option.getD_some, Option.getD_none, decimalValue_append,
      decimalValue_append, decimalValue_zeros, hzeroValue,
      decimalValue_shortest, List.length_append, List.length_replicate, hshift,
      zero_sub, neg_neg, Nat.zero_mul, Nat.zero_mul, Nat.zero_add, Nat.zero_add]
    rfl

/-- The text of a number in place is read back. -/
theorem scanNumber_inPlace (hfinite : x.isFinite = true)
    (hzero : x.isZero = false) (hrest : EndsNumber rest) :
    let d := Decimal.shortest x
    let digits := decimal d.digits
    scanNumber ((if x.isNegative then ['-'] else []) ++
        (RealStyle.canonical.inPlace digits (d.exponent + digits.length - 1) ++
          rest)) =
      some (.num (Number.real x).settled, rest) := by
  intro d digits
  rw [RealStyle.inPlace]
  simp only [sub_add_cancel]
  by_cases hinteger : (digits.length : ℤ) ≤ d.exponent + digits.length
  · have hexponent : 0 ≤ d.exponent := by omega
    have hcount : (d.exponent + digits.length - digits.length).toNat =
        d.exponent.toNat := by
      congr 1
      ring
    have hscan := scanNumber_zerosBehind hfinite hzero hrest hexponent
    rw [if_pos hinteger, hcount]
    simpa [RealStyle.canonical] using hscan
  · have hexponent : d.exponent < 0 := by omega
    rw [if_neg hinteger, settled_of_exponent_neg hzero hexponent]
    by_cases hpoint : 0 < d.exponent + (digits.length : ℤ)
    · have hplace : 0 < (d.exponent + digits.length).toNat := by omega
      have hshift : ((digits.drop (d.exponent + digits.length).toNat).length :
          ℤ) = -d.exponent := by
        rw [List.length_drop]
        omega
      rw [if_pos hpoint]
      exact scanNumber_pointAmong hfinite hzero hrest hplace hexponent hshift
    · have hshift : (((-(d.exponent + digits.length)).toNat + digits.length :
          ℕ) : ℤ) = -d.exponent := by
        omega
      rw [if_neg hpoint]
      exact scanNumber_zerosInFront hfinite hzero hrest hshift

/-- The text of a number with an exponent is read back.  Its power of ten is
that of the first digit, which makes up for the digits after the point. -/
theorem scanNumber_scientific (hfinite : x.isFinite = true)
    (hzero : x.isZero = false) (hrest : EndsNumber rest) :
    let d := Decimal.shortest x
    let digits := decimal d.digits
    scanNumber ((if x.isNegative then ['-'] else []) ++
        (RealStyle.scientific digits (d.exponent + digits.length - 1) ++
          rest)) =
      some (.num (.real x), rest) := by
  intro d digits
  have hdigits : Digits digits := digits_shortest x
  have hvalue : decimalValue digits = d.digits := decimalValue_shortest x
  obtain ⟨c, more, hhead, hc⟩ : ∃ c more, digits = c :: more ∧ c ≠ '0' :=
    head_shortest hzero
  rw [hhead] at hdigits hvalue ⊢
  have hmore : Digits more := fun a ha => hdigits a (List.mem_cons_of_mem c ha)
  have hwhole : Whole [c] := by
    apply Whole.of_head ?_ hc
    intro a ha
    rw [List.mem_singleton.1 ha]
    exact hdigits c List.mem_cons_self
  have hexponent : d.exponent + ((c :: more).length : ℤ) - 1 - more.length =
      d.exponent := by
    rw [List.length_cons]
    push_cast
    ring
  rw [RealStyle.scientific]
  by_cases hnil : more = []
  · subst hnil
    have hscan := scanNumber_real hfinite hzero none
      (some (d.exponent + ([c].length : ℤ) - 1)) hwhole nofun
      (Or.inr (by simp)) ?_ hrest
    · simpa [fractionText, exponentText] using hscan
    · rw [Option.getD_none, Option.getD_some, List.append_nil, hvalue,
        hexponent]
      rfl
  · have hscan := scanNumber_real hfinite hzero (some more)
      (some (d.exponent + ((c :: more).length : ℤ) - 1)) hwhole ?_
      (Or.inr (by simp)) ?_ hrest
    · simpa [fractionText, exponentText, hnil] using hscan
    · rintro ds ⟨⟩
      exact ⟨hmore, hnil⟩
    · rw [Option.getD_some, Option.getD_some, List.singleton_append, hvalue,
        hexponent]
      rfl

/-- The text of a real number is read back as the number, or as the integer
that it looks like. -/
theorem scanNumber_render (hfinite : x.isFinite = true)
    (hrest : EndsNumber rest) :
    scanNumber (RealStyle.canonical.render x ++ rest) =
      some (.num (Number.real x).settled, rest) := by
  rw [RealStyle.render, if_neg (by simp [hfinite])]
  by_cases hzero : x.isZero = true
  · have hscan := scanNumber_parts false none none whole_zero nofun hrest
    have hsettled : (Number.real x).settled = .int 0 := by
      simp [Number.settled, Binary64.written?, hzero, Number.InRange]
    have hnumber : numberOf false ['0'] none none = some (.int 0) := rfl
    rw [hnumber] at hscan
    rw [if_pos hzero, hsettled]
    simpa [RealStyle.canonical, fractionText, exponentText, numberTree]
      using hscan
  · have hzero' : x.isZero = false := by simpa using hzero
    rw [if_neg hzero]
    dsimp only
    rw [List.append_assoc]
    by_cases hin : RealStyle.canonical.leastInPlace ≤
          (Decimal.shortest x).exponent +
            (decimal (Decimal.shortest x).digits).length - 1 ∧
        (Decimal.shortest x).exponent +
            (decimal (Decimal.shortest x).digits).length - 1 <
          RealStyle.canonical.firstBeyond
    · rw [if_pos hin]
      exact scanNumber_inPlace hfinite hzero' hrest
    · have hsettled : (Number.real x).settled = .real x := by
        by_cases hexponent : (Decimal.shortest x).exponent < 0
        · exact settled_of_exponent_neg hzero' hexponent
        · apply settled_of_large hzero'
          simp only [RealStyle.canonical] at hin
          have hlength : 0 < (decimal (Decimal.shortest x).digits).length :=
            Nat.length_toDigits_pos
          omega
      rw [if_neg hin, hsettled]
      exact scanNumber_scientific hfinite hzero' hrest

/-- The digits of an integer within 64 bits stand for the integer. -/
theorem numberOf_integer {i : ℤ} (hi : Number.InRange i) :
    numberOf (decide (i < 0)) (decimal i.natAbs) none none =
      some (.int i) := by
  obtain ⟨hlow, hhigh⟩ := hi
  have hvalue : decimalValue (decimal i.natAbs) = i.natAbs :=
    decimalValue_decimal i.natAbs
  rw [numberOf]
  simp only [hvalue]
  by_cases hnegative : i < 0
  · have hint : -(i.natAbs : ℤ) = i := by omega
    have hrange : i.natAbs ≠ 0 ∧ i.natAbs ≤ Nat.pow 2 63 := by
      rw [Nat.pow_eq]
      omega
    rw [if_pos (decide_eq_true hnegative), if_pos hrange, hint]
  · have hint : (i.natAbs : ℤ) = i := by omega
    have hrange : i.natAbs < UInt64.size := by
      rw [UInt64.size]
      omega
    rw [if_neg (by simpa using hnegative), if_pos hrange, hint]

/-- The text of an integer is read back. -/
theorem scanNumber_integerText {i : ℤ} (hi : Number.InRange i)
    (hrest : EndsNumber rest) :
    scanNumber (integerText i ++ rest) = some (.num (.int i), rest) := by
  have hwhole : Whole (decimal i.natAbs) := by
    by_cases hzero : i = 0
    · subst hzero
      exact whole_zero
    · obtain ⟨c, more, heq, hc⟩ := head_decimal (n := i.natAbs) (by omega)
      have hdigits := digits_decimal i.natAbs
      rw [heq] at hdigits ⊢
      exact .of_head hdigits hc
  have hscan := scanNumber_parts (decide (i < 0)) none none hwhole nofun hrest
  rw [numberOf_integer hi] at hscan
  rw [integerText]
  by_cases hnegative : i < 0
  · simpa [hnegative, fractionText, exponentText, numberTree] using hscan
  · simpa [hnegative, fractionText, exponentText, numberTree] using hscan

end Json

/-- The number is one that a value can hold. -/
def Number.IsValid : Number → Prop
  | .int i => InRange i
  | .real x => x.isFinite = true

/-- The canonical form of a number is read back as the settled number. -/
theorem Json.scanNumber_written {n : Number} (hn : n.IsValid) {rest : List Char}
    (hrest : EndsNumber rest) : scanNumber (n.written .canonical ++ rest) =
    some (.num n.settled, rest) := by
  cases n with
  | int i => exact scanNumber_integerText hn hrest
  | real x => exact scanNumber_render hn hrest

end CallGate
