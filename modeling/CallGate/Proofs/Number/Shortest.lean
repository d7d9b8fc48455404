import CallGate.Number.Shortest
import CallGate.Proofs.Number.Rounding

/-!
# Shortest decimals are read back

The grid of seventeen digits is finer than the rationals that a number stands
for are wide, so the search for the shortest decimal finds one among them.
Zeros at the end are dropped without changing its value.
-/

namespace CallGate

namespace Decimal

variable {n num den : ℕ} {e : ℤ} {i : Interval} {x : Binary64}

/-- The value of a decimal. -/
def value (d : Decimal) : ℚ := d.digits * 10 ^ d.exponent

theorem atMost_iff (hden : 0 < den) :
    atMost n e num den = true ↔ (n * 10 ^ e : ℚ) ≤ num / den := by
  have hiff := mul_zpow_le_div_iff num (b := 10) (n := n)
    (by norm_num) hden e
  rw [Nat.cast_ofNat] at hiff
  rw [hiff, atMost]
  split <;> simp [Nat.pow_eq]

theorem atLeast_iff (hden : 0 < den) :
    atLeast n e num den = true ↔ (num / den : ℚ) ≤ n * 10 ^ e := by
  have hiff := div_le_mul_zpow_iff num (b := 10) (n := n)
    (by norm_num) hden e
  rw [Nat.cast_ofNat] at hiff
  rw [hiff, atLeast]
  split <;> simp [Nat.pow_eq]

theorem decimalExponent_spec (hnum : 0 < num) (hden : 0 < den) :
    (10 : ℚ) ^ decimalExponent num den ≤ num / den := by
  have hden' : (0 : ℚ) < den := by exact_mod_cast hden
  rw [decimalExponent]
  split
  · rename_i hle
    simpa using (atMost_iff hden).1 hle
  · obtain ⟨hnumLow, -⟩ := Binary64.zpow_le_decimal hnum 0
    obtain ⟨-, hdenHigh⟩ := Binary64.zpow_le_decimal hden 0
    simp only [zero_add, zpow_zero, mul_one] at hnumLow hdenHigh
    rw [sub_right_comm]
    exact zpow_sub_le_div (by norm_num) hden' hnumLow hdenHigh.le

/-! ## The interval of a number -/

/-- A power of two with any exponent as a quotient. -/
theorem zpow_eq_div (q : ℤ) :
    (2 : ℚ) ^ q = ((2 ^ q.toNat : ℕ) : ℚ) / ((2 ^ (-q).toNat : ℕ) : ℚ) := by
  by_cases hq : 0 ≤ q
  · have hzero : (-q).toNat = 0 := by omega
    have hscale : (2 : ℚ) ^ q = ((2 ^ q.toNat : ℕ) : ℚ) := zpow_of_nonneg 2 hq
    rw [hscale, hzero, pow_zero, Nat.cast_one, div_one]
  · have hzero : q.toNat = 0 := by omega
    have hscale : (2 : ℚ) ^ q = ((2 ^ (-q).toNat : ℕ) : ℚ)⁻¹ :=
      zpow_of_neg 2 (by omega)
    rw [hscale, hzero, pow_zero, Nat.cast_one, one_div]

theorem magnitude_eq_div (x : Binary64) :
    x.magnitude = ((x.significand * Nat.pow 2 x.power.toNat : ℕ) : ℚ) /
      ((Nat.pow 2 (-x.power).toNat : ℕ) : ℚ) := by
  rw [Binary64.magnitude, zpow_eq_div, Nat.pow_eq, Nat.pow_eq, Nat.cast_mul,
    mul_div_assoc]

theorem roundingInterval_scale_pos (x : Binary64) :
    0 < (roundingInterval x).scale :=
  Nat.mul_pos (by norm_num) (Nat.two_pow_pos _)

theorem roundingInterval_low (h : x.isZero = false) :
    ((roundingInterval x).low / (roundingInterval x).scale : ℚ) =
      x.lowEnd := by
  have hpos : 0 < x.significand := Binary64.significand_pos h
  rw [roundingInterval, Binary64.lowEnd, zpow_eq_div]
  simp only [Nat.pow_eq]
  by_cases hstart : x.isBinadeStart = true
  · rw [if_pos hstart, if_pos hstart, Nat.cast_mul, Nat.cast_mul,
      Nat.cast_sub (by omega), Nat.cast_mul]
    push_cast
    ring
  · rw [if_neg hstart, if_neg hstart, Nat.cast_mul, Nat.cast_mul,
      Nat.cast_sub (by omega), Nat.cast_mul]
    push_cast
    ring

theorem roundingInterval_high (x : Binary64) :
    ((roundingInterval x).high / (roundingInterval x).scale : ℚ) =
      x.highEnd := by
  rw [roundingInterval, Binary64.highEnd, zpow_eq_div]
  simp only [Nat.pow_eq]
  push_cast
  ring

/-- What lies in the interval of a number is what the number covers. -/
theorem holds_roundingInterval_iff (h : x.isZero = false) :
    (roundingInterval x).holds n e = true ↔ x.Covers (n * 10 ^ e) := by
  have hscale := roundingInterval_scale_pos x
  have hclosed : (roundingInterval x).closed = true ↔
      x.significand % 2 = 0 := by
    rw [roundingInterval, beq_iff_eq]
  rw [Interval.holds]
  split
  · rename_i heven
    rw [Bool.and_eq_true, atLeast_iff hscale, atMost_iff hscale,
      roundingInterval_low h, roundingInterval_high]
    constructor
    · rintro ⟨hlow, hhigh⟩
      exact ⟨hlow, hhigh, Or.inl (hclosed.1 heven)⟩
    · intro hcovers
      exact ⟨hcovers.low_le, hcovers.le_high⟩
  · rename_i hodd
    rw [Bool.and_eq_true, Bool.not_eq_true', Bool.not_eq_true',
      ← Bool.not_eq_true, ← Bool.not_eq_true, atMost_iff hscale,
      atLeast_iff hscale, roundingInterval_low h, roundingInterval_high,
      not_le, not_le]
    constructor
    · rintro ⟨hlow, hhigh⟩
      exact ⟨hlow.le, hhigh.le, Or.inr ⟨hlow, hhigh⟩⟩
    · intro hcovers
      exact hcovers.ties.resolve_left fun heven => hodd (hclosed.2 heven)

/-- The ends of a number are further apart than the last of its seventeen
digits. -/
theorem lt_highEnd_sub_lowEnd {unit : ℚ}
    (hunit : unit * 10 ^ 16 ≤ x.magnitude) :
    unit < x.highEnd - x.lowEnd := by
  have hpow : (0 : ℚ) < 2 ^ x.power := by positivity
  have hlt : (x.significand : ℚ) < 2 ^ 53 := by
    exact_mod_cast x.significand_lt
  rw [Binary64.magnitude] at hunit
  rw [Binary64.highEnd, Binary64.lowEnd, ← sub_mul]
  split
  · rename_i hstart
    have hsignificand : (x.significand : ℚ) = 2 ^ 52 := by
      exact_mod_cast (Binary64.significand_of_isBinadeStart hstart).1
    rw [hsignificand] at hunit ⊢
    linarith
  · have hless : (x.significand : ℚ) * 2 ^ x.power < 2 ^ 53 * 2 ^ x.power :=
      mul_lt_mul_of_pos_right hlt hpow
    linarith

/-! ## The search -/

theorem holds_of_choice {a b : ℕ}
    (h : (if i.holds a e then some a
      else if i.holds b e then some b else none) = some n) :
    i.holds n e = true := by
  by_cases ha : i.holds a e = true
  · rw [if_pos ha] at h
    rwa [← Option.some.inj h]
  · rw [if_neg ha] at h
    by_cases hb : i.holds b e = true
    · rw [if_pos hb] at h
      rwa [← Option.some.inj h]
    · rw [if_neg hb] at h
      cases h

theorem holds_of_gridPoint (h : gridPoint i num den e = some n) :
    i.holds n e = true :=
  holds_of_choice h

/-- The points of a grid around a quotient. -/
theorem exists_floor (hden : 0 < den) (e : ℤ) :
    let above := if 0 ≤ e then num else num * Nat.pow 10 (-e).toNat
    let unit := if 0 ≤ e then den * Nat.pow 10 e.toNat else den
    ((above / unit : ℕ) * 10 ^ e : ℚ) ≤ num / den ∧
      (num / den : ℚ) < ((above / unit + 1 : ℕ) : ℚ) * 10 ^ e := by
  intro above unit
  have hden' : (0 : ℚ) < den := by exact_mod_cast hden
  have hstep : (0 : ℚ) < 10 ^ e := by positivity
  have hunit : 0 < unit := by
    show 0 < if 0 ≤ e then den * Nat.pow 10 e.toNat else den
    split
    · exact Nat.mul_pos hden (Nat.pow_pos (by norm_num))
    · exact hden
  have hunit' : (0 : ℚ) < unit := by exact_mod_cast hunit
  have hquotient : (num / den : ℚ) / 10 ^ e = above / unit := by
    by_cases he : 0 ≤ e
    · have hscale : (10 : ℚ) ^ e = ((10 ^ e.toNat : ℕ) : ℚ) :=
        zpow_of_nonneg 10 he
      simp only [above, unit, if_pos he, hscale, Nat.pow_eq]
      rw [div_div, Nat.cast_mul]
    · have hscale : (10 : ℚ) ^ e = ((10 ^ (-e).toNat : ℕ) : ℚ)⁻¹ :=
        zpow_of_neg 10 (by omega)
      simp only [above, unit, if_neg he, hscale, Nat.pow_eq]
      rw [div_inv_eq_mul, div_mul_eq_mul_div, Nat.cast_mul]
  rw [← le_div_iff₀ hstep, ← div_lt_iff₀ hstep, hquotient, le_div_iff₀ hunit',
    div_lt_iff₀ hunit']
  constructor
  · exact_mod_cast Nat.div_mul_le_self above unit
  · have hlt : above < (above / unit + 1) * unit := by
      rw [Nat.add_mul, Nat.one_mul]
      exact Nat.lt_div_mul_add hunit
    exact_mod_cast hlt

/-- A grid that is fine enough has a point that the number covers: one of the
two around it. -/
theorem exists_gridPoint (hzero : x.isZero = false) (hden : 0 < den)
    (hvalue : x.magnitude = num / den)
    (hfine : (10 : ℚ) ^ e * 10 ^ 16 ≤ x.magnitude) :
    ∃ n, gridPoint (roundingInterval x) num den e = some n := by
  have hpow : (0 : ℚ) < 2 ^ x.power := by positivity
  have hwide := lt_highEnd_sub_lowEnd hfine
  have hlow : x.lowEnd < x.magnitude := by
    apply mul_lt_mul_of_pos_right _ hpow
    split <;> linarith
  have hhigh : x.magnitude < x.highEnd := by
    apply mul_lt_mul_of_pos_right _ hpow
    linarith
  obtain ⟨hfloor, hceil⟩ := exists_floor hden e
  rw [← hvalue] at hfloor hceil
  rw [gridPoint]
  generalize (if 0 ≤ e then num else num * Nat.pow 10 (-e).toNat) = above at *
  generalize (if 0 ≤ e then den * Nat.pow 10 e.toNat else den) = unit at *
  generalize above / unit = lower at *
  have hcovered : (roundingInterval x).holds lower e = true ∨
      (roundingInterval x).holds (lower + 1) e = true := by
    rw [holds_roundingInterval_iff hzero, holds_roundingInterval_iff hzero]
    by_cases hbelow : x.lowEnd < lower * 10 ^ e
    · left
      have hless : (lower * 10 ^ e : ℚ) < x.highEnd := hfloor.trans_lt hhigh
      exact ⟨hbelow.le, hless.le, Or.inr ⟨hbelow, hless⟩⟩
    · right
      have hmore : x.lowEnd < ((lower + 1 : ℕ) : ℚ) * 10 ^ e :=
        hlow.trans hceil
      have hless : ((lower + 1 : ℕ) : ℚ) * 10 ^ e < x.highEnd := by
        push_cast
        linarith
      exact ⟨hmore.le, hless.le, Or.inr ⟨hmore, hless⟩⟩
  generalize (decide (2 * (above % unit) < unit) ||
    2 * (above % unit) == unit && lower % 2 == 0) = below
  cases below with
  | true =>
      simp only [if_true]
      rcases hcovered with h | h
      · simp [h]
      · by_cases hnearer : (roundingInterval x).holds lower e = true
        · simp [hnearer]
        · simp [hnearer, h]
  | false =>
      simp only [Bool.false_eq_true, if_false]
      have hne : lower + 1 ≠ lower := by omega
      rcases hcovered with h | h
      · by_cases hnearer : (roundingInterval x).holds (lower + 1) e = true
        · simp [hnearer]
        · simp [hnearer, h]
      · simp [h]

/-- The search finds a point when one of the grids that it tries has one. -/
theorem holds_searchGrids {top : ℤ} {fuel tried k : ℕ} (hk : tried ≤ k)
    (hfuel : k < tried + fuel)
    (hpoint : ∃ n, gridPoint i num den (top - k) = some n) :
    i.holds (searchGrids i num den top fuel tried).digits
      (searchGrids i num den top fuel tried).exponent = true := by
  induction fuel generalizing tried with
  | zero => omega
  | succ fuel ih =>
      rw [searchGrids]
      split
      · rename_i n hn
        exact holds_of_gridPoint hn
      · rename_i hnone
        have hne : tried ≠ k := by
          rintro rfl
          obtain ⟨n, hn⟩ := hpoint
          rw [hnone] at hn
          cases hn
        exact ih (by omega) (by omega)

theorem value_dropZeros (fuel : ℕ) (d : Decimal) :
    (dropZeros fuel d).value = d.value := by
  induction fuel generalizing d with
  | zero => rfl
  | succ fuel ih =>
      rw [dropZeros]
      split
      · rename_i hzero
        have hdigits : (d.digits : ℚ) = 10 * (d.digits / 10 : ℕ) := by
          exact_mod_cast (by omega : d.digits = 10 * (d.digits / 10))
        rw [ih, value, value, hdigits, zpow_add₀ (by norm_num), zpow_one]
        ring
      · rfl

/-- A number covers its shortest decimal. -/
theorem covers_shortest (hzero : x.isZero = false) :
    x.Covers (shortest x).value := by
  have hnum : 0 < x.significand * Nat.pow 2 x.power.toNat :=
    Nat.mul_pos (Binary64.significand_pos hzero) (Nat.two_pow_pos _)
  have hden : 0 < Nat.pow 2 (-x.power).toNat := Nat.two_pow_pos _
  have htop := decimalExponent_spec hnum hden
  rw [← magnitude_eq_div] at htop
  rw [shortest, value_dropZeros, value, ← holds_roundingInterval_iff hzero]
  apply holds_searchGrids (k := 16) (Nat.zero_le _) (by norm_num)
  apply exists_gridPoint hzero hden (magnitude_eq_div x)
  refine le_trans (le_of_eq ?_) htop
  rw [← zpow_natCast, ← zpow_add₀ (by norm_num)]
  congr 1
  push_cast
  ring

theorem shortest_digits_pos (hzero : x.isZero = false) :
    0 < (shortest x).digits := by
  have hpos : 0 < (shortest x).value :=
    (Binary64.lowEnd_pos hzero).trans_le (covers_shortest hzero).low_le
  have hunit : (0 : ℚ) < 10 ^ (shortest x).exponent := by positivity
  exact_mod_cast (mul_pos_iff_of_pos_right hunit).1 hpos

/-- Reading the shortest decimal of a number gives the number. -/
theorem ofDecimal_of_value_eq {digits : ℕ} {exponent : ℤ}
    (hfinite : x.isFinite = true) (hzero : x.isZero = false)
    (hvalue : (digits * 10 ^ exponent : ℚ) = (shortest x).value) :
    Binary64.ofDecimal x.isNegative digits exponent = some x := by
  have hcovers : x.Covers (digits * 10 ^ exponent) := by
    rw [hvalue]
    exact covers_shortest hzero
  rw [hcovers.ofDecimal_eq hfinite hzero, Binary64.ofMagnitude_magnitudeBits]

end Decimal

end CallGate
