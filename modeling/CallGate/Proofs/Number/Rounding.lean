import CallGate.Number.Binary64
import Mathlib.Algebra.Order.Field.Power
import Mathlib.Data.Rat.Cast.Order
import Mathlib.Tactic.FieldSimp
import Mathlib.Tactic.Linarith
import Mathlib.Tactic.NormNum
import Mathlib.Tactic.Positivity
import Mathlib.Tactic.Ring

/-!
# Rounding to the nearest number

A number stands for all rationals that are nearer to it than to any other one.
Its significand and power give the two ends of their interval, and rounding
takes every rational between the ends back to the number.
-/

namespace CallGate

/-! ## Powers as fractions -/

theorem zpow_of_nonneg (b : ℕ) {e : ℤ} (he : 0 ≤ e) :
    (b : ℚ) ^ e = ((b ^ e.toNat : ℕ) : ℚ) := by
  have hcast : e = (e.toNat : ℤ) := (Int.toNat_of_nonneg he).symm
  rw [Nat.cast_pow, ← zpow_natCast, ← hcast]

theorem zpow_of_neg (b : ℕ) {e : ℤ} (he : e < 0) :
    (b : ℚ) ^ e = ((b ^ (-e).toNat : ℕ) : ℚ)⁻¹ := by
  rw [← zpow_of_nonneg b (by omega), zpow_neg, inv_inv]

theorem two_zpow_add (e : ℤ) (k : ℕ) :
    (2 : ℚ) ^ (e + k) = 2 ^ k * 2 ^ e := by
  rw [zpow_add₀ (by norm_num), zpow_natCast, mul_comm]

/-- Powers around two numbers give powers around their quotient. -/
theorem zpow_sub_le_div {b num den : ℚ} {m n : ℤ} (hb : 0 < b) (hden : 0 < den)
    (hnum : b ^ m ≤ num) (hhigh : den ≤ b ^ n) : b ^ (m - n) ≤ num / den := by
  rw [le_div_iff₀ hden]
  calc
    b ^ (m - n) * den ≤ b ^ (m - n) * b ^ n :=
      mul_le_mul_of_nonneg_left hhigh (zpow_pos hb _).le
    _ = b ^ m := by rw [← zpow_add₀ hb.ne', sub_add_cancel]
    _ ≤ num := hnum

theorem div_lt_zpow_sub {b num den : ℚ} {m n : ℤ} (hb : 0 < b) (hden : 0 < den)
    (hnum : num < b ^ m) (hlow : b ^ n ≤ den) : num / den < b ^ (m - n) := by
  rw [div_lt_iff₀ hden]
  calc
    num < b ^ m := hnum
    _ = b ^ (m - n) * b ^ n := by rw [← zpow_add₀ hb.ne', sub_add_cancel]
    _ ≤ b ^ (m - n) * den :=
      mul_le_mul_of_nonneg_left hlow (zpow_pos hb _).le

/-- A power with any exponent compared with a fraction, by natural numbers. -/
theorem mul_zpow_le_div_iff (num : ℕ) {b n den : ℕ} (hb : 0 < b)
    (hden : 0 < den) (e : ℤ) :
    (n : ℚ) * (b : ℚ) ^ e ≤ num / den ↔
      if 0 ≤ e then n * b ^ e.toNat * den ≤ num
      else n * den ≤ num * b ^ (-e).toNat := by
  have hden' : (0 : ℚ) < den := by exact_mod_cast hden
  split
  · rename_i he
    rw [zpow_of_nonneg b he, le_div_iff₀ hden']
    exact_mod_cast Iff.rfl
  · rename_i he
    have hpow : (0 : ℚ) < ((b ^ (-e).toNat : ℕ) : ℚ) := by
      exact_mod_cast Nat.pow_pos hb
    rw [zpow_of_neg b (by omega), ← div_eq_mul_inv, div_le_div_iff₀ hpow hden']
    exact_mod_cast Iff.rfl

theorem div_le_mul_zpow_iff (num : ℕ) {b n den : ℕ} (hb : 0 < b)
    (hden : 0 < den) (e : ℤ) :
    (num / den : ℚ) ≤ (n : ℚ) * (b : ℚ) ^ e ↔
      if 0 ≤ e then num ≤ n * b ^ e.toNat * den
      else num * b ^ (-e).toNat ≤ n * den := by
  have hden' : (0 : ℚ) < den := by exact_mod_cast hden
  split
  · rename_i he
    rw [zpow_of_nonneg b he, div_le_iff₀ hden']
    exact_mod_cast Iff.rfl
  · rename_i he
    have hpow : (0 : ℚ) < ((b ^ (-e).toNat : ℕ) : ℚ) := by
      exact_mod_cast Nat.pow_pos hb
    rw [zpow_of_neg b (by omega), ← div_eq_mul_inv, div_le_div_iff₀ hden' hpow]
    exact_mod_cast Iff.rfl

namespace Binary64

/-! ## The parts of a number -/

variable {x : Binary64} {num den : ℕ}

/-- The bits without the sign. -/
def magnitudeBits (x : Binary64) : ℕ :=
  x.exponentBits * 2 ^ 52 + x.fractionBits

/-- The magnitude of a finite number. -/
def magnitude (x : Binary64) : ℚ := x.significand * 2 ^ x.power

theorem fractionBits_lt (x : Binary64) : x.fractionBits < 2 ^ 52 :=
  Nat.mod_lt _ (by decide)

theorem exponentBits_lt (h : x.isFinite = true) : x.exponentBits < 2047 := by
  have hlt : x.exponentBits < 2 ^ 11 := Nat.mod_lt _ (by decide)
  have hne : x.exponentBits ≠ 2047 := by simpa [isFinite] using h
  omega

theorem significand_lt (x : Binary64) : x.significand < 2 ^ 53 := by
  have hfraction := x.fractionBits_lt
  rw [significand]
  split
  · omega
  · rw [Nat.pow_eq]
    omega

theorem significand_pos (h : x.isZero = false) : 0 < x.significand := by
  rw [significand]
  split
  · rename_i hexponent
    have hne : x.fractionBits ≠ 0 := by simpa [isZero, hexponent] using h
    omega
  · rw [Nat.pow_eq]
    omega

theorem power_ge (x : Binary64) : -1074 ≤ x.power := by
  rw [power]
  split <;> omega

theorem power_le (h : x.isFinite = true) : x.power ≤ 971 := by
  have hlt := exponentBits_lt h
  rw [power]
  split <;> omega

/-- A number is its sign and the bits of its magnitude. -/
theorem ofMagnitude_magnitudeBits (x : Binary64) :
    ofMagnitude x.isNegative x.magnitudeBits = x := by
  have hlt : x.bits.toNat < 2 ^ 64 := x.bits.toNat_lt
  have hbits : x.magnitudeBits + (if x.isNegative then Nat.pow 2 63 else 0) =
      x.bits.toNat := by
    rw [magnitudeBits, exponentBits, fractionBits, isNegative]
    simp only [Nat.pow_eq, decide_eq_true_eq]
    split <;> omega
  rw [ofMagnitude, hbits]
  cases x
  simp

/-! ## Rounding a quotient -/

/-- A quotient less than half away from an integer is rounded to it, and so is
one that is half away when the integer is even. -/
theorem roundHalfEven_eq {n : ℕ} (hden : 0 < den)
    (hlow : 2 * n * den ≤ 2 * num + den)
    (hhigh : 2 * num ≤ 2 * n * den + den)
    (hties : n % 2 = 0 ∨
      2 * n * den < 2 * num + den ∧ 2 * num < 2 * n * den + den) :
    roundHalfEven num den = n := by
  have hdiv : den * (num / den) + num % den = num := Nat.div_add_mod num den
  have hmod : num % den < den := Nat.mod_lt num hden
  rw [roundHalfEven]
  generalize num / den = quotient at *
  generalize num % den = rest at *
  subst hdiv
  have hcases : n = quotient ∨ n = quotient + 1 := by
    have hle : n * den < (quotient + 2) * den := by nlinarith
    have hge : quotient * den < (n + 1) * den := by nlinarith
    have hle' := Nat.lt_of_mul_lt_mul_right hle
    have hge' := Nat.lt_of_mul_lt_mul_right hge
    omega
  rcases hcases with rfl | rfl
  · have hrest : 2 * rest ≤ den := by nlinarith
    rcases hties with heven | ⟨-, hlt⟩
    · rw [if_pos]
      rcases Nat.lt_or_eq_of_le hrest with hlt | heq
      · simp [hlt]
      · simp [heq, heven]
    · have hlt' : 2 * rest < den := by nlinarith
      rw [if_pos (by simp [hlt'])]
  · have hrest : den ≤ 2 * rest := by nlinarith
    rw [if_neg]
    rcases hties with heven | ⟨hlt, -⟩
    · have hodd : quotient % 2 = 1 := by omega
      simp [hodd, hrest]
    · have hlt' : den < 2 * rest := by nlinarith
      simp [Nat.le_of_lt hlt', Nat.ne_of_gt hlt']

theorem roundHalfEven_of_div {n : ℕ} (hden : 0 < den)
    (hlow : (n : ℚ) - 1 / 2 ≤ num / den)
    (hhigh : (num / den : ℚ) ≤ n + 1 / 2)
    (hties : n % 2 = 0 ∨
      (n : ℚ) - 1 / 2 < num / den ∧ (num / den : ℚ) < n + 1 / 2) :
    roundHalfEven num den = n := by
  have hden' : (0 : ℚ) < den := by exact_mod_cast hden
  rw [le_div_iff₀ hden'] at hlow
  rw [div_le_iff₀ hden'] at hhigh
  rw [lt_div_iff₀ hden', div_lt_iff₀ hden'] at hties
  apply roundHalfEven_eq hden
  · have hle : (2 * n * den : ℚ) ≤ 2 * num + den := by linarith
    exact_mod_cast hle
  · have hle : (2 * num : ℚ) ≤ 2 * n * den + den := by linarith
    exact_mod_cast hle
  · apply hties.imp_right
    rintro ⟨hl, hh⟩
    have hlt : (2 * n * den : ℚ) < 2 * num + den := by linarith
    have hlt' : (2 * num : ℚ) < 2 * n * den + den := by linarith
    exact ⟨by exact_mod_cast hlt, by exact_mod_cast hlt'⟩

/-- A number lies between the powers of two around its first bit. -/
theorem zpow_log2 {n : ℕ} (hn : 0 < n) :
    (2 : ℚ) ^ (n.log2 : ℤ) ≤ n ∧ (n : ℚ) < 2 ^ ((n.log2 : ℤ) + 1) := by
  have hlow : 2 ^ n.log2 ≤ n := Nat.log2_self_le hn.ne'
  have hhigh : n < 2 ^ (n.log2 + 1) := Nat.lt_log2_self
  constructor
  · rw [zpow_natCast]
    exact_mod_cast hlow
  · exact_mod_cast hhigh

theorem binaryExponent_spec (hnum : 0 < num) (hden : 0 < den) :
    (2 : ℚ) ^ binaryExponent num den ≤ num / den ∧
      (num / den : ℚ) < 2 ^ (binaryExponent num den + 1) := by
  have htwo : (0 : ℚ) < 2 := by norm_num
  have hden' : (0 : ℚ) < den := by exact_mod_cast hden
  obtain ⟨hnumLow, hnumHigh⟩ := zpow_log2 hnum
  obtain ⟨hdenLow, hdenHigh⟩ := zpow_log2 hden
  have hlow : (2 : ℚ) ^ ((num.log2 : ℤ) - den.log2 - 1) ≤ num / den := by
    rw [sub_sub]
    exact zpow_sub_le_div htwo hden' hnumLow hdenHigh.le
  have hhigh : (num / den : ℚ) < 2 ^ ((num.log2 : ℤ) - den.log2 + 1) := by
    rw [sub_add_eq_add_sub]
    exact div_lt_zpow_sub htwo hden' hnumHigh hdenLow
  have hreached (e : ℤ) : (2 : ℚ) ^ e ≤ num / den ↔
      if 0 ≤ e then den * Nat.pow 2 e.toNat ≤ num
      else den ≤ num * Nat.pow 2 (-e).toNat := by
    have hiff := mul_zpow_le_div_iff num (b := 2) (n := 1)
      (by norm_num) hden e
    simpa [Nat.mul_comm den] using hiff
  by_cases hle : (2 : ℚ) ^ ((num.log2 : ℤ) - den.log2) ≤ num / den
  · have hexponent : binaryExponent num den = (num.log2 : ℤ) - den.log2 :=
      if_pos ((hreached _).1 hle)
    rw [hexponent]
    exact ⟨hle, hhigh⟩
  · have hexponent : binaryExponent num den =
        (num.log2 : ℤ) - den.log2 - 1 :=
      if_neg fun hreach => hle ((hreached _).2 hreach)
    rw [hexponent, sub_add_cancel]
    exact ⟨hlow, lt_of_not_ge hle⟩

/-! ## The rationals that a number stands for -/

/-- The lower end of the rationals that round to a number.  Below the start of
a binade the numbers are nearer to each other. -/
def lowEnd (x : Binary64) : ℚ :=
  (x.significand - if x.isBinadeStart then 1 / 4 else 1 / 2) * 2 ^ x.power

/-- The upper end of the rationals that round to a number. -/
def highEnd (x : Binary64) : ℚ := (x.significand + 1 / 2) * 2 ^ x.power

/-- The rational lies between the ends of a number.  The ends belong to it
when its significand is even. -/
structure Covers (x : Binary64) (v : ℚ) : Prop where
  low_le : x.lowEnd ≤ v
  le_high : v ≤ x.highEnd
  ties : x.significand % 2 = 0 ∨ x.lowEnd < v ∧ v < x.highEnd

theorem isBinadeStart_iff :
    x.isBinadeStart = true ↔ x.fractionBits = 0 ∧ 1 < x.exponentBits := by
  simp [isBinadeStart]

theorem significand_of_isBinadeStart (h : x.isBinadeStart = true) :
    x.significand = 2 ^ 52 ∧ x.power = (x.exponentBits : ℤ) - 1075 ∧
      1 < x.exponentBits := by
  obtain ⟨hfraction, hexponent⟩ := isBinadeStart_iff.1 h
  have hne : x.exponentBits ≠ 0 := by omega
  refine ⟨?_, if_neg hne, hexponent⟩
  rw [significand, if_neg hne, hfraction, Nat.pow_eq, Nat.add_zero]

/-- Above the lowest power the significand has its leading bit, and more than
that unless a binade starts. -/
theorem lt_significand (hstart : x.isBinadeStart = false)
    (hpower : x.power ≠ -1074) : 2 ^ 52 < x.significand := by
  have hexponent : 1 < x.exponentBits := by
    rw [power] at hpower
    split at hpower
    · exact absurd rfl hpower
    · omega
  have hfraction : x.fractionBits ≠ 0 := by
    intro hzero
    have hstart' := isBinadeStart_iff.2 ⟨hzero, hexponent⟩
    rw [hstart] at hstart'
    cases hstart'
  rw [significand, if_neg (by omega), Nat.pow_eq]
  omega

theorem magnitudeBits_eq (x : Binary64) :
    x.magnitudeBits = (x.power + 1074).toNat * 2 ^ 52 + x.significand := by
  rw [magnitudeBits, power, significand, Nat.pow_eq]
  split
  · rename_i hzero
    rw [hzero]
    simp
  · rename_i hne
    have hshift : ((x.exponentBits : ℤ) - 1075 + 1074).toNat =
        x.exponentBits - 1 := by
      omega
    rw [hshift]
    omega

theorem lowEnd_ge (x : Binary64) :
    ((x.significand : ℚ) - 1 / 2) * 2 ^ x.power ≤ x.lowEnd := by
  have hpow : (0 : ℚ) < 2 ^ x.power := by positivity
  apply mul_le_mul_of_nonneg_right _ hpow.le
  split <;> linarith

theorem lowEnd_pos (h : x.isZero = false) : 0 < x.lowEnd := by
  have hpow : (0 : ℚ) < 2 ^ x.power := by positivity
  have hone : (1 : ℚ) ≤ x.significand := by
    exact_mod_cast significand_pos h
  apply mul_pos _ hpow
  split <;> linarith

theorem highEnd_lt (x : Binary64) : x.highEnd < 2 ^ (x.power + 53) := by
  have hpow : (0 : ℚ) < 2 ^ x.power := by positivity
  have hlt : (x.significand : ℚ) + 1 ≤ 2 ^ 53 := by
    exact_mod_cast x.significand_lt
  have hfactor : (2 : ℚ) ^ (x.power + 53) = 2 ^ 53 * 2 ^ x.power :=
    two_zpow_add x.power 53
  rw [highEnd, hfactor]
  apply mul_lt_mul_of_pos_right _ hpow
  linarith

/-- Rounding with a power of two for the unit. -/
theorem roundHalfEven_scaled {n : ℕ} {p : ℤ} (hden : 0 < den)
    (hlow : ((n : ℚ) - 1 / 2) * 2 ^ p ≤ num / den)
    (hhigh : (num / den : ℚ) ≤ (n + 1 / 2) * 2 ^ p)
    (hties : n % 2 = 0 ∨ ((n : ℚ) - 1 / 2) * 2 ^ p < num / den ∧
      (num / den : ℚ) < (n + 1 / 2) * 2 ^ p) :
    (if 0 ≤ p then roundHalfEven num (den * Nat.pow 2 p.toNat)
      else roundHalfEven (num * Nat.pow 2 (-p).toNat) den) = n := by
  have hunit : (0 : ℚ) < 2 ^ p := by positivity
  rw [← le_div_iff₀ hunit] at hlow
  rw [← div_le_iff₀ hunit] at hhigh
  rw [← lt_div_iff₀ hunit, ← div_lt_iff₀ hunit] at hties
  by_cases hp : 0 ≤ p
  · have hscale : (2 : ℚ) ^ p = ((2 ^ p.toNat : ℕ) : ℚ) :=
      zpow_of_nonneg 2 hp
    have hquotient : (num / den / 2 ^ p : ℚ) =
        num / ((den * Nat.pow 2 p.toNat : ℕ) : ℚ) := by
      rw [hscale, div_div, Nat.pow_eq, Nat.cast_mul]
    rw [hquotient] at hlow hhigh hties
    rw [if_pos hp]
    have hden' : 0 < den * Nat.pow 2 p.toNat :=
      Nat.mul_pos hden (Nat.two_pow_pos _)
    exact roundHalfEven_of_div hden' hlow hhigh hties
  · have hscale : (2 : ℚ) ^ p = ((2 ^ (-p).toNat : ℕ) : ℚ)⁻¹ :=
      zpow_of_neg 2 (by omega)
    have hquotient : (num / den / 2 ^ p : ℚ) =
        ((num * Nat.pow 2 (-p).toNat : ℕ) : ℚ) / den := by
      rw [hscale, div_inv_eq_mul, div_mul_eq_mul_div, Nat.pow_eq,
        Nat.cast_mul]
    rw [hquotient] at hlow hhigh hties
    rw [if_neg hp]
    exact roundHalfEven_of_div hden hlow hhigh hties

/-- The power with which a covered quotient is rounded: that of the number,
or the one below it when a binade starts with the number. -/
theorem Covers.roundingPower (h : x.Covers (num / den))
    (hnum : 0 < num) (hden : 0 < den) :
    max (binaryExponent num den - 52) (-1074) = x.power ∨
      (x.isBinadeStart = true ∧
        max (binaryExponent num den - 52) (-1074) = x.power - 1 ∧
        (num / den : ℚ) < 2 ^ (x.power + 52)) := by
  have hpow : (0 : ℚ) < 2 ^ x.power := by positivity
  have htwo : (1 : ℚ) < 2 := by norm_num
  obtain ⟨hlow, hhigh⟩ := binaryExponent_spec hnum hden
  have hge := x.power_ge
  have habove : binaryExponent num den < x.power + 53 := by
    rw [← zpow_lt_zpow_iff_right₀ htwo]
    exact lt_of_le_of_lt (hlow.trans h.le_high) x.highEnd_lt
  by_cases hstart : x.isBinadeStart = true
  · obtain ⟨hsignificand, hpower, hexponent⟩ :=
      significand_of_isBinadeStart hstart
    have hfactor : (2 : ℚ) ^ (x.power + 51) = 2 ^ 51 * 2 ^ x.power :=
      two_zpow_add x.power 51
    have hbelow : x.power + 51 < binaryExponent num den + 1 := by
      rw [← zpow_lt_zpow_iff_right₀ htwo, hfactor]
      refine lt_of_le_of_lt (le_trans ?_ h.low_le) hhigh
      rw [lowEnd, if_pos hstart, hsignificand]
      apply mul_le_mul_of_nonneg_right _ hpow.le
      norm_num
    by_cases hexact : x.power + 52 ≤ binaryExponent num den
    · left
      omega
    · right
      refine ⟨hstart, by omega, lt_of_lt_of_le hhigh ?_⟩
      exact zpow_le_zpow_right₀ htwo.le (by omega)
  · left
    by_cases hpower : x.power = -1074
    · omega
    · have hlead := lt_significand (by simpa using hstart) hpower
      have hlead' : (2 : ℚ) ^ 52 + 1 ≤ x.significand := by
        exact_mod_cast hlead
      have hfactor : (2 : ℚ) ^ (x.power + 52) = 2 ^ 52 * 2 ^ x.power :=
        two_zpow_add x.power 52
      have hbelow : x.power + 52 < binaryExponent num den + 1 := by
        rw [← zpow_lt_zpow_iff_right₀ htwo, hfactor]
        refine lt_of_le_of_lt (le_trans ?_ h.low_le) hhigh
        rw [lowEnd, if_neg hstart]
        apply mul_le_mul_of_nonneg_right _ hpow.le
        linarith
      omega

/-- Rounding takes every quotient that a number covers to the number. -/
theorem Covers.nearest_eq (h : x.Covers (num / den))
    (hfinite : x.isFinite = true) (hzero : x.isZero = false)
    (hden : 0 < den) : nearest num den = some x.magnitudeBits := by
  have hden' : (0 : ℚ) < den := by exact_mod_cast hden
  have hpos : (0 : ℚ) < num / den := lt_of_lt_of_le (lowEnd_pos hzero) h.low_le
  have hnum : 0 < num := by
    have hnum' : (0 : ℚ) < num := (div_pos_iff_of_pos_right hden').1 hpos
    exact_mod_cast hnum'
  have hlow := x.lowEnd_ge
  have hbits := x.magnitudeBits_eq
  have hge := x.power_ge
  have hmagnitude : x.magnitudeBits < 2047 * Nat.pow 2 52 := by
    have hexponent := exponentBits_lt hfinite
    have hfraction := x.fractionBits_lt
    rw [magnitudeBits, Nat.pow_eq]
    omega
  rw [nearest, if_neg (by omega)]
  dsimp only
  rcases h.roundingPower hnum hden with hp | ⟨hstart, hp, hlt⟩
  · have hscaled := roundHalfEven_scaled (n := x.significand) hden
      (hlow.trans h.low_le) h.le_high
      (h.ties.imp_right fun ⟨hl, hh⟩ => ⟨lt_of_le_of_lt hlow hl, hh⟩)
    rw [hp, hscaled, Nat.pow_eq, ← hbits, ← Nat.pow_eq, if_pos hmagnitude]
  · obtain ⟨hsignificand, hpower, hexponent⟩ :=
      significand_of_isBinadeStart hstart
    have hunit : (0 : ℚ) < 2 ^ (x.power - 1) := by positivity
    have hdouble : (2 : ℚ) ^ x.power = 2 * 2 ^ (x.power - 1) := by
      rw [zpow_sub_one₀ (by norm_num)]
      ring
    have hscaled := @roundHalfEven_scaled num den (2 ^ 53)
      (x.power - 1) hden ?_ ?_ (Or.inl (by norm_num))
    · rw [hp, hscaled, Nat.pow_eq]
      have htotal : (x.power - 1 + 1074).toNat * 2 ^ 52 + 2 ^ 53 =
          x.magnitudeBits := by
        rw [hbits, hsignificand]
        omega
      rw [htotal, ← Nat.pow_eq, if_pos hmagnitude]
    · refine le_trans ?_ h.low_le
      rw [lowEnd, if_pos hstart, hsignificand, hdouble, ← mul_assoc]
      apply mul_le_mul_of_nonneg_right _ hunit.le
      norm_num
    · have hfactor : (2 : ℚ) ^ (x.power + 52) =
          2 ^ 53 * 2 ^ (x.power - 1) := by
        have hsum : x.power + 52 = x.power - 1 + 53 := by ring
        rw [hsum]
        exact two_zpow_add (x.power - 1) 53
      refine le_trans hlt.le ?_
      rw [hfactor]
      apply mul_le_mul_of_nonneg_right _ hunit.le
      norm_num

/-! ## Reading a decimal -/

/-- A number lies between the powers of ten that its digits are counted by. -/
theorem pow_length_toDigits {n : ℕ} (hn : 0 < n) :
    10 ^ ((Nat.toDigits 10 n).length - 1) ≤ n ∧
      n < 10 ^ (Nat.toDigits 10 n).length := by
  have hpos : 0 < (Nat.toDigits 10 n).length := Nat.length_toDigits_pos
  refine ⟨?_, (Nat.length_toDigits_le_iff (by norm_num) hpos).1 le_rfl⟩
  by_contra hlt
  by_cases hone : (Nat.toDigits 10 n).length = 1
  · rw [hone] at hlt
    omega
  · have hle : (Nat.toDigits 10 n).length ≤ (Nat.toDigits 10 n).length - 1 :=
      (Nat.length_toDigits_le_iff (by norm_num) (by omega)).2
        (Nat.lt_of_not_le hlt)
    omega

/-- A decimal lies between the powers of ten around its first digit. -/
theorem zpow_le_decimal {digits : ℕ} (hdigits : 0 < digits) (exponent : ℤ) :
    (10 : ℚ) ^ (exponent + (Nat.toDigits 10 digits).length - 1) ≤
        digits * 10 ^ exponent ∧
      (digits * 10 ^ exponent : ℚ) <
        10 ^ (exponent + (Nat.toDigits 10 digits).length) := by
  have hunit : (0 : ℚ) < 10 ^ exponent := by positivity
  have hpos : 0 < (Nat.toDigits 10 digits).length := Nat.length_toDigits_pos
  obtain ⟨hlow, hhigh⟩ := pow_length_toDigits hdigits
  have hlow' : (10 : ℚ) ^ ((Nat.toDigits 10 digits).length - 1) ≤ digits := by
    exact_mod_cast hlow
  have hhigh' : (digits : ℚ) < 10 ^ (Nat.toDigits 10 digits).length := by
    exact_mod_cast hhigh
  constructor
  · have hsplit : exponent + (Nat.toDigits 10 digits).length - 1 =
        (((Nat.toDigits 10 digits).length - 1 : ℕ) : ℤ) + exponent := by
      omega
    rw [hsplit, zpow_add₀ (by norm_num), zpow_natCast]
    exact mul_le_mul_of_nonneg_right hlow' hunit.le
  · rw [add_comm, zpow_add₀ (by norm_num), zpow_natCast]
    exact mul_lt_mul_of_pos_right hhigh' hunit

theorem lowEnd_gt (h : x.isZero = false) :
    (10 : ℚ) ^ (-400 : ℤ) < x.lowEnd := by
  have hunit : (0 : ℚ) < 2 ^ x.power := by positivity
  have hone : (1 : ℚ) ≤ x.significand := by
    exact_mod_cast significand_pos h
  have hpower : (2 : ℚ) ^ (-1074 : ℤ) ≤ 2 ^ x.power :=
    zpow_le_zpow_right₀ (by norm_num) x.power_ge
  have hcast (a b : ℕ) (hlt : 2 * 2 ^ a < 10 ^ b) :
      (2 : ℚ) * 2 ^ a < 10 ^ b := by
    exact_mod_cast hlt
  have hsmall : (2 : ℚ) * 2 ^ 1074 < 10 ^ 400 :=
    hcast 1074 400 (by decide +kernel)
  calc
    (10 : ℚ) ^ (-400 : ℤ) = (10 ^ 400)⁻¹ := by rw [zpow_neg]; rfl
    _ < (2 * 2 ^ 1074)⁻¹ := inv_strictAnti₀ (by positivity) hsmall
    _ = 1 / 2 * 2 ^ (-1074 : ℤ) := by
      rw [mul_inv, zpow_neg, one_div]
      rfl
    _ ≤ 1 / 2 * 2 ^ x.power := mul_le_mul_of_nonneg_left hpower (by norm_num)
    _ ≤ (x.significand - 1 / 2) * 2 ^ x.power :=
      mul_le_mul_of_nonneg_right (by linarith) hunit.le
    _ ≤ x.lowEnd := x.lowEnd_ge

theorem highEnd_lt_of_isFinite (h : x.isFinite = true) :
    x.highEnd < (10 : ℚ) ^ (399 : ℤ) := by
  have hpower := power_le h
  have hcast (a b : ℕ) (hle : 2 ^ a ≤ 10 ^ b) :
      (2 : ℚ) ^ (a : ℤ) ≤ 10 ^ (b : ℤ) := by
    exact_mod_cast hle
  calc
    x.highEnd < 2 ^ (x.power + 53) := x.highEnd_lt
    _ ≤ (2 : ℚ) ^ (1024 : ℤ) :=
      zpow_le_zpow_right₀ (by norm_num) (by omega)
    _ ≤ (10 : ℚ) ^ (399 : ℤ) := hcast 1024 399 (by decide +kernel)

/-- Reading a decimal that a number covers gives the number, with the sign
that was read. -/
theorem Covers.ofDecimal_eq {digits : ℕ} {exponent : ℤ}
    (h : x.Covers (digits * 10 ^ exponent)) (hfinite : x.isFinite = true)
    (hzero : x.isZero = false) (negative : Bool) :
    ofDecimal negative digits exponent =
      some (ofMagnitude negative x.magnitudeBits) := by
  have hunit : (0 : ℚ) < 10 ^ exponent := by positivity
  have hten : (1 : ℚ) < 10 := by norm_num
  have hdigits : 0 < digits := by
    have hpos : (0 : ℚ) < digits * 10 ^ exponent :=
      lt_of_lt_of_le (lowEnd_pos hzero) h.low_le
    exact_mod_cast (mul_pos_iff_of_pos_right hunit).1 hpos
  obtain ⟨hlow, hhigh⟩ := zpow_le_decimal hdigits exponent
  have hbelow : -400 < exponent + ((Nat.toDigits 10 digits).length : ℤ) := by
    rw [← zpow_lt_zpow_iff_right₀ hten]
    exact ((lowEnd_gt hzero).trans_le h.low_le).trans hhigh
  have habove : exponent + ((Nat.toDigits 10 digits).length : ℤ) - 1 < 399 := by
    rw [← zpow_lt_zpow_iff_right₀ hten]
    exact hlow.trans_lt (h.le_high.trans_lt (highEnd_lt_of_isFinite hfinite))
  rw [ofDecimal, if_neg (by omega)]
  dsimp only
  rw [if_neg (by omega), if_neg (by omega)]
  by_cases hexponent : 0 ≤ exponent
  · have hvalue : (digits * 10 ^ exponent : ℚ) =
        ((digits * Nat.pow 10 exponent.toNat : ℕ) : ℚ) / (1 : ℕ) := by
      have hscale : (10 : ℚ) ^ exponent = ((10 ^ exponent.toNat : ℕ) : ℚ) :=
        zpow_of_nonneg 10 hexponent
      rw [hscale, Nat.pow_eq, Nat.cast_one, div_one, Nat.cast_mul]
    rw [hvalue] at h
    rw [if_pos hexponent, h.nearest_eq hfinite hzero Nat.one_pos]
    rfl
  · have hvalue : (digits * 10 ^ exponent : ℚ) =
        digits / ((Nat.pow 10 (-exponent).toNat : ℕ) : ℚ) := by
      have hscale : (10 : ℚ) ^ exponent =
          ((10 ^ (-exponent).toNat : ℕ) : ℚ)⁻¹ :=
        zpow_of_neg 10 (by omega)
      rw [hscale, Nat.pow_eq, div_eq_mul_inv]
    rw [hvalue] at h
    have hpos : 0 < Nat.pow 10 (-exponent).toNat := Nat.pow_pos (by norm_num)
    rw [if_neg hexponent, h.nearest_eq hfinite hzero hpos]
    rfl

end Binary64

end CallGate
