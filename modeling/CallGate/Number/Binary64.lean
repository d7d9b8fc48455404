/-!
# Binary floating-point numbers

A number of the 64-bit binary format, kept as its bits.  A finite number is a
sign and a magnitude `significand · 2 ^ power` with a significand below
`2 ^ 53`; everything said about its value is said in exact natural numbers.
`nearest` is the rounding used when a decimal is read: to the nearest
magnitude, a half to the even significand.
-/

namespace CallGate

/-- A number in the 64-bit binary floating-point format. -/
structure Binary64 where
  bits : UInt64
  deriving DecidableEq, Inhabited

namespace Binary64

/-- Whether the sign bit is set. -/
def isNegative (x : Binary64) : Bool := Nat.pow 2 63 ≤ x.bits.toNat

/-- The eleven exponent bits. -/
def exponentBits (x : Binary64) : Nat :=
  x.bits.toNat / Nat.pow 2 52 % Nat.pow 2 11

/-- The fifty-two fraction bits. -/
def fractionBits (x : Binary64) : Nat := x.bits.toNat % Nat.pow 2 52

/-- Neither infinite nor not-a-number. -/
def isFinite (x : Binary64) : Bool := x.exponentBits != 2047

/-- The magnitude is zero. -/
def isZero (x : Binary64) : Bool := x.exponentBits == 0 && x.fractionBits == 0

/-- The integer `m` of the magnitude `m · 2 ^ q`. -/
def significand (x : Binary64) : Nat :=
  if x.exponentBits = 0 then x.fractionBits else Nat.pow 2 52 + x.fractionBits

/-- The exponent `q` of the magnitude `m · 2 ^ q`. -/
def power (x : Binary64) : Int :=
  if x.exponentBits = 0 then -1074 else (x.exponentBits : Int) - 1075

/-- Whether the next smaller magnitude is nearer than the next larger one: the
significand is the least of its binade, and the binade is not the lowest. -/
def isBinadeStart (x : Binary64) : Bool :=
  x.fractionBits == 0 && 1 < x.exponentBits

/-- Equality of values: both zeros are one value, and nothing else is
identified. -/
def sameValue (x y : Binary64) : Bool :=
  x.bits == y.bits || (x.isZero && y.isZero)

/-- The number with the given sign and magnitude bits. -/
def ofMagnitude (negative : Bool) (magnitude : Nat) : Binary64 :=
  ⟨UInt64.ofNat (magnitude + if negative then Nat.pow 2 63 else 0)⟩

/-- The quotient `num / den` rounded to the nearest integer, a half to the even
one. -/
def roundHalfEven (num den : Nat) : Nat :=
  let quotient := num / den
  let twice := 2 * (num % den)
  if twice < den || (twice == den && quotient % 2 == 0) then quotient
  else quotient + 1

/-- The largest `e` with `2 ^ e ≤ num / den`, for positive arguments. -/
def binaryExponent (num den : Nat) : Int :=
  let guess : Int := (num.log2 : Int) - den.log2
  let reached := if 0 ≤ guess then den * Nat.pow 2 guess.toNat ≤ num
    else den ≤ num * Nat.pow 2 (-guess).toNat
  if reached then guess else guess - 1

/-- The magnitude bits nearest to the positive quotient `num / den`; none when
it is too large. -/
def nearest (num den : Nat) : Option Nat :=
  if num = 0 then some 0
  else
    let power := max (binaryExponent num den - 52) (-1074)
    let scaled :=
      if 0 ≤ power then roundHalfEven num (den * Nat.pow 2 power.toNat)
      else roundHalfEven (num * Nat.pow 2 (-power).toNat) den
    let magnitude := (power + 1074).toNat * Nat.pow 2 52 + scaled
    if magnitude < 2047 * Nat.pow 2 52 then some magnitude else none

/-- The number nearest to `digits · 10 ^ exponent` with the given sign; none
when it is too large for the format.  Decimals far outside the format's range
are decided from their length alone. -/
def ofDecimal (negative : Bool) (digits : Nat) (exponent : Int) :
    Option Binary64 :=
  if digits = 0 then some (ofMagnitude negative 0)
  else
    let top := exponent + (Nat.toDigits 10 digits).length
    if top < -400 then some (ofMagnitude negative 0)
    else if 400 < top then none
    else
      let magnitude :=
        if 0 ≤ exponent then nearest (digits * Nat.pow 10 exponent.toNat) 1
        else nearest digits (Nat.pow 10 (-exponent).toNat)
      magnitude.map (ofMagnitude negative)

end Binary64

end CallGate
