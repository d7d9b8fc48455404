import CallGate.Number.Binary64

/-!
# Shortest decimals

The decimal that stands for a binary floating-point number: of all decimals
that round to it, one with the fewest digits, and of those the nearest; an
exact tie goes to the even last digit.  The search tries one digit, two digits
and so on.  On each grid it tests only the two neighbours of the value, because
a grid with a point in the rounding interval has one of them in it.
-/

namespace CallGate

/-- The positive decimal `digits · 10 ^ exponent`. -/
structure Decimal where
  digits : Nat
  exponent : Int
  deriving DecidableEq, Inhabited

namespace Decimal

/-- The decimal `n · 10 ^ e` compared with `num / den`: whether it is at most
that quotient. -/
def atMost (n : Nat) (e : Int) (num den : Nat) : Bool :=
  if 0 ≤ e then n * Nat.pow 10 e.toNat * den ≤ num
  else n * den ≤ num * Nat.pow 10 (-e).toNat

/-- Whether the quotient `num / den` is at most the decimal `n · 10 ^ e`. -/
def atLeast (n : Nat) (e : Int) (num den : Nat) : Bool :=
  if 0 ≤ e then num ≤ n * Nat.pow 10 e.toNat * den
  else num * Nat.pow 10 (-e).toNat ≤ n * den

/-- The largest `e` with `10 ^ e ≤ num / den`, for positive arguments. -/
def decimalExponent (num den : Nat) : Int :=
  let guess : Int :=
    ((Nat.toDigits 10 num).length : Int) - (Nat.toDigits 10 den).length
  if atMost 1 guess num den then guess else guess - 1

/-- The same value with no zero at the end of the digits, given fuel for the
zeros. -/
def dropZeros : Nat → Decimal → Decimal
  | 0, d => d
  | fuel + 1, d =>
    if d.digits ≠ 0 ∧ d.digits % 10 = 0 then
      dropZeros fuel ⟨d.digits / 10, d.exponent + 1⟩
    else d

/-- The decimals that round to a given number: those between `low / scale` and
`high / scale`, the ends included when the number's significand is even. -/
structure Interval where
  low : Nat
  high : Nat
  scale : Nat
  closed : Bool

/-- Whether `n · 10 ^ e` lies in the interval. -/
def Interval.holds (i : Interval) (n : Nat) (e : Int) : Bool :=
  if i.closed then atLeast n e i.low i.scale && atMost n e i.high i.scale
  else !atMost n e i.low i.scale && !atLeast n e i.high i.scale

/-- The interval of decimals that round to a finite number's magnitude. -/
def roundingInterval (x : Binary64) : Interval :=
  let m := x.significand
  let below := if x.isBinadeStart then 1 else 2
  let up := Nat.pow 2 x.power.toNat
  ⟨(4 * m - below) * up, (4 * m + 2) * up, 4 * Nat.pow 2 (-x.power).toNat,
    m % 2 == 0⟩

/-- The point of the grid of step `10 ^ e` chosen for the value `num / den`: of
the neighbours that lie in the interval the nearer one, of two equally near the
even one. -/
def gridPoint (i : Interval) (num den : Nat) (e : Int) : Option Nat :=
  let above := if 0 ≤ e then num else num * Nat.pow 10 (-e).toNat
  let unit := if 0 ≤ e then den * Nat.pow 10 e.toNat else den
  let lower := above / unit
  let twice := 2 * (above % unit)
  let nearer :=
    if twice < unit || (twice == unit && lower % 2 == 0) then lower
    else lower + 1
  let other := if nearer = lower then lower + 1 else lower
  if i.holds nearer e then some nearer
  else if i.holds other e then some other
  else none

/-- The first grid with a point in the interval, trying finer and finer ones. -/
def searchGrids (i : Interval) (num den : Nat) (top : Int) : Nat → Nat → Decimal
  | 0, _ => ⟨num / den, 0⟩
  | fuel + 1, tried =>
    let e := top - tried
    match gridPoint i num den e with
    | some n => ⟨n, e⟩
    | none => searchGrids i num den top fuel (tried + 1)

/-- The shortest decimal of a finite number's magnitude, which must not be
zero.  Seventeen digits always suffice. -/
def shortest (x : Binary64) : Decimal :=
  let num := x.significand * Nat.pow 2 x.power.toNat
  let den := Nat.pow 2 (-x.power).toNat
  let found :=
    searchGrids (roundingInterval x) num den (decimalExponent num den) 17 0
  dropZeros 400 found

end Decimal

end CallGate
