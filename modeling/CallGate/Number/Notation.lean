import CallGate.Number.Shortest
import CallGate.Text.Numeral

/-!
# Written real numbers

How the shortest decimal of a number becomes text.  A `RealStyle` says for
which powers of ten the digits are written in place and what a whole number and
a negative zero look like; the digits themselves are the same in every style.
-/

namespace CallGate

/-- The choices of a way to write real numbers. -/
structure RealStyle where
  /-- The least power of ten of the first digit that is written in place. -/
  leastInPlace : Int
  /-- The least power of ten above those written in place. -/
  firstBeyond : Int
  /-- Whether a whole number keeps a point and a zero. -/
  keepsPoint : Bool
  /-- Whether a negative zero keeps its sign. -/
  keepsZeroSign : Bool

namespace RealStyle

/-- The digits of a decimal written in place, `top` being the power of ten of
the first one. -/
def inPlace (style : RealStyle) (digits : List Char) (top : Int) : List Char :=
  let whole := top + 1
  if (digits.length : Int) ≤ whole then
    digits ++ List.replicate (whole - digits.length).toNat '0' ++
      (if style.keepsPoint then ['.', '0'] else [])
  else if 0 < whole then
    digits.take whole.toNat ++ '.' :: digits.drop whole.toNat
  else '0' :: '.' :: List.replicate (-whole).toNat '0' ++ digits

/-- One digit, the others after a point, and the power of ten with its sign. -/
def scientific (digits : List Char) (top : Int) : List Char :=
  let fraction := digits.drop 1
  digits.take 1 ++ (if fraction.isEmpty then [] else '.' :: fraction) ++
    'e' :: (if top < 0 then '-' else '+') :: Text.decimal top.natAbs

/-- The text of a number; one that is not finite has none and is written as
null. -/
def render (style : RealStyle) (x : Binary64) : List Char :=
  if !x.isFinite then ['n', 'u', 'l', 'l']
  else if x.isZero then
    (if x.isNegative && style.keepsZeroSign then ['-'] else []) ++
      (if style.keepsPoint then ['0', '.', '0'] else ['0'])
  else
    let d := Decimal.shortest x
    let digits := Text.decimal d.digits
    let top := d.exponent + digits.length - 1
    (if x.isNegative then ['-'] else []) ++
      (if style.leastInPlace ≤ top ∧ top < style.firstBeyond then
        style.inPlace digits top
      else scientific digits top)

end RealStyle

end CallGate
