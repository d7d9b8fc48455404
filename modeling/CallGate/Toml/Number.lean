import CallGate.Document.Tree
import CallGate.Text.Numeral

/-!
# Numbers of a TOML document

Integers in four bases, and real numbers with the words for infinity and for
what is not a number.  Underscores may stand between digits.  An integer is
legible within 64 bits, with or without a sign, and passable within twice as
many; a real number that is too large is neither.
-/

namespace CallGate.Toml

/-- The digits without the underscores, each of which has to stand between two
digits. -/
def ungrouped? (isDigit : Char → Bool) : List Char → Option (List Char)
  | [] => none
  | [c] => if isDigit c then some [c] else none
  | c :: '_' :: rest =>
    if isDigit c then (ungrouped? isDigit rest).map (c :: ·) else none
  | c :: rest =>
    if isDigit c then (ungrouped? isDigit rest).map (c :: ·) else none

/-- Whether a character is a digit of a base. -/
def isDigitOf (base : Nat) (c : Char) : Bool :=
  match Text.hexValue? c with
  | some d => d < base
  | none => false

/-- The number that digits of a base stand for. -/
def valueIn (base : Nat) (digits : List Char) : Nat :=
  digits.foldl (fun n c => n * base + (Text.hexValue? c).getD 0) 0

/-- Whether an integer has so many bits, with or without a sign. -/
def fits (bits : Nat) (negative : Bool) (n : Nat) : Bool :=
  if negative then n ≤ Nat.pow 2 (bits - 1) else n < Nat.pow 2 bits

/-- The tree of an integer. -/
def integer (negative : Bool) (n : Nat) : Tree :=
  if fits 64 negative n then .num (.int (if negative then -n else n))
  else .illegible (fits 128 negative n)

/-- An integer in a base other than ten. -/
def based? (base : Nat) (text : List Char) : Option Tree :=
  (ungrouped? (isDigitOf base) text).map fun digits =>
    integer false (valueIn base digits)

/-- The sign at the front of a text, and the rest. -/
def signed (text : List Char) : Bool × List Char :=
  match text with
  | '-' :: rest => (true, rest)
  | '+' :: rest => (false, rest)
  | _ => (false, text)

/-- Digits and what groups them. -/
def isGroupChar (c : Char) : Bool := c.isDigit || c = '_'

/-- The exponent that a whole text is. -/
def exponent? (text : List Char) : Option Int :=
  let (negative, digits) := signed text
  (ungrouped? Char.isDigit digits).map fun digits =>
    let n : Int := Text.decimalValue digits
    if negative then -n else n

/-- The exponent after its mark; a text that is empty stands for zero. -/
def exponentPart? : List Char → Option Int
  | [] => some 0
  | c :: rest => if c = 'e' || c = 'E' then exponent? rest else none

/-- The tree of a real number with digits before and after the point. -/
def real (negative : Bool) (whole fraction : List Char) (exponent : Int) :
    Tree :=
  match Binary64.ofDecimal negative (Text.decimalValue (whole ++ fraction))
      (exponent - fraction.length) with
  | some x => .num (.real x)
  | none => .illegible false

/-- The number of a text without its sign.  Only a zero starts with a zero. -/
def decimal? (negative : Bool) (text : List Char) : Option Tree :=
  match ungrouped? Char.isDigit (text.takeWhile isGroupChar) with
  | none => none
  | some ('0' :: _ :: _) => none
  | some whole =>
    match text.dropWhile isGroupChar with
    | [] => some (integer negative (Text.decimalValue whole))
    | '.' :: rest =>
      (ungrouped? Char.isDigit (rest.takeWhile isGroupChar)).bind
        fun fraction =>
          (exponentPart? (rest.dropWhile isGroupChar)).map
            (real negative whole fraction)
    | rest => (exponentPart? rest).map (real negative whole [])

/-- The number that a whole text is. -/
def number? (text : List Char) : Option Tree :=
  match text with
  | '0' :: 'x' :: rest => based? 16 rest
  | '0' :: 'o' :: rest => based? 8 rest
  | '0' :: 'b' :: rest => based? 2 rest
  | _ =>
    let (negative, rest) := signed text
    match rest with
    | ['i', 'n', 'f'] =>
      some (.num (.real (Binary64.ofMagnitude negative (2047 * Nat.pow 2 52))))
    | ['n', 'a', 'n'] =>
      some (.num (.real (Binary64.ofMagnitude negative (4095 * Nat.pow 2 51))))
    | _ => decimal? negative rest

end CallGate.Toml
