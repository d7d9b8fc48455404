import CallGate.Document.Decoder
import CallGate.Text.Numeral

/-!
# Reading JSON text

Reading goes from word to word of the text with a stack of the arrays and
objects that are open.  Members are kept as they are spelled.  Not legible are
half of a surrogate pair, a number that is too large, and an array or object
inside 127 others.  A text that stops making sense still has a beginning, and
`Reading.broken` carries the tree of that beginning: a document whose beginning
is already unacceptable is refused for that reason and not for what comes
later.
-/

namespace CallGate.Json

/-- The blanks between words. -/
def isSpace (c : Char) : Bool := c = ' ' || c = '\t' || c = '\n' || c = '\r'

/-- The words of a text. -/
inductive Word where
  | openBracket
  | closeBracket
  | openBrace
  | closeBrace
  | comma
  | colon
  /-- A string, unless it is not legible. -/
  | text (s : Option String)
  | atom (t : Tree)
  deriving Inhabited

/-- The value of four hexadecimal digits. -/
def unit? (a b c d : Char) : Option Nat := Text.hexValue [a, b, c, d]

/-- The character that a letter after a backslash stands for. -/
def unescape? (c : Char) : Option Char :=
  match c with
  | '"' => some '"'
  | '\\' => some '\\'
  | '/' => some '/'
  | 'b' => some '\x08'
  | 'f' => some '\x0c'
  | 'n' => some '\n'
  | 'r' => some '\r'
  | 't' => some '\t'
  | _ => none

/-- Whether a number is the first half of a surrogate pair. -/
def isFirstHalf (n : Nat) : Bool := 0xD800 ≤ n && n < 0xDC00

/-- Whether a number is the second half of a surrogate pair. -/
def isSecondHalf (n : Nat) : Bool := 0xDC00 ≤ n && n < 0xE000

/-- The character of a surrogate pair. -/
def paired (first second : Nat) : Char :=
  Char.ofNat (0x10000 + (first - 0xD800) * 0x400 + (second - 0xDC00))

/-- The second half of a surrogate pair that a text starts with. -/
def secondHalf? : List Char → Option Nat
  | '\\' :: 'u' :: a :: b :: c :: d :: _ =>
    match unit? a b c d with
    | some n => if isSecondHalf n then some n else none
    | none => none
  | _ => none

/-- The string of characters in reverse, unless it is not legible. -/
def spelled? (legible : Bool) (before : List Char) : Option String :=
  if legible then some (String.ofList before.reverse) else none

/-- Reads the inside of a quoted string up to its closing quote, the characters
read so far in reverse.  A string with half of a surrogate pair is not
legible. -/
def scanText (legible : Bool) (before : List Char) :
    List Char → Option (Option String × List Char)
  | [] => none
  | '"' :: rest => some (spelled? legible before, rest)
  | '\\' :: 'u' :: a :: b :: c :: d :: rest =>
    match unit? a b c d with
    | none => none
    | some n =>
      if isFirstHalf n then
        match secondHalf? rest, rest with
        | some m, _ :: _ :: _ :: _ :: _ :: _ :: rest =>
          scanText legible (paired n m :: before) rest
        | _, rest => scanText false before rest
      else if isSecondHalf n then scanText false before rest
      else scanText legible (Char.ofNat n :: before) rest
  | '\\' :: c :: rest =>
    match unescape? c with
    | none => none
    | some d => scanText legible (d :: before) rest
  | c :: rest =>
    if c.toNat < 0x20 then none else scanText legible (c :: before) rest

/-- Reads an exponent, when there is one: the mark, a sign and at least one
digit. -/
def scanExponent (input : List Char) : Option (Option Int × List Char) :=
  match input with
  | c :: rest =>
    if c = 'e' || c = 'E' then
      let (negative, rest) := match rest with
        | '+' :: rest => (false, rest)
        | '-' :: rest => (true, rest)
        | _ => (false, rest)
      let digits := rest.takeWhile Char.isDigit
      if digits.isEmpty then none
      else
        let n : Int := Text.decimalValue digits
        some (some (if negative then -n else n), rest.dropWhile Char.isDigit)
    else some (none, input)
  | [] => some (none, input)

/-- Reads a fraction, when there is one: a point and at least one digit. -/
def scanFraction (input : List Char) :
    Option (Option (List Char) × List Char) :=
  match input with
  | '.' :: rest =>
    let digits := rest.takeWhile Char.isDigit
    if digits.isEmpty then none
    else some (some digits, rest.dropWhile Char.isDigit)
  | _ => some (none, input)

/-- The number that digits denote: an integer when written as one and within 64
bits, otherwise the nearest floating-point number, unless it is too large.  A
negative zero is no integer. -/
def numberOf (negative : Bool) (whole : List Char)
    (fraction : Option (List Char)) (exponent : Option Int) : Option Number :=
  let real (digits : List Char) (e : Int) : Option Number :=
    (Binary64.ofDecimal negative (Text.decimalValue digits) e).map .real
  match fraction, exponent with
  | none, none =>
    let n := Text.decimalValue whole
    if negative then
      if n ≠ 0 ∧ n ≤ Nat.pow 2 63 then some (.int (-n)) else real whole 0
    else if n < UInt64.size then some (.int n) else real whole 0
  | _, _ =>
    let fraction := fraction.getD []
    real (whole ++ fraction) (exponent.getD 0 - fraction.length)

/-- The tree of a number, if it is one. -/
def numberTree : Option Number → Tree
  | some n => .num n
  | none => .illegible true

/-- Reads a number.  A zero is not followed by another digit. -/
def scanNumber (input : List Char) : Option (Tree × List Char) :=
  let (negative, rest) := match input with
    | '-' :: rest => (true, rest)
    | _ => (false, input)
  let whole := rest.takeWhile Char.isDigit
  let rest := rest.dropWhile Char.isDigit
  match whole with
  | [] => none
  | '0' :: _ :: _ => none
  | _ =>
    match scanFraction rest with
    | none => none
    | some (fraction, rest) =>
      match scanExponent rest with
      | none => none
      | some (exponent, rest) =>
        some (numberTree (numberOf negative whole fraction exponent), rest)

/-- Reads the next word of a text that does not start with a blank. -/
def scanWord : List Char → Option (Word × List Char)
  | [] => none
  | '[' :: rest => some (.openBracket, rest)
  | ']' :: rest => some (.closeBracket, rest)
  | '{' :: rest => some (.openBrace, rest)
  | '}' :: rest => some (.closeBrace, rest)
  | ',' :: rest => some (.comma, rest)
  | ':' :: rest => some (.colon, rest)
  | '"' :: rest => (scanText true [] rest).map fun (s, rest) => (.text s, rest)
  | 'n' :: 'u' :: 'l' :: 'l' :: rest => some (.atom .null, rest)
  | 't' :: 'r' :: 'u' :: 'e' :: rest => some (.atom (.bool true), rest)
  | 'f' :: 'a' :: 'l' :: 's' :: 'e' :: rest => some (.atom (.bool false), rest)
  | input => (scanNumber input).map fun (t, rest) => (.atom t, rest)

/-- An array or object that is open: what it holds so far in reverse, and the
name of the member whose value is being read. -/
inductive Frame where
  | items (before : List Tree)
  | members (before : List (Option String × Tree))
  | member (before : List (Option String × Tree)) (name : Option String)
  deriving Inhabited

/-- What may come next. -/
inductive Expected where
  /-- A value. -/
  | value
  /-- A value or the end of the array just opened. -/
  | firstItem
  /-- A name or the end of the object just opened. -/
  | firstName
  /-- A name. -/
  | name
  /-- The colon after a name. -/
  | colon
  /-- A comma or the end of what is open, a value having just ended. -/
  | next (t : Tree)
  deriving Inhabited

/-- The most arrays and objects inside each other that are legible. -/
def maxDepth : Nat := 127

/-- An array or object inside those that are open around it. -/
def inside (around : List Frame) (t : Tree) : Tree :=
  if (around.take maxDepth).length < maxDepth then t else .illegible true

/-- The tree of a string, if it is legible. -/
def textTree : Option String → Tree
  | some s => .str s
  | none => .illegible true

/-- Takes the first word of a value. -/
def openValue (stack : List Frame) : Word → Option (List Frame × Expected)
  | .atom t => some (stack, .next t)
  | .text s => some (stack, .next (textTree s))
  | .openBracket => some (.items [] :: stack, .firstItem)
  | .openBrace => some (.members [] :: stack, .firstName)
  | _ => none

/-- Takes one word. -/
def takeWord (stack : List Frame) (expected : Expected) (word : Word) :
    Option (List Frame × Expected) :=
  match expected, word, stack with
  | .value, _, _ => openValue stack word
  | .firstItem, .closeBracket, .items _ :: rest =>
    some (rest, .next (inside rest (.arr [])))
  | .firstItem, _, _ => openValue stack word
  | .firstName, .closeBrace, .members _ :: rest =>
    some (rest, .next (inside rest (.obj [])))
  | .firstName, .text s, .members before :: rest
  | .name, .text s, .members before :: rest =>
    some (.member before s :: rest, .colon)
  | .colon, .colon, _ => some (stack, .value)
  | .next t, .comma, .items before :: rest =>
    some (.items (t :: before) :: rest, .value)
  | .next t, .closeBracket, .items before :: rest =>
    some (rest, .next (inside rest (.arr (t :: before).reverse)))
  | .next t, .comma, .member before name :: rest =>
    some (.members ((name, t) :: before) :: rest, .name)
  | .next t, .closeBrace, .member before name :: rest =>
    some (rest, .next (inside rest (.obj ((name, t) :: before).reverse)))
  | _, _, _ => none

/-- What reading a text gives: the tree of the whole text, or of its
beginning. -/
inductive Reading where
  | whole (tree : Tree)
  | broken (start : Tree)
  deriving Inhabited

/-- Closes what is open around the last value that was read.  A name without a
value stays with nothing legible under it. -/
def closeAll : List Frame → Option Tree → Tree
  | [], t => t.getD (.illegible true)
  | .items before :: rest, t =>
    closeAll rest (some (inside rest (.arr (t.toList ++ before).reverse)))
  | .members before :: rest, _ =>
    closeAll rest (some (inside rest (.obj before.reverse)))
  | .member before name :: rest, t =>
    let last := (name, t.getD (.illegible true))
    closeAll rest (some (inside rest (.obj (last :: before).reverse)))

/-- The value that has just ended, if any. -/
def Expected.ended? : Expected → Option Tree
  | .next t => some t
  | _ => none

/-- Reads on, given fuel for the words; a text has no more words than
characters. -/
def readOn : Nat → List Frame → Expected → List Char → Reading
  | 0, stack, expected, _ => .broken (closeAll stack expected.ended?)
  | fuel + 1, stack, expected, input =>
    match input.dropWhile isSpace, stack, expected with
    | [], [], .next t => .whole t
    | rest, _, _ =>
      match scanWord rest with
      | none => .broken (closeAll stack expected.ended?)
      | some (word, rest) =>
        match takeWord stack expected word with
        | none => .broken (closeAll stack expected.ended?)
        | some (stack, expected) => readOn fuel stack expected rest

/-- Reads a text as it is spelled. -/
def readChars (input : List Char) : Reading :=
  readOn (input.length + 1) [] .value input

/-- Reads a text as it is spelled. -/
def read (input : String) : Reading := readChars input.toList

/-- The value that a text denotes. -/
def parse? (input : String) : Option Json :=
  match read input with
  | .whole tree => tree.value?
  | .broken _ => none

end CallGate.Json

namespace CallGate

/-- Reads a document from its text.  A text that breaks off is refused for what
stands before the break, when that has a message, and otherwise for the
break. -/
def Decoder.fromText {α : Type} (read : Decoder α) (input : String) :
    Except Misfit α :=
  match Json.read input with
  | .whole tree => read .json tree
  | .broken start =>
    match read .json start with
    | .error (.operation text) => .error (.operation text)
    | .error (.failurePolicy text) => .error (.failurePolicy text)
    | _ => .error .shape

end CallGate
