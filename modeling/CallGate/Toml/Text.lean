import CallGate.Text.Numeral

/-!
# Strings of a TOML document

The four kinds of strings: between quotes with escapes, between apostrophes as
they stand, and both kinds over several lines between tripled marks.  A newline
right after a tripled opening mark does not count, and a backslash at the end
of a line takes the blanks and newlines after it away.
-/

namespace CallGate.Toml

/-- The blanks within a line. -/
def isSpace (c : Char) : Bool := c = ' ' || c = '\t'

/-- Characters that may stand in a comment or a string as they are. -/
def isPlain (c : Char) : Bool := c = '\t' || (0x20 ≤ c.toNat && c.toNat ≠ 0x7F)

/-- The character that a letter after a backslash stands for. -/
def unescape? (c : Char) : Option Char :=
  match c with
  | '"' => some '"'
  | '\\' => some '\\'
  | 'b' => some '\x08'
  | 'e' => some '\x1b'
  | 'f' => some '\x0c'
  | 'n' => some '\n'
  | 'r' => some '\r'
  | 't' => some '\t'
  | _ => none

/-- The character of a code point written in hexadecimal digits. -/
def codePoint? (digits : List Char) : Option Char :=
  match Text.hexValue digits with
  | none => none
  | some n => if n.isValidChar then some (Char.ofNat n) else none

/-- Reads a string up to its closing quote, the characters read so far in
reverse. -/
def scanBasic (before : List Char) : List Char → Option (List Char × List Char)
  | [] => none
  | '"' :: rest => some (before.reverse, rest)
  | '\\' :: 'x' :: a :: b :: rest =>
    match codePoint? [a, b] with
    | some x => scanBasic (x :: before) rest
    | none => none
  | '\\' :: 'u' :: a :: b :: c :: d :: rest =>
    match codePoint? [a, b, c, d] with
    | some x => scanBasic (x :: before) rest
    | none => none
  | '\\' :: 'U' :: a :: b :: c :: d :: e :: f :: g :: h :: rest =>
    match codePoint? [a, b, c, d, e, f, g, h] with
    | some x => scanBasic (x :: before) rest
    | none => none
  | '\\' :: c :: rest =>
    match unescape? c with
    | some x => scanBasic (x :: before) rest
    | none => none
  | c :: rest => if isPlain c then scanBasic (c :: before) rest else none

/-- Reads a string up to its closing apostrophe. -/
def scanLiteral (before : List Char) :
    List Char → Option (List Char × List Char)
  | [] => none
  | '\'' :: rest => some (before.reverse, rest)
  | c :: rest => if isPlain c then scanLiteral (c :: before) rest else none

/-- Ends a string at a tripled mark.  Up to two more marks right after it
belong to the string. -/
def endLines (mark : Char) (before rest : List Char) : List Char × List Char :=
  let extra := (rest.takeWhile (· = mark)).take 2
  ((extra ++ before).reverse, rest.drop extra.length)

/-- Whether nothing but blanks stands before the end of the line. -/
def endsLine (text : List Char) : Bool :=
  match text.dropWhile isSpace with
  | '\n' :: _ | '\r' :: '\n' :: _ => true
  | _ => false

/-- Reads a string over several lines.  While `trimming`, blanks and newlines
are passed over. -/
def scanBasicLines (trimming : Bool) (before : List Char) :
    List Char → Option (List Char × List Char)
  | [] => none
  | '"' :: '"' :: '"' :: rest => some (endLines '"' before rest)
  | '\\' :: 'x' :: a :: b :: rest =>
    match codePoint? [a, b] with
    | some x => scanBasicLines false (x :: before) rest
    | none => none
  | '\\' :: 'u' :: a :: b :: c :: d :: rest =>
    match codePoint? [a, b, c, d] with
    | some x => scanBasicLines false (x :: before) rest
    | none => none
  | '\\' :: 'U' :: a :: b :: c :: d :: e :: f :: g :: h :: rest =>
    match codePoint? [a, b, c, d, e, f, g, h] with
    | some x => scanBasicLines false (x :: before) rest
    | none => none
  | '\\' :: c :: rest =>
    match unescape? c with
    | some x => scanBasicLines false (x :: before) rest
    | none =>
      if endsLine (c :: rest) then scanBasicLines true before rest else none
  | '\r' :: '\n' :: rest =>
    if trimming then scanBasicLines true before rest
    else scanBasicLines false ('\n' :: '\r' :: before) rest
  | c :: rest =>
    if isSpace c || c = '\n' then
      scanBasicLines trimming (if trimming then before else c :: before) rest
    else if isPlain c then scanBasicLines false (c :: before) rest
    else none

/-- Reads a string over several lines as it stands. -/
def scanLiteralLines (before : List Char) :
    List Char → Option (List Char × List Char)
  | [] => none
  | '\'' :: '\'' :: '\'' :: rest => some (endLines '\'' before rest)
  | '\r' :: '\n' :: rest => scanLiteralLines ('\n' :: '\r' :: before) rest
  | c :: rest =>
    if c = '\n' || isPlain c then scanLiteralLines (c :: before) rest else none

/-- The text after the newline at its front, if it has one there. -/
def afterNewline (text : List Char) : List Char :=
  match text with
  | '\n' :: rest | '\r' :: '\n' :: rest => rest
  | _ => text

/-- Reads a string of one line. -/
def lineText? (input : List Char) : Option (String × List Char) :=
  let scanned :=
    match input with
    | '"' :: rest => scanBasic [] rest
    | '\'' :: rest => scanLiteral [] rest
    | _ => none
  scanned.map fun (chars, rest) => (String.ofList chars, rest)

/-- Reads a string of any kind. -/
def text? (input : List Char) : Option (String × List Char) :=
  let scanned :=
    match input with
    | '"' :: '"' :: '"' :: rest => scanBasicLines false [] (afterNewline rest)
    | '\'' :: '\'' :: '\'' :: rest => scanLiteralLines [] (afterNewline rest)
    | '"' :: rest => scanBasic [] rest
    | '\'' :: rest => scanLiteral [] rest
    | _ => none
  scanned.map fun (chars, rest) => (String.ofList chars, rest)

end CallGate.Toml
