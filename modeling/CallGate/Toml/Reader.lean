import CallGate.Document.Decoder
import CallGate.Toml.Number
import CallGate.Toml.Table
import CallGate.Toml.Text

/-!
# Reading TOML documents

A document is read line by line: a header opens a table, and any other line
puts a value into the table that is open.  The result is a tree with the
members of each table in ascending order of their keys.
-/

namespace CallGate.Toml

/-- The text after the end of the line, a comment before it passed over. -/
def afterLine? (input : List Char) : Option (List Char) :=
  let rest := input.dropWhile isSpace
  let rest := if rest.head? = some '#' then rest.dropWhile isPlain else rest
  match rest with
  | [] => some []
  | '\n' :: rest | '\r' :: '\n' :: rest => some rest
  | _ => none

/-- The text after blanks, newlines and comments. -/
def afterGap? (inComment : Bool) : List Char → Option (List Char)
  | [] => some []
  | '\n' :: rest | '\r' :: '\n' :: rest => afterGap? false rest
  | c :: rest =>
    if inComment then if isPlain c then afterGap? true rest else none
    else if isSpace c then afterGap? false rest
    else if c = '#' then afterGap? true rest
    else some (c :: rest)

/-- Characters of keys without quotes. -/
def isKeyChar (c : Char) : Bool := c.isAlphanum || c = '_' || c = '-'

/-- Reads a key. -/
def key? (input : List Char) : Option (String × List Char) :=
  match input.takeWhile isKeyChar with
  | [] => lineText? input
  | word => some (String.ofList word, input.dropWhile isKeyChar)

/-- How many arrays and tables may be opened inside each other, and how many
keys a path may have. -/
def maxDepth : Nat := 80

/-- Reads keys with dots between them and the blanks around them, at most
`limit` of them. -/
def keys? (limit : Nat) (input : List Char) :
    Option (List String × List Char) :=
  match limit with
  | 0 => none
  | limit + 1 =>
    match key? (input.dropWhile isSpace) with
    | none => none
    | some (key, rest) =>
      match rest.dropWhile isSpace with
      | '.' :: rest =>
        (keys? limit rest).map fun (keys, rest) => (key :: keys, rest)
      | rest => some ([key], rest)

/-- Reads the path of a table or value. -/
def path? (input : List Char) : Option (List String × List Char) :=
  keys? maxDepth input

/-- Characters of numbers and words. -/
def isWordChar (c : Char) : Bool := isKeyChar c || c = '+' || c = '.'

/-- The tree of a word. -/
def word? (word : List Char) : Option Tree :=
  if word = "true".toList then some (.bool true)
  else if word = "false".toList then some (.bool false)
  else number? word

/-- Reads a string, a number or a Boolean. -/
def scalar? (input : List Char) : Option (Tree × List Char) :=
  match text? input with
  | some (text, rest) => some (.str text, rest)
  | none =>
    (word? (input.takeWhile isWordChar)).map fun v =>
      (v, input.dropWhile isWordChar)

mutual

/-- Reads a value, given fuel for its parts; `depth` is how many arrays and
tables may still be opened inside each other. -/
def value? (depth : Nat) : Nat → List Char → Option (Tree × List Char)
  | 0, _ => none
  | fuel + 1, input =>
    match input with
    | '[' :: rest =>
      if depth = 0 then none
      else
        (items? (depth - 1) fuel rest).map fun (items, rest) =>
          (.arr items, rest)
    | '{' :: rest =>
      if depth = 0 then none
      else
        (inline? (depth - 1) fuel [] rest).map fun (members, rest) =>
          (.obj (treesOf members), rest)
    | _ => scalar? input
termination_by structural fuel => fuel

/-- Reads the items of an array up to its end. -/
def items? (depth : Nat) : Nat → List Char → Option (List Tree × List Char)
  | 0, _ => none
  | fuel + 1, input =>
    match afterGap? false input with
    | none => none
    | some (']' :: rest) => some ([], rest)
    | some input =>
      match value? depth fuel input with
      | none => none
      | some (v, rest) =>
        match afterGap? false rest with
        | some (',' :: rest) =>
          (items? depth fuel rest).map fun (vs, rest) => (v :: vs, rest)
        | some (']' :: rest) => some ([v], rest)
        | _ => none
termination_by structural fuel => fuel

/-- Reads the members of a table between braces up to its end, after those that
were read. -/
def inline? (depth : Nat) :
    Nat → Members → List Char → Option (Members × List Char)
  | 0, _, _ => none
  | fuel + 1, members, input =>
    match afterGap? false input with
    | none => none
    | some ('}' :: rest) => some (members, rest)
    | some input =>
      match path? input with
      | some (path, '=' :: rest) =>
        match value? depth fuel (rest.dropWhile isSpace) with
        | none => none
        | some (v, rest) =>
          match putAt path v .opened members, afterGap? false rest with
          | some members, some (',' :: rest) => inline? depth fuel members rest
          | some members, some ('}' :: rest) => some (members, rest)
          | _, _ => none
      | _ => none
termination_by structural fuel => fuel

end

/-- A document as far as it was read: its tables, and the path of the one that
is open. -/
structure Draft where
  members : Members
  here : List String

/-- Opens the table of a path in a way. -/
def Draft.enter (d : Draft) (way : String → Change) (path : List String) :
    Option Draft :=
  match path.getLast? with
  | none => none
  | some key =>
    (alter false (way key) path.dropLast .opened d.members).map fun m =>
      ⟨m, path⟩

/-- Reads a line that is not empty, and gives the text after what matters in
it. -/
def line? (fuel : Nat) (d : Draft) (input : List Char) :
    Option (Draft × List Char) :=
  match input with
  | '[' :: '[' :: rest =>
    match path? rest with
    | some (path, ']' :: ']' :: rest) =>
      (d.enter openNext path).map fun d => (d, rest)
    | _ => none
  | '[' :: rest =>
    match path? rest with
    | some (path, ']' :: rest) =>
      (d.enter openTable path).map fun d => (d, rest)
    | _ => none
  | _ =>
    match path? input with
    | some (path, '=' :: rest) =>
      (value? maxDepth fuel (rest.dropWhile isSpace)).bind fun (v, rest) =>
        (alter false (putAt path v) d.here .opened d.members).map fun m =>
          ({ d with members := m }, rest)
    | _ => none

/-- Reads lines, given fuel for them and for the parts of each. -/
def lines? (size : Nat) : Nat → Draft → List Char → Option Draft
  | 0, _, _ => none
  | fuel + 1, d, input =>
    match afterGap? false input with
    | none => none
    | some [] => some d
    | some input =>
      match line? size d input with
      | none => none
      | some (d, rest) => (afterLine? rest).bind (lines? size fuel d)

/-- The mark of byte order, which may stand at the front of a document. -/
def orderMark : Char := '\uFEFF'

/-- Reads a document, or finds that it is none. -/
def read? (text : String) : Option Tree :=
  let chars := text.toList
  let chars := if chars.head? = some orderMark then chars.tail else chars
  let size := chars.length + 1
  (lines? size size ⟨[], []⟩ chars).map fun d => .obj (treesOf d.members)

end CallGate.Toml

namespace CallGate

/-- Reads a document of a type from its TOML text. -/
def Decoder.fromToml {α : Type} (read : Decoder α) (text : String) :
    Except Misfit α :=
  match Toml.read? text with
  | some tree => read .toml tree
  | none => .error .shape

end CallGate
