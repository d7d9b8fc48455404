import CallGate.Json.Quoted
import CallGate.Json.Value
import CallGate.Number.Notation

/-!
# Written values

Two written forms without any blank.  The compact form lists members as the
value does; the canonical form lists them in the order of their quoted names,
so that it does not depend on how the value was put together.  The forms differ
also in the style of real numbers.
-/

namespace CallGate

/-- The style of real numbers in the compact form. -/
def RealStyle.compact : RealStyle := ⟨-5, 16, true, true⟩

/-- The style of real numbers in the canonical form. -/
def RealStyle.canonical : RealStyle := ⟨-6, 21, false, false⟩

/-- The text of a number, real numbers in a given style. -/
def Number.written (style : RealStyle) : Number → List Char
  | .int i => Text.integerText i
  | .real x => style.render x

namespace Json

/-- Texts with a comma between each two. -/
def commaSeparated (parts : List (List Char)) : List Char :=
  [','].intercalate parts

/-- The written form of a Boolean. -/
def boolText : Bool → List Char
  | true => ['t', 'r', 'u', 'e']
  | false => ['f', 'a', 'l', 's', 'e']

/-- The written form of null. -/
def nullText : List Char := ['n', 'u', 'l', 'l']

/-- Items between brackets. -/
def bracketed (parts : List (List Char)) : List Char :=
  '[' :: (commaSeparated parts ++ [']'])

/-- A quoted name, a colon and a written value. -/
def memberText (m : List Char × List Char) : List Char := m.1 ++ ':' :: m.2

/-- Members between braces. -/
def braced (parts : List (List Char × List Char)) : List Char :=
  '{' :: (commaSeparated (parts.map memberText) ++ ['}'])

mutual

/-- The compact form. -/
def compact : Json → List Char
  | .null => nullText
  | .bool b => boolText b
  | .num n => n.written .compact
  | .str s => quoted s
  | .arr items => bracketed (compactItems items)
  | .obj members => braced (compactMembers members)
termination_by structural v => v

/-- The compact forms of items. -/
def compactItems : List Json → List (List Char)
  | [] => []
  | v :: rest => compact v :: compactItems rest
termination_by structural v => v

/-- The quoted names and compact forms of members. -/
def compactMembers : List (String × Json) → List (List Char × List Char)
  | [] => []
  | (name, v) :: rest => (quoted name, compact v) :: compactMembers rest
termination_by structural v => v

end

/-- The order of members in the canonical form: that of their quoted names. -/
def nameAtMost (a b : List Char × List Char) : Bool := !decide (b.1 < a.1)

mutual

/-- The canonical form. -/
def canonical : Json → List Char
  | .null => nullText
  | .bool b => boolText b
  | .num n => n.written .canonical
  | .str s => quoted s
  | .arr items => bracketed (canonicalItems items)
  | .obj members => braced ((canonicalMembers members).mergeSort nameAtMost)
termination_by structural v => v

/-- The canonical forms of items. -/
def canonicalItems : List Json → List (List Char)
  | [] => []
  | v :: rest => canonical v :: canonicalItems rest
termination_by structural v => v

/-- The quoted names and canonical forms of members, in the order of the
value. -/
def canonicalMembers : List (String × Json) → List (List Char × List Char)
  | [] => []
  | (name, v) :: rest => (quoted name, canonical v) :: canonicalMembers rest
termination_by structural v => v

end

/-- The compact form as a string. -/
def compactText (v : Json) : String := String.ofList v.compact

/-- The canonical form as a string. -/
def canonicalText (v : Json) : String := String.ofList v.canonical

end Json

end CallGate
