import CallGate.Json.Value
import CallGate.Text.Numeral
import CallGate.Text.Split

/-!
# Dotted paths

A path names a part of a value by its steps, written with dots between them.  A
step into an object is a member's name; a step into an array is a position
counted from zero.  The empty path names the whole value, while an empty step
is a name like any other.
-/

namespace CallGate.Json

/-- The bound of positions in an array. -/
def positionBound : Nat := UInt64.size

/-- The part of a value that one step leads to. -/
def step? (v : Json) (step : List Char) : Option Json :=
  match v with
  | .obj members => member? (String.ofList step) members
  | .arr items => (Text.unsigned? positionBound step).bind fun i => items[i]?
  | _ => none

/-- The part of a value that steps lead to. -/
def walk? (v : Json) : List (List Char) → Option Json
  | [] => some v
  | s :: rest => (v.step? s).bind fun w => w.walk? rest

/-- The part of a value that a path names. -/
def at? (v : Json) (path : String) : Option Json :=
  if path.isEmpty then some v else v.walk? (Text.pieces '.' path.toList)

end CallGate.Json
