import CallGate.Document.Decoder

/-!
# Reading records

A record is read from the members of an object, in any order, or from a list of
its fields in the declared order.  Faults have a place in the document, and the
one that stands first is the one reported, whichever field it belongs to; a
field that is missing is found out only at the end.
-/

namespace CallGate

/-- The fields of a record as written, in the order of the document.  In a list
the fields have no names of their own but take the declared ones. -/
structure Written where
  medium : Medium
  fields : List (Option String × Tree)
  asList : Bool

/-- A misfit and the position of the field where it was found. -/
abbrev Fault := Nat × Misfit

/-- A reading of the fields of a record. -/
def Reads (α : Type) := Written → Except Fault α

namespace Reads

variable {α β : Type}

/-- Of two faults the one that stands first in the document. -/
def earlier (a b : Fault) : Fault := if b.1 < a.1 then b else a

/-- Reads nothing. -/
def pure (a : α) : Reads α := fun _ => .ok a

/-- Reads what two readings read; of two faults the earlier one is kept. -/
def both (f : Reads (α → β)) (x : Reads α) : Reads β := fun w =>
  match f w, x w with
  | .ok g, .ok a => .ok (g a)
  | .ok _, .error e => .error e
  | .error e, .ok _ => .error e
  | .error e, .error e' => .error (earlier e e')

instance : Applicative Reads where
  pure := pure
  seq f x := both f (x ())

/-- The position of the first field of a name, and what stands there. -/
def find? (name : String) : List (Option String × Tree) → Option (Nat × Tree)
  | [] => none
  | (n, t) :: rest =>
    if n = some name then some (0, t)
    else (find? name rest).map fun (i, t) => (i + 1, t)

/-- Reads the field of a name, `missing` saying what its absence means. -/
def field (name : String) (read : Decoder α)
    (missing : Written → Except Misfit α) : Reads α :=
  fun w =>
    match find? name w.fields with
    | some (i, t) => (read w.medium t).mapError fun e => (i, e)
    | none => (missing w).mapError fun e => (w.fields.length, e)

/-- A field that has to be there. -/
def required (name : String) (read : Decoder α) : Reads α :=
  field name read fun _ => .error .shape

/-- A field with a value that stands in for it when it is missing. -/
def defaulted (name : String) (read : Decoder α) (default : α) : Reads α :=
  field name read fun _ => .ok default

/-- A field that may be null or missing. -/
def optional (name : String) (read : Decoder α) : Reads (Option α) :=
  defaulted name (Decoder.nullable read) none

/-- A field that may be null, and missing from an object, but not from a
list. -/
def nullable (name : String) (read : Decoder α) : Reads (Option α) :=
  field name (Decoder.nullable read) fun w =>
    if w.asList then .error .shape else .ok none

/-- The position of the first field that repeats an earlier one of the given
names. -/
def repeated? (names : List String) (seen : List String) :
    List (Option String × Tree) → Option Nat
  | [] => none
  | (none, _) :: rest => (repeated? names seen rest).map (· + 1)
  | (some n, _) :: rest =>
    if names.contains n && seen.contains n then some 0
    else (repeated? names (n :: seen) rest).map (· + 1)

/-- The position of the first field that is refused: its name is not legible,
or is not among the given ones while the field may not be passed over, as in a
`strict` record none may. -/
def refused? (names : List String) (strict : Bool) (m : Medium) :
    List (Option String × Tree) → Option Nat
  | [] => none
  | (none, _) :: _ => some 0
  | (some n, t) :: rest =>
    if names.contains n || (!strict && m.passesOver t) then
      (refused? names strict m rest).map (· + 1)
    else some 0

/-- Adds the faults found at given positions. -/
def withFaults (positions : List (Option Nat)) (result : Except Fault α) :
    Except Fault α :=
  positions.foldl
    (fun result position =>
      match position, result with
      | none, r => r
      | some i, .ok _ => .error (i, .shape)
      | some i, .error e => .error (earlier e (i, .shape)))
    result

/-- A record with the given field names.  Other fields are passed over, unless
the record is `strict` and refuses them. -/
def record (names : List String) (fields : Reads α) (strict : Bool := false) :
    Decoder α
  | m, .obj members =>
    let faults := [repeated? names [] members, refused? names strict m members]
    (withFaults faults (fields ⟨m, members, false⟩)).mapError (·.2)
  | m, .arr items =>
    match fields ⟨m, (names.map some).zip items, true⟩ with
    | .error e => .error e.2
    | .ok a =>
      if m.admits items.length names.length then .ok a else .error .shape
  | _, _ => .error .shape

end Reads

end CallGate
