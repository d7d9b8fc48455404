import CallGate.Json.Value

/-!
# Document trees

What a document spells, part by part, before it is known which parts matter.
Some parts are well spelled and yet stand for no value: a string with half of a
surrogate pair, a number out of all range, a list inside too many others.  Such
a part is a fault where something reads it, and none where it is passed over,
so a tree keeps its place.  Members stand in the order of the document, and a
name may be repeated.
-/

namespace CallGate

/-- A document as it is spelled. -/
inductive Tree where
  | null
  | bool (value : Bool)
  | num (value : Number)
  | str (text : String)
  /-- A part that stands for no value.  `passable` says whether it may stand
  where every part is looked at, though none is kept. -/
  | illegible (passable : Bool)
  | arr (items : List Tree)
  /-- The members with their names; a name that stands for no text is `none`. -/
  | obj (members : List (Option String × Tree))
  deriving Inhabited

namespace Tree

mutual

/-- The tree of a value. -/
def ofJson : Json → Tree
  | .null => .null
  | .bool b => .bool b
  | .num n => .num n
  | .str s => .str s
  | .arr items => .arr (ofItems items)
  | .obj members => .obj (ofMembers members)
termination_by structural v => v

/-- The trees of items. -/
def ofItems : List Json → List Tree
  | [] => []
  | v :: rest => ofJson v :: ofItems rest
termination_by structural v => v

/-- The trees of members. -/
def ofMembers : List (String × Json) → List (Option String × Tree)
  | [] => []
  | (name, v) :: rest => (some name, ofJson v) :: ofMembers rest
termination_by structural v => v

end

mutual

/-- The value that a tree stands for, when all of it is legible. -/
def value? : Tree → Option Json
  | .null => some .null
  | .bool b => some (.bool b)
  | .num n => some (Json.ofNumber n)
  | .str s => some (.str s)
  | .illegible _ => none
  | .arr items => (itemValues? items).map .arr
  | .obj members => (memberValues? members).map .obj
termination_by structural t => t

/-- The values of items. -/
def itemValues? : List Tree → Option (List Json)
  | [] => some []
  | t :: rest =>
    match value? t, itemValues? rest with
    | some v, some vs => some (v :: vs)
    | _, _ => none
termination_by structural t => t

/-- The members of the value of an object, in ascending order of their names: a
member is put in unless a later one has its name. -/
def memberValues? : List (Option String × Tree) → Option (List (String × Json))
  | [] => some []
  | (name, t) :: rest =>
    match name, value? t, memberValues? rest with
    | some name, some v, some later =>
      some
        (if later.any fun m => m.1 = name then later
        else Entries.insert name v later)
    | _, _, _ => none
termination_by structural t => t

end

/-- Whether all of a tree is legible. -/
def isLegible (t : Tree) : Bool := t.value?.isSome

mutual

/-- Whether a tree may stand where every part is looked at, though none is
kept. -/
def isPassable : Tree → Bool
  | .null | .bool _ | .num _ | .str _ => true
  | .illegible passable => passable
  | .arr items => arePassable items
  | .obj members => areMembersPassable members
termination_by structural t => t

/-- Whether all items may. -/
def arePassable : List Tree → Bool
  | [] => true
  | t :: rest => isPassable t && arePassable rest
termination_by structural t => t

/-- Whether all members may. -/
def areMembersPassable : List (Option String × Tree) → Bool
  | [] => true
  | (_, t) :: rest => isPassable t && areMembersPassable rest
termination_by structural t => t

end

end Tree

end CallGate
