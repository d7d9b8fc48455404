import CallGate.Document.Tree

/-!
# Tables of a TOML document

A document opens tables one after the other and puts values into the one that
is open.  A table is opened once, but may be there already because a table
inside it was opened before.  A key with dots makes tables on its way that
other such keys may add to, and no header may open.  What is written as one
value is never added to.
-/

namespace CallGate.Toml

/-- How a table came to be. -/
inductive TableKind where
  /-- A header opened it. -/
  | opened
  /-- A header opened a table inside it. -/
  | implied
  /-- A key with dots put something into it. -/
  | dotted
  deriving DecidableEq, Inhabited

/-- What stands under a key. -/
inductive Node where
  | value (t : Tree)
  | table (kind : TableKind) (members : List (String × Node))
  /-- A list of tables, the last one apart. -/
  | tables (earlier : List (List (String × Node))) (last : List (String × Node))
  deriving Inhabited

/-- The members of a table, in ascending order of their keys. -/
abbrev Members := List (String × Node)

namespace Members

/-- What stands under a key. -/
def get? (m : Members) (key : String) : Option Node :=
  (m.find? fun e => e.1 = key).map (·.2)

/-- Puts something under a key, in place of what was there. -/
def put (m : Members) (key : String) (n : Node) : Members :=
  Entries.insert key n m

end Members

/-- A change of the members of a table, which may depend on how the table came
to be. -/
abbrev Change := TableKind → Members → Option Members

/-- Makes a change at the end of a path through tables; tables that are not
there are made.  A key with dots does not go through a table that a header
opened. -/
def alter (byKey : Bool) (change : Change) : List String → Change
  | [], kind, members => change kind members
  | key :: rest, _, members =>
    match members.get? key with
    | none =>
      let kind := if byKey then .dotted else .implied
      (alter byKey change rest kind []).map fun inner =>
        members.put key (.table kind inner)
    | some (.table kind inner) =>
      if byKey && kind = .opened then none
      else
        (alter byKey change rest kind inner).map fun inner =>
          members.put key (.table kind inner)
    | some (.tables earlier last) =>
      (alter byKey change rest .opened last).map fun last =>
        members.put key (.tables earlier last)
    | some (.value _) => none

/-- Opens the table of a key. -/
def openTable (key : String) : Change := fun _ members =>
  match members.get? key with
  | none => some (members.put key (.table .opened []))
  | some (.table .implied inner) =>
    some (members.put key (.table .opened inner))
  | some _ => none

/-- Opens the next table of the list of a key. -/
def openNext (key : String) : Change := fun _ members =>
  match members.get? key with
  | none => some (members.put key (.tables [] []))
  | some (.tables earlier last) =>
    some (members.put key (.tables (earlier ++ [last]) []))
  | some _ => none

/-- Puts a value under a key that has none.  The last of several keys with dots
between them belongs to a table that such keys made. -/
def putValue (hasDots : Bool) (key : String) (t : Tree) :
    Change := fun kind members =>
  if hasDots = (kind = .dotted) && (members.get? key).isNone then
    some (members.put key (.value t))
  else none

/-- Puts a value into a table under keys with dots between them. -/
def putAt (path : List String) (t : Tree) : Change := fun kind members =>
  match path.getLast? with
  | none => none
  | some key =>
    alter true (putValue (1 < path.length) key t) path.dropLast kind members

mutual

/-- The tree of what stands under a key. -/
def Node.toTree : Node → Tree
  | .value t => t
  | .table _ members => .obj (treesOf members)
  | .tables earlier last => .arr (treesOfEach earlier ++ [.obj (treesOf last)])
termination_by structural n => n

/-- The members of the tree of a table. -/
def treesOf : List (String × Node) → List (Option String × Tree)
  | [] => []
  | (key, n) :: rest => (some key, n.toTree) :: treesOf rest
termination_by structural n => n

/-- The trees of tables. -/
def treesOfEach : List (List (String × Node)) → List Tree
  | [] => []
  | members :: rest => .obj (treesOf members) :: treesOfEach rest
termination_by structural n => n

end

end CallGate.Toml
