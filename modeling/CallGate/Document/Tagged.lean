import CallGate.Document.Reads

/-!
# Reading things of several kinds

A thing of one of several kinds is written with the label of its kind, the tag.
Either the tag stands among the fields of the thing, or there are two members,
the tag and the content.  As long as the tag is not known, the other parts are
set aside, and what is set aside has to be legible.
-/

namespace CallGate.Decoder

variable {α : Type}

/-- Reads parts that were set aside by their tag. -/
def byTag (variants : List (String × Decoder α)) (tag rest : Tree) :
    Except Misfit α :=
  if rest.isLegible then
    match tag with
    | .str s => (labelled variants s).bind fun read => read .aside rest
    | _ => .error .shape
  else .error .shape

/-- A thing whose kind is told by one of its own fields: exactly one member
with the tag's name, anywhere among the others, or the first item of a list. -/
def tagged (tag : String) (variants : List (String × Decoder α)) : Decoder α
  | _, .obj members =>
    match members.filter (·.1 = some tag) with
    | [(_, t)] => byTag variants t (.obj (members.filter (·.1 ≠ some tag)))
    | _ => .error .shape
  | _, .arr (t :: rest) => byTag variants t (.arr rest)
  | _, _ => .error .shape

/-- A kind without fields of its own.  Members are passed over, items are
not. -/
def bare (a : α) : Decoder α
  | _, .obj _ | _, .arr [] => .ok a
  | _, _ => .error .shape

/-- What stands beside a kind: nothing, or something to be read. -/
inductive Beside (α : Type) where
  | nothing (a : α)
  | something (read : Decoder α)

/-- Reads what stands beside a kind; where nothing belongs, null may stand. -/
def Beside.read (b : Beside α) (m : Medium) (content : Option Tree) :
    Except Misfit α :=
  match b, content with
  | .nothing a, none => .ok a
  | .nothing a, some .null => .ok a
  | .nothing _, some _ => .error .shape
  | .something _, none => .error .shape
  | .something read, some t => read m t

/-- Whether the member of one name stands before that of another. -/
def standsBefore (name other : String) (members : List (Option String × Tree)) :
    Bool :=
  (members.takeWhile (·.1 ≠ some other)).any (·.1 = some name)

/-- Whether each member has a legible name and may be passed over unless its
name is among the given ones. -/
def passesOthers (m : Medium) (names : List String)
    (members : List (Option String × Tree)) : Bool :=
  (Reads.refused? names false m members).isNone

/-- A thing whose kind and content are two members, or the two items of a list.
A content that stands before the tag is set aside.  In a list the tag is a
plain text. -/
def kindAndContent (tag content : String)
    (variants : List (String × Beside α)) : Decoder α
  | m, .obj members =>
    if passesOthers m [tag, content] members then
      match members.filter (·.1 = some tag),
        members.filter (·.1 = some content) with
      | [(_, t)], [] => (label variants m t).bind fun b => b.read m none
      | [(_, t)], [(_, c)] =>
        if standsBefore content tag members then
          if c.isLegible then
            (label variants m t).bind fun b => b.read .aside (some c)
          else .error .shape
        else (label variants m t).bind fun b => b.read m (some c)
      | _, _ => .error .shape
    else .error .shape
  | m, .arr (t :: c :: rest) =>
    if m.admits rest.length 0 then
      (text.andThen (labelled variants) m t).bind fun b => b.read m (some c)
    else .error .shape
  | _, _ => .error .shape

end CallGate.Decoder
