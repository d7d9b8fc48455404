import CallGate.Document.Tree

/-!
# Decoders

A document is read as a thing of a type by a decoder.  The ways a document can
fail to fit are causes (`Misfit`), of which only two carry a text.  What may be
spelled in a document depends in a few places on its medium, which every
decoder is told.
-/

namespace CallGate

/-- Why a document does not fit a type. -/
inductive Misfit where
  /-- It has another shape: a field is missing or repeated, a label unknown, a
  number out of range, or the text is not even a document. -/
  | shape
  /-- A text that should name an operation does not. -/
  | operation (text : String)
  /-- A text that should say what to do on failure does not. -/
  | failurePolicy (text : String)
  deriving DecidableEq, Inhabited

/-- What is said about a misfit. -/
def Misfit.message : Misfit → Option String
  | .shape => none
  | .operation text =>
    some s!"operation must be written as service.operation: {text}"
  | .failurePolicy text =>
    some
      (s!"on_failure must be fail, continue, skip, or jump:<step_id>; got " ++
        "`" ++ text ++ "`")

/-- What a document is read from. -/
inductive Medium where
  /-- JSON, from front to back. -/
  | json
  /-- A part that was set aside until it was known how to read it. -/
  | aside
  | toml
  deriving DecidableEq, Inhabited

namespace Medium

/-- Whether a part says nothing, as has to be so for what stands beside a
label. -/
def saysNothing : Medium → Tree → Bool
  | .json, .null => true
  | .aside, .null | .aside, .obj [] => true
  | .toml, .obj [] | .toml, .arr [] => true
  | _, _ => false

/-- Whether a part may be passed over.  In TOML every part is looked at, in
JSON none is that nobody asks for. -/
def passesOver : Medium → Tree → Bool
  | .json, _ | .aside, _ => true
  | .toml, t => t.isPassable

/-- Whether a list of so many items may be taken for a record of so many
fields.  In TOML nobody looks for items after the last field. -/
def admits (m : Medium) (items fields : Nat) : Bool :=
  m = .toml || items ≤ fields

end Medium

/-- A reading of documents as things of a type. -/
abbrev Decoder (α : Type) := Medium → Tree → Except Misfit α

namespace Decoder

variable {α β : Type}

/-- Does something with what was read. -/
def map (f : α → β) (read : Decoder α) : Decoder β :=
  fun m t => (read m t).map f

/-- Reads on from what was read. -/
def andThen (read : Decoder α) (next : α → Except Misfit β) :
    Decoder β := fun m t =>
  (read m t).bind next

/-- Reads a value. -/
def ofValue (read : Decoder α) (v : Json) : Except Misfit α :=
  read .json (.ofJson v)

/-- Any value. -/
def value : Decoder Json := fun _ t =>
  match t.value? with
  | some v => .ok v
  | none => .error .shape

/-- A string. -/
def text : Decoder String
  | _, .str s => .ok s
  | _, _ => .error .shape

/-- A Boolean. -/
def bool : Decoder Bool
  | _, .bool b => .ok b
  | _, _ => .error .shape

/-- An integer of at least `low` and below `high`. -/
def integer (low high : Int) : Decoder Int
  | _, .num (.int i) => if low ≤ i ∧ i < high then .ok i else .error .shape
  | _, _ => .error .shape

/-- A natural number below a bound. -/
def natural (bound : Nat) : Decoder Nat
  | _, .num (.int i) => if 0 ≤ i ∧ i < bound then .ok i.toNat else .error .shape
  | _, _ => .error .shape

/-- A natural number of 32 bits. -/
def word32 : Decoder Nat := natural UInt32.size

/-- A natural number of 64 bits. -/
def word64 : Decoder Nat := natural UInt64.size

/-- A signed integer of 64 bits. -/
def signed64 : Decoder Int := integer (-(Nat.pow 2 63 : Int)) (Nat.pow 2 63)

/-- What a label of a table stands for. -/
def labelled (table : List (String × α)) (s : String) : Except Misfit α :=
  match table.lookup s with
  | some a => .ok a
  | none => .error .shape

/-- A label of a table.  It is also accepted as the name of the only member of
an object, when nothing is said beside it. -/
def label (table : List (String × α)) : Decoder α
  | _, .str s => labelled table s
  | m, .obj [(some s, t)] =>
    if m.saysNothing t then labelled table s else .error .shape
  | _, _ => .error .shape

/-- Null, or something that is there. -/
def nullable (read : Decoder α) : Decoder (Option α)
  | _, .null => .ok none
  | m, t => (read m t).map some

/-- Reads items one after the other. -/
def items (read : Decoder α) (m : Medium) : List Tree → Except Misfit (List α)
  | [] => .ok []
  | t :: rest =>
    match read m t with
    | .error e => .error e
    | .ok a => (items read m rest).map (a :: ·)

/-- A list. -/
def list (read : Decoder α) : Decoder (List α)
  | m, .arr ts => items read m ts
  | _, _ => .error .shape

/-- Reads members one after the other, the name before what stands under it. -/
def entries {κ : Type} (key : String → Except Misfit κ) (read : Decoder α)
    (m : Medium) : List (Option String × Tree) → Except Misfit (List (κ × α))
  | [] => .ok []
  | (none, _) :: _ => .error .shape
  | (some name, t) :: rest =>
    match key name with
    | .error e => .error e
    | .ok k =>
      match read m t with
      | .error e => .error e
      | .ok a => (entries key read m rest).map ((k, a) :: ·)

/-- A map whose keys are written as names. -/
def mapOf {κ : Type} [Ord κ] [Std.TransOrd κ] (key : String → Except Misfit κ)
    (read : Decoder α) : Decoder (KeyMap κ α)
  | m, .obj members => (entries key read m members).map KeyMap.ofList
  | _, _ => .error .shape

/-- A map whose keys are texts. -/
def textMap (read : Decoder α) : Decoder (KeyMap String α) := mapOf .ok read

/-- A set, written as a list. -/
def setOf {κ : Type} [Ord κ] [Std.TransOrd κ] (read : Decoder κ) :
    Decoder (KeySet κ) :=
  (list read).map KeySet.ofList

end Decoder

end CallGate
