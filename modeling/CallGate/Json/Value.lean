import CallGate.KeyMap
import CallGate.Number.Binary64

/-!
# JSON values

An object lists its members in ascending order of their names.  Numbers are
integers or binary floating-point numbers, and the two kinds are never equal.
-/

namespace CallGate

/-- A JSON number. -/
inductive Number where
  | int (value : Int)
  | real (value : Binary64)
  deriving DecidableEq, Inhabited

/-- A JSON value. -/
inductive Json where
  | null
  | bool (value : Bool)
  | num (value : Number)
  | str (text : String)
  | arr (items : List Json)
  | obj (members : List (String × Json))
  deriving Inhabited

namespace Json

mutual

/-- Equality of values is decided by comparing them part by part. -/
def decEq : (v w : Json) → Decidable (v = w)
  | .null, w => match w with
    | .null => isTrue rfl
    | .bool _ | .num _ | .str _ | .arr _ | .obj _ => isFalse (by simp)
  | .bool a, w => match w with
    | .bool b => decidable_of_iff (a = b) (by simp)
    | .null | .num _ | .str _ | .arr _ | .obj _ => isFalse (by simp)
  | .num a, w => match w with
    | .num b => decidable_of_iff (a = b) (by simp)
    | .null | .bool _ | .str _ | .arr _ | .obj _ => isFalse (by simp)
  | .str a, w => match w with
    | .str b => decidable_of_iff (a = b) (by simp)
    | .null | .bool _ | .num _ | .arr _ | .obj _ => isFalse (by simp)
  | .arr a, w => match w with
    | .arr b => @decidable_of_iff _ (a = b) (by simp) (decEqItems a b)
    | .null | .bool _ | .num _ | .str _ | .obj _ => isFalse (by simp)
  | .obj a, w => match w with
    | .obj b => @decidable_of_iff _ (a = b) (by simp) (decEqMembers a b)
    | .null | .bool _ | .num _ | .str _ | .arr _ => isFalse (by simp)
termination_by structural v => v

/-- Equality of lists of items. -/
def decEqItems : (v w : List Json) → Decidable (v = w)
  | [], w => match w with
    | [] => isTrue rfl
    | _ :: _ => isFalse (by simp)
  | a :: v, w => match w with
    | [] => isFalse (by simp)
    | b :: w => @decidable_of_iff _ (a = b ∧ v = w) (by simp)
        (@instDecidableAnd _ _ (decEq a b) (decEqItems v w))
termination_by structural v => v

/-- Equality of lists of members. -/
def decEqMembers : (v w : List (String × Json)) → Decidable (v = w)
  | [], w => match w with
    | [] => isTrue rfl
    | _ :: _ => isFalse (by simp)
  | (k, a) :: v, w => match w with
    | [] => isFalse (by simp)
    | (l, b) :: w => @decidable_of_iff _ ((k = l ∧ a = b) ∧ v = w) (by simp)
        (@instDecidableAnd _ _
          (@instDecidableAnd _ _ (inferInstance) (decEq a b))
          (decEqMembers v w))
termination_by structural v => v

end

instance : DecidableEq Json := decEq

/-- The integer value. -/
def ofInt (i : Int) : Json := .num (.int i)

/-- The integer value of a natural number. -/
def ofNat (n : Nat) : Json := .num (.int n)

/-- What is written for a value that may be missing: null stands for its
absence. -/
def orNull {α : Type} (encode : α → Json) : Option α → Json
  | some a => encode a
  | none => .null

/-- The text or null. -/
def ofText? : Option String → Json := orNull .str

/-- The member of a name, when there is a value for it. -/
def memberIf {α : Type} (name : String) (encode : α → Json) :
    Option α → List (String × Json)
  | some a => [(name, encode a)]
  | none => []

/-- The first member of a given name in a list of members. -/
def member? (name : String) (members : List (String × Json)) : Option Json :=
  (members.find? fun m => m.1 = name).map (·.2)

/-- The member of a given name, when the value is an object that has one. -/
def get? (v : Json) (name : String) : Option Json :=
  match v with
  | .obj members => member? name members
  | _ => none

/-- The text of a string value. -/
def text? : Json → Option String
  | .str s => some s
  | _ => none

/-- Whether the value is null. -/
def isNull : Json → Bool
  | .null => true
  | _ => false

/-- The word for the kind of a value. -/
def kindName : Json → String
  | .null => "null"
  | .bool _ => "boolean"
  | .num _ => "number"
  | .str _ => "string"
  | .arr _ => "array"
  | .obj _ => "object"

/-- A number as part of a value: one that is not finite is nothing a value can
hold. -/
def ofNumber : Number → Json
  | .int i => .num (.int i)
  | .real x => if x.isFinite then .num (.real x) else .null

/-- Equality of numbers: within a kind, floating-point numbers by value. -/
def sameNumber : Number → Number → Bool
  | .int a, .int b => a == b
  | .real a, .real b => a.sameValue b
  | _, _ => false

mutual

/-- Equality as the program compares values: part by part, floating-point
numbers by value. -/
def same : Json → Json → Bool
  | .null, w => match w with | .null => true | _ => false
  | .bool a, w => match w with | .bool b => a == b | _ => false
  | .num a, w => match w with | .num b => sameNumber a b | _ => false
  | .str a, w => match w with | .str b => a == b | _ => false
  | .arr a, w => match w with | .arr b => sameItems a b | _ => false
  | .obj a, w => match w with | .obj b => sameMembers a b | _ => false
termination_by structural v => v

/-- Equality of lists of items. -/
def sameItems : List Json → List Json → Bool
  | [], w => w.isEmpty
  | a :: v, w =>
    match w with | [] => false | b :: w => same a b && sameItems v w
termination_by structural v => v

/-- Equality of lists of members. -/
def sameMembers : List (String × Json) → List (String × Json) → Bool
  | [], w => w.isEmpty
  | (k, a) :: v, w => match w with
    | [] => false
    | (l, b) :: w => k == l && same a b && sameMembers v w
termination_by structural v => v

end

end Json

end CallGate
