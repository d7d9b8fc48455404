import CallGate.Document.Reads
import CallGate.Text.Blank
import CallGate.Text.Split

/-!
# Operation names

An operation belongs to a service and is written `service.operation`.  Reading
such a text trims it and cuts it at the first dot, so a service has no dot in
it while an operation may, and neither may be empty.  Ids are ordered by
service, then by operation.
-/

namespace CallGate

/-- The service and the name of an operation. -/
structure OperationId where
  service : String
  name : String
  deriving DecidableEq, Inhabited

namespace OperationId

def display (id : OperationId) : String := id.service ++ "." ++ id.name

/-- Reads a written id. -/
def read (text : String) : Except Misfit OperationId :=
  match Text.cutAtFirst '.' (Text.trimChars text.toList) with
  | some (service, name) =>
    if service.isEmpty || name.isEmpty then .error (.operation text)
    else .ok ⟨String.ofList service, String.ofList name⟩
  | none => .error (.operation text)

def encode (id : OperationId) : Json := .str id.display

def decode : Decoder OperationId := Decoder.text.andThen read

instance : Ord OperationId where
  compare a b := (compare a.service b.service).then (compare a.name b.name)

theorem compare_def (a b : OperationId) :
    compare a b = (compare a.service b.service).then (compare a.name b.name) :=
  rfl

instance : Std.OrientedOrd OperationId where
  eq_swap {a b} := by
    rw [compare_def, compare_def, Ordering.swap_then,
      ← Std.OrientedCmp.eq_swap, ← Std.OrientedCmp.eq_swap]

instance : Std.TransOrd OperationId where
  isLE_trans {a b c} hab hbc := by
    rw [compare_def] at *
    rw [Ordering.isLE_then_iff_or] at *
    rcases hab with hab | ⟨hab, hab'⟩ <;> rcases hbc with hbc | ⟨hbc, hbc'⟩
    · exact .inl (Std.TransCmp.lt_trans hab hbc)
    · exact .inl (Std.TransCmp.lt_of_lt_of_eq hab hbc)
    · exact .inl (Std.TransCmp.lt_of_eq_of_lt hab hbc)
    · exact .inr ⟨Std.TransCmp.eq_trans hab hbc,
      Std.TransCmp.isLE_trans hab' hbc'⟩

instance : Std.LawfulEqOrd OperationId where
  eq_of_compare {a b} h := by
    rw [compare_def, Ordering.then_eq_eq] at h
    cases a; cases b
    simp_all

end OperationId

/-- A set of operations. -/
abbrev OperationSet := KeySet OperationId

/-- The set as a value. -/
def OperationSet.encode (s : OperationSet) : Json :=
  .arr (s.keys.map OperationId.encode)

/-- The set that a value holds. -/
def OperationSet.decode : Decoder OperationSet :=
  Decoder.setOf OperationId.decode

end CallGate
