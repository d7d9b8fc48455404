import CallGate.Operation.Basic

/-!
# Registries

The operations that a session knows, by id.  The five operations on the queue
of approvals are always there, and no other operation may belong to their
service.  An operation is registered once.
-/

namespace CallGate

/-- Why an operation is not registered. -/
inductive RegistryError where
  | duplicate (id : OperationId)
  | reservedService (id : OperationId)
  deriving DecidableEq, Inhabited

/-- What is said about it. -/
def RegistryError.message : RegistryError → String
  | .duplicate id => "duplicate operation registration: " ++ id.display
  | .reservedService id =>
    "service `approvals` is reserved for approval control: " ++ id.display

/-- The known operations by id. -/
structure Registry where
  specs : KeyMap OperationId OperationSpec
  deriving DecidableEq, Inhabited

namespace Registry

/-- The registry of the operations on the queue of approvals alone. -/
def controls : Registry :=
  ⟨KeyMap.ofList (ApprovalControl.all.map fun c => (c.id, .viaControl c))⟩

/-- What is known about an operation. -/
def get? (r : Registry) (id : OperationId) : Option OperationSpec :=
  r.specs.get? id

/-- Whether an operation is known. -/
def contains (r : Registry) (id : OperationId) : Bool := r.specs.contains id

/-- Registers an operation that goes to the adapter of its service. -/
def register (r : Registry) (id : OperationId) (risk : RiskClass) :
    Except RegistryError Registry :=
  if id.service = ApprovalControl.service then .error (.reservedService id)
  else if r.contains id then .error (.duplicate id)
  else .ok ⟨r.specs.insert id (.viaAdapter id risk)⟩

/-- Registers operations one after the other, up to the first that is
refused. -/
def registerAll (r : Registry) (entries : List (OperationId × RiskClass)) :
    Except RegistryError Registry :=
  entries.foldlM (fun r e => r.register e.1 e.2) r

/-- All operations in the order of their ids. -/
def list (r : Registry) : List OperationSpec := r.specs.values

/-- The number of operations. -/
def size (r : Registry) : Nat := r.specs.size

/-- Of equal neighbours the first alone. -/
def dropRepeats : List String → List String
  | [] => []
  | s :: rest =>
    match dropRepeats rest with
    | [] => [s]
    | t :: more => if s = t then t :: more else s :: t :: more

/-- The services with an operation that goes to an adapter.  As the ids are in
order, the operations of a service are neighbours. -/
def services (r : Registry) : List String :=
  dropRepeats ((r.list.filter fun s =>
    s.route.control?.isNone).map (·.id.service))

end Registry

end CallGate
