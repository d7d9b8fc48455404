import CallGate.Document.Tagged
import CallGate.Operation.Id

/-!
# Operations

What is known about an operation: how risky it is and where a call of it goes.
Most operations go to the adapter of their service; five of them act on the
queue of approvals instead.
-/

namespace CallGate

/-- How risky an operation is. -/
inductive RiskClass where
  | read
  | writeSafe
  | writeRisky
  deriving DecidableEq, Inhabited

namespace RiskClass

def label : RiskClass → String
  | .read => "read"
  | .writeSafe => "write_safe"
  | .writeRisky => "write_risky"

/-- Whether the operation changes anything. -/
def isWrite : RiskClass → Bool
  | .read => false
  | .writeSafe | .writeRisky => true

def encode (c : RiskClass) : Json := .str c.label

def decode : Decoder RiskClass :=
  Decoder.label [("read", .read), ("write_safe", .writeSafe),
    ("write_risky", .writeRisky)]

end RiskClass

/-- An operation on the queue of approvals. -/
inductive ApprovalControl where
  /-- Asks for an approval. -/
  | request
  /-- Reports how the latest approval was resolved. -/
  | status
  /-- Approves what waits. -/
  | approve
  /-- Denies what waits. -/
  | deny
  /-- Lists all approvals. -/
  | list
  deriving DecidableEq, Inhabited

namespace ApprovalControl

def all : List ApprovalControl := [.request, .status, .approve, .deny, .list]

/-- The written name, which is also the operation's. -/
def label : ApprovalControl → String
  | .request => "request"
  | .status => "status"
  | .approve => "approve"
  | .deny => "deny"
  | .list => "list"

/-- The service that these operations belong to. -/
def service : String := "approvals"

/-- The operation's id. -/
def id (c : ApprovalControl) : OperationId := ⟨service, c.label⟩

def encode (c : ApprovalControl) : Json := .str c.label

def decode : Decoder ApprovalControl :=
  Decoder.label (all.map fun c => (c.label, c))

end ApprovalControl

/-- Where a call goes. -/
inductive Route where
  /-- To the adapter of the service. -/
  | adapter
  /-- To the queue of approvals. -/
  | control (c : ApprovalControl)
  deriving DecidableEq, Inhabited

namespace Route

/-- The control, when the call goes to the queue. -/
def control? : Route → Option ApprovalControl
  | .adapter => none
  | .control c => some c

def encode : Route → Json
  | .adapter => .obj [("kind", .str "adapter")]
  | .control c =>
    .obj [("control", c.encode), ("kind", .str "approval_control")]

def decode : Decoder Route :=
  Decoder.kindAndContent "kind" "control"
    [("adapter", .nothing .adapter),
      ("approval_control", .something (ApprovalControl.decode.map .control))]

end Route

/-- An operation's id, class and route. -/
structure OperationSpec where
  id : OperationId
  risk : RiskClass
  route : Route
  deriving DecidableEq, Inhabited

namespace OperationSpec

/-- An operation that goes to the adapter of its service. -/
def viaAdapter (id : OperationId) (risk : RiskClass) : OperationSpec :=
  ⟨id, risk, .adapter⟩

/-- An operation on the queue of approvals.  It changes nothing outside the
session. -/
def viaControl (c : ApprovalControl) : OperationSpec :=
  ⟨c.id, .read, .control c⟩

def encode (s : OperationSpec) : Json :=
  .obj [("class", s.risk.encode), ("id", s.id.encode),
    ("route", s.route.encode)]

def decode : Decoder OperationSpec :=
  Reads.record ["id", "class", "route"] <|
    OperationSpec.mk <$> Reads.required "id" OperationId.decode <*>
      Reads.required "class" RiskClass.decode <*>
      Reads.required "route" Route.decode

end OperationSpec

end CallGate
