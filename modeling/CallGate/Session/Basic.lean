import CallGate.Session.Sink
import CallGate.Session.State

/-!
# Sessions

A session takes up calls one after the other, sends their receipts to its sink
and tells the audit.  When the sink refuses a receipt the call has still
happened: the session is the same as it would be otherwise, but the caller gets
an error and the audit is not told.
-/

namespace CallGate

/-- What leaves a session: an event that the audit is told, or lines that are
written to the file of receipts. -/
inductive Emission where
  | event (event : AuditEvent)
  | lines (text : List Char)
  deriving DecidableEq, Inhabited

/-- The event, when it is one. -/
def Emission.event? : Emission → Option AuditEvent
  | .event e => some e
  | .lines _ => none

/-- A session. -/
structure Session where
  setup : SessionSetup
  state : SessionState
  sink : ReceiptSink
  /-- What left the session, in order. -/
  emitted : List Emission
  deriving Inhabited

/-- Why a dispatch has no answer. -/
inductive DispatchError where
  /-- The call was not taken up. -/
  | call (error : CallError)
  /-- The receipt was refused. -/
  | persistence (error : SinkError)
  deriving DecidableEq, Inhabited

/-- What is said about it. -/
def DispatchError.message : DispatchError → String
  | .call error => error.message
  | .persistence error => "receipt persistence failed: " ++ error.message

/-- The answer to a dispatch. -/
structure Dispatch where
  request : Request
  decision : Decision
  response : Response
  receipt : Receipt
  deriving DecidableEq, Inhabited

namespace Dispatch

def encode (d : Dispatch) : Json :=
  .obj [("decision", d.decision.encode), ("receipt", d.receipt.encode),
    ("request", d.request.encode), ("result", d.response.encode)]

end Dispatch

/-- What closing a session reports. -/
structure SessionReport where
  session : String
  receipts : Nat
  /-- The ids of the approvals that expired. -/
  expired : List String
  deriving DecidableEq, Inhabited

namespace SessionReport

def encode (r : SessionReport) : Json :=
  .obj [("expired", .arr (r.expired.map .str)), ("receipts", .ofNat r.receipts),
    ("session_id", .str r.session)]

end SessionReport

namespace Session

/-- A session before the first call. -/
def start (setup : SessionSetup) (snapshot : Json) (clock : Clock)
    (sink : ReceiptSink) : Session :=
  ⟨setup, .start setup.config snapshot clock, sink, []⟩

/-- The id of the session. -/
def id (s : Session) : String := s.setup.config.id

/-- What the audit was told, in order. -/
def trail (s : Session) : List AuditEvent := s.emitted.filterMap Emission.event?

/-- Tells the audit. -/
def tell (s : Session) (events : List AuditEvent) : Session :=
  { s with emitted := s.emitted ++ events.map .event }

/-- Writes lines of receipts. -/
def write (s : Session) (text : List Char) : Session :=
  { s with emitted := s.emitted ++ if text.isEmpty then [] else [.lines text] }

@[simp] theorem trail_tell (s : Session) (events : List AuditEvent) :
    (s.tell events).trail = s.trail ++ events := by
  simp [trail, tell, List.filterMap_map, Function.comp_def, Emission.event?]

@[simp] theorem trail_write (s : Session) (text : List Char) :
    (s.write text).trail = s.trail := by
  by_cases h : text = [] <;> simp [trail, write, h, Emission.event?]

/-- The event of an answered dispatch. -/
def dispatchEvent (s : Session) (t : Taken) : AuditEvent :=
  .dispatch
    ⟨s.id, t.request.sequence, t.request.operation, t.request.risk,
      t.executed.mode, t.executed.decision, t.executed.response.status,
      t.executed.response.error.map (·.kind)⟩

/-- Dispatches a call.  The audit is told of approvals before the receipt is
sent, and of the dispatch after that. -/
def dispatch (s : Session) (operation : OperationId) (args : Json) :
    Except DispatchError Dispatch × Session :=
  match s.setup.take operation args s.state with
  | .error e => (.error (.call e), s)
  | .ok t =>
    let sending := s.sink.send (s.id, t.receipt)
    let told := { s with state := t.state, sink := sending.sink }.tell t.events
    let after := told.write sending.written
    match sending.refusal with
    | some e => (.error (.persistence e), after)
    | none =>
      (.ok ⟨t.request, t.executed.decision, t.executed.response, t.receipt⟩,
        after.tell [s.dispatchEvent t])

/-- The arguments of a decision about an operation, or about one call of it. -/
def decisionArgs (operation : OperationId) (args : Option Json) : Json :=
  .obj (Json.memberIf "args" (fun v => v) args ++
    [("operation", .str operation.name), ("service", .str operation.service)])

/-- Dispatches a decision about an operation, or about one call of it. -/
def resolve (s : Session) (control : ApprovalControl) (operation : OperationId)
    (args : Option Json) : Except DispatchError Dispatch × Session :=
  s.dispatch control.id (decisionArgs operation args)

/-- The oldest approval that a call would wait for. -/
def blocking (s : Session) (operation : OperationId) (args : Json) :
    Except CallError (Option Approval) :=
  match Arguments.ofValue operation args with
  | .error e => .error (.badArguments e)
  | .ok a =>
    .ok (s.state.approvals.unresolvedFor? operation (callDigest operation a))

/-- How many approvals wait. -/
def pendingCount (s : Session) : Nat := s.state.approvals.unresolvedCount

/-- Closes the session and flushes its sink. -/
def close (s : Session) : Except DispatchError SessionReport × Session :=
  let (expired, state, events) := s.setup.close s.state
  let sending := s.sink.flush
  let after :=
    ({ s with state := state, sink := sending.sink }.tell events).write
      sending.written
  match sending.refusal with
  | some e => (.error (.persistence e), after)
  | none => (.ok ⟨s.id, state.receipts.length, expired.map (·.id)⟩, after)

end Session

end CallGate
