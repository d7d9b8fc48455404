import CallGate.Backend.Adapters
import CallGate.Call.Receipt
import CallGate.Operation.Registry
import CallGate.Policy.Gate
import CallGate.Redaction.Value
import CallGate.Session.Audit
import CallGate.Session.Config

/-!
# The state of a session

A call that names a known operation and has arguments of the right kind takes
the next sequence number.  It is gated and, if allowed, served by the adapter
of its service; calls that act on the queue of approvals are carried out on the
queue and not gated.  Either way a receipt is added to the log.  Nothing here
depends on where receipts are sent.
-/

namespace CallGate

/-- What stays the same during a session. -/
structure SessionSetup where
  config : SessionConfig := {}
  registry : Registry := .controls
  simulators : Simulators := .office
  /-- The outcomes that are replayed. -/
  recorded : Fixtures := KeyMap.empty
  backend : Option LiveBackend := none
  deriving Inhabited

namespace SessionSetup

/-- All that serves calls. -/
def adapters (s : SessionSetup) : Adapters :=
  ⟨s.config.modes, s.simulators, s.recorded, s.config.guard, s.backend⟩

end SessionSetup

/-- What changes during a session. -/
structure SessionState where
  /-- The sequence number given last. -/
  sequence : Nat
  world : World
  approvals : Approval.Queue
  /-- The log. -/
  receipts : List Receipt
  /-- The outcomes recorded in this session. -/
  fixtures : Fixtures
  clock : Clock
  closed : Bool
  deriving DecidableEq, Inhabited

namespace SessionState

/-- The state before the first call. -/
def start (config : SessionConfig) (snapshot : Json) (clock : Clock) :
    SessionState :=
  ⟨0, .start snapshot, .empty config.policy.matching, [], KeyMap.empty, clock,
    false⟩

end SessionState

/-- What was done about a call: the decision, the response, and the mode of the
adapter that ran. -/
structure Executed where
  decision : Decision
  response : Response
  mode : Option Mode
  deriving DecidableEq, Inhabited

/-- What was done about a call, the state after it, and the changes of
approvals. -/
structure Execution where
  executed : Executed
  state : SessionState
  events : List AuditEvent
  deriving Inhabited

namespace SessionSetup

/-- The event of a change of an approval. -/
def approvalEvent (s : SessionSetup) (approval : String)
    (operation : OperationId) (resolution : Approval.Resolution)
    (sequence : Nat) : AuditEvent :=
  .approval ⟨s.config.id, approval, operation, resolution, sequence⟩

/-- What a caller is told about an approval: its id, the operation and how it
stands. -/
def approvalData (id : Option String) (operation : OperationId)
    (resolution : String) : Json :=
  .obj [("approval_id", .ofText? id), ("operation", operation.encode),
    ("resolution", .str resolution)]

/-- Serves a call that is allowed, and records the outcome. -/
def serve (s : SessionSetup) (r : Request) (st : SessionState) :
    Outcome × SessionState :=
  let (outcome, world) := s.adapters.execute s.config.seed r st.world
  let st := { st with world := world }
  if s.adapters.modeOf r = .replay then (outcome, st)
  else
    (outcome, { st with fixtures := st.fixtures.insert r.fingerprint outcome })

/-- Gates a call and serves it if it is allowed. -/
def executeGated (s : SessionSetup) (r : Request) (st : SessionState) :
    Execution :=
  let (gate, queue) := s.config.policy.evaluate r st.approvals
  let st := { st with approvals := queue }
  let events :=
    match gate.enqueued, gate.approval with
    | true, some id => [s.approvalEvent id r.operation .unresolved st.sequence]
    | _, _ => []
  match gate.decision.action with
  | .deny =>
    ⟨⟨gate.decision,
      .refused r.sequence r.fingerprint .policyDenied
        (r.operation.display ++ " denied by policy: " ++
          gate.decision.reason.label), none⟩,
      st, events⟩
  | .requireApproval =>
    ⟨⟨gate.decision,
      .pending r.sequence r.fingerprint
        (approvalData gate.approval r.operation
          Approval.Resolution.unresolved.label), none⟩,
      st, events⟩
  | .allow =>
    let (outcome, st) := s.serve r st
    ⟨⟨gate.decision, .ofOutcome r.sequence r.fingerprint outcome,
      some (s.adapters.modeOf r)⟩, st, events⟩

/-- The operation that arguments name, which has to go to an adapter, or what
is wrong with them. -/
def controlOperation (s : SessionSetup) (args : Arguments) :
    Except String OperationId :=
  match (Json.member? "service" args).bind Json.text? with
  | none => .error "missing string field `service`"
  | some service =>
    match (Json.member? "operation" args).bind Json.text? with
    | none => .error "missing string field `operation`"
    | some operation =>
      let id : OperationId := ⟨service, operation⟩
      match s.registry.get? id with
      | some ⟨_, _, .adapter⟩ => .ok id
      | _ => .error ("no approvable operation " ++ id.display)

/-- What arguments are about: all calls of an operation, or the call with the
arguments inside. -/
def controlTarget (s : SessionSetup) (args : Arguments) :
    Except String Approval.Target :=
  match s.controlOperation args with
  | .error e => .error e
  | .ok operation =>
    match Json.member? "args" args with
    | none => .ok (.everyCall operation)
    | some v =>
      match Arguments.ofValue operation v with
      | .error e => .error e.message
      | .ok callArgs =>
        .ok (s.config.policy.targetFor operation
          (callDigest operation callArgs))

/-- The response to a call on the queue that went through. -/
def controlOk (r : Request) (data : Json) : Executed :=
  ⟨.allow .control,
    .ok r.sequence r.fingerprint
      ⟨data, .obj [("adapter", .str "control"), ("payload", data)]⟩, none⟩

/-- The response to a call on the queue that did not. -/
def controlRefused (r : Request) (kind : ResponseErrorKind) (message : String) :
    Executed :=
  ⟨.allow .control, .refused r.sequence r.fingerprint kind message, none⟩

/-- Lists the queue. -/
def controlList (r : Request) (st : SessionState) : Executed :=
  let approvals : Json := .arr (st.approvals.entries.map Approval.encode)
  ⟨.allow .control,
    .ok r.sequence r.fingerprint
      ⟨.obj [("approvals", approvals)],
        .obj [("adapter", .str "control"), ("approvals", approvals)]⟩, none⟩

/-- Asks for an approval, unless one waits already. -/
def controlRequest (s : SessionSetup) (r : Request) (target : Approval.Target)
    (st : SessionState) : Execution :=
  let data (id : String) : Json :=
    approvalData (some id) target.operation Approval.Resolution.unresolved.label
  match st.approvals.openFor? target with
  | some a => ⟨controlOk r (data a.id), st, []⟩
  | none =>
    let id := st.approvals.nextId
    ⟨controlOk r (data id),
      { st with
        approvals := st.approvals.enqueue target r.fingerprint r.sequence },
      [s.approvalEvent id target.operation .unresolved st.sequence]⟩

/-- Reports the newest approval. -/
def controlStatus (r : Request) (target : Approval.Target) (st : SessionState) :
    Executed :=
  let latest := st.approvals.latestFor? target
  controlOk r (approvalData (latest.map (·.id)) target.operation
    (match latest with | some a => a.resolution.label | none => "none"))

/-- Decides what waits. -/
def controlDecide (s : SessionSetup) (r : Request) (target : Approval.Target)
    (resolution : Approval.Resolution) (st : SessionState) : Execution :=
  match st.approvals.decide target resolution r.sequence with
  | .error e => ⟨controlRefused r .approvalNotFound e.message, st, []⟩
  | .ok (decided, queue) =>
    ⟨controlOk r (.obj [("operation", target.operation.encode),
        ("resolution", resolution.encode),
        ("resolved", .arr (decided.map fun a => .str a.id))]),
      { st with approvals := queue },
      decided.map fun a =>
        s.approvalEvent a.id target.operation resolution st.sequence⟩

/-- Carries out a call on the queue of approvals. -/
def executeControl (s : SessionSetup) (r : Request) (c : ApprovalControl)
    (st : SessionState) : Execution :=
  if c = .list then ⟨controlList r st, st, []⟩
  else
    match s.controlTarget r.args with
    | .error message =>
      ⟨controlRefused r .invalidControlArguments message, st, []⟩
    | .ok target =>
      match c with
      | .list => ⟨controlList r st, st, []⟩
      | .request => s.controlRequest r target st
      | .status => ⟨controlStatus r target st, st, []⟩
      | .approve => s.controlDecide r target .approved st
      | .deny => s.controlDecide r target .denied st

/-- Carries out a call. -/
def execute (s : SessionSetup) (r : Request) (route : Route)
    (st : SessionState) : Execution :=
  match route with
  | .adapter => s.executeGated r st
  | .control c => s.executeControl r c st

/-- What a receipt shows of a response: its error, or else its data. -/
def shown (r : Response) : Json :=
  match r.error with
  | some e => .obj [("error", e.encode)]
  | none => r.data

/-- The receipt of a call. -/
def receiptOf (r : Request) (e : Executed) (timestamp : Timestamp) :
    Receipt where
  sequence := r.sequence
  fingerprint := r.fingerprint
  service := r.operation.service
  operation := r.operation.name
  risk := r.risk
  decision := e.decision
  status := e.response.status
  redactedArgs := .obj (Redaction.redactMembers r.args)
  redactedResult := Redaction.redact (shown e.response)
  timestamp := timestamp

end SessionSetup

/-- Why a call is not taken up. -/
inductive CallError where
  | closed (session : String)
  | unknownOperation (operation : OperationId)
  | badArguments (error : ArgumentsError)
  deriving DecidableEq, Inhabited

/-- What is said about it. -/
def CallError.message : CallError → String
  | .closed session => "session " ++ session ++ " is closed"
  | .unknownOperation operation => "unknown operation: " ++ operation.display
  | .badArguments error => "invalid arguments: " ++ error.message

/-- A call that was taken up. -/
structure Taken where
  request : Request
  executed : Executed
  receipt : Receipt
  state : SessionState
  events : List AuditEvent
  deriving Inhabited

namespace SessionSetup

/-- The request of a call at a state, with the route of its operation. -/
def requestFor (s : SessionSetup) (operation : OperationId) (args : Json)
    (st : SessionState) : Except CallError (Request × Route) :=
  if st.closed then .error (.closed s.config.id)
  else
    match s.registry.get? operation with
    | none => .error (.unknownOperation operation)
    | some spec =>
      match Request.build s.config.seed (st.sequence + 1) spec.id spec.risk
          args with
      | .error e => .error (.badArguments e)
      | .ok request => .ok (request, spec.route)

/-- Takes up a call. -/
def take (s : SessionSetup) (operation : OperationId) (args : Json)
    (st : SessionState) : Except CallError Taken :=
  (s.requestFor operation args st).map fun (request, route) =>
    let e := s.execute request route { st with sequence := request.sequence }
    let (timestamp, clock) := e.state.clock.read
    let receipt := receiptOf request e.executed timestamp
    ⟨request, e.executed, receipt,
      { e.state with
        receipts := e.state.receipts ++ [receipt], clock := clock },
      e.events⟩

/-- Lets the waiting approvals expire and closes the session, unless it is
closed. -/
def close (s : SessionSetup) (st : SessionState) :
    List Approval × SessionState × List AuditEvent :=
  if st.closed then ([], st, [])
  else
    let (expired, queue) := st.approvals.expireAll st.sequence
    (expired, { st with approvals := queue, closed := true },
      expired.map fun a =>
        s.approvalEvent a.id a.target.operation .expired st.sequence)

end SessionSetup

end CallGate
