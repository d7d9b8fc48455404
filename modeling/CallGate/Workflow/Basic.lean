import CallGate.Digest.Content
import CallGate.Document.Tagged
import CallGate.Operation.Basic
import CallGate.Workflow.Document

/-!
# Workflows

A workflow that can be run: every step knows its operation and its place, and
every jump the place that it leads to.
-/

namespace CallGate

/-- What happens when a step fails, with the place that a jump leads to. -/
inductive Recourse where
  | fail
  | continue
  | jump (target : String) (index : Nat)
  deriving DecidableEq, Inhabited

namespace Recourse

def encode : Recourse → Json
  | .fail => .obj [("kind", .str "fail")]
  | .continue => .obj [("kind", .str "continue")]
  | .jump target index =>
    .obj [("index", .ofNat index), ("kind", .str "jump"),
      ("target", .str target)]

def decode : Decoder Recourse :=
  Decoder.tagged "kind"
    [("fail", Decoder.bare .fail), ("continue", Decoder.bare .continue),
      ("jump", Reads.record ["target", "index"] <|
        Recourse.jump <$> Reads.required "target" Decoder.text <*>
          Reads.required "index" Decoder.word64)]

end Recourse

/-- A step that can be run. -/
structure Step where
  index : Nat
  id : String
  description : String
  operation : OperationSpec
  args : Json
  expect : List Expectation
  onFailure : Recourse
  maxAttempts : Option Nat
  fallback : Option ApprovalFallback
  deriving DecidableEq, Inhabited

namespace Step

/-- Whether the step acts on the queue of approvals. -/
def isApprovalStep (s : Step) : Bool := s.operation.route.control?.isSome

/-- The operation that the arguments name with plain strings. -/
def namedOperation? (args : Json) : Option OperationId :=
  match (args.get? "service").bind Json.text?,
    (args.get? "operation").bind Json.text? with
  | some service, some operation => some ⟨service, operation⟩
  | _, _ => none

/-- The operation whose approval the step asks for, reports or gives. -/
def approvalTarget? (s : Step) : Option OperationId :=
  match s.operation.route with
  | .control .request | .control .status | .control .approve =>
    namedOperation? s.args
  | .control .deny | .control .list | .adapter => none

def encode (s : Step) : Json :=
  .obj [("approval_fallback", .orNull ApprovalFallback.encode s.fallback),
    ("args", s.args), ("description", .str s.description),
    ("expect", .arr (s.expect.map Expectation.encode)), ("id", .str s.id),
    ("index", .ofNat s.index),
    ("max_attempts", .orNull Json.ofNat s.maxAttempts),
    ("on_failure", s.onFailure.encode), ("operation", s.operation.encode)]

def decode : Decoder Step :=
  Reads.record
      ["index", "id", "description", "operation", "args", "expect",
        "on_failure", "max_attempts", "approval_fallback"] <|
    Step.mk <$> Reads.required "index" Decoder.word64 <*>
      Reads.required "id" Decoder.text <*>
      Reads.required "description" Decoder.text <*>
      Reads.required "operation" OperationSpec.decode <*>
      Reads.required "args" Decoder.value <*>
      Reads.required "expect" (Decoder.list Expectation.decode) <*>
      Reads.required "on_failure" Recourse.decode <*>
      Reads.nullable "max_attempts" Decoder.word32 <*>
      Reads.nullable "approval_fallback" ApprovalFallback.decode

end Step

/-- Where a way from a failing step to another one comes from. -/
inductive FailureEdgeOrigin where
  /-- The step jumps there. -/
  | onFailure
  /-- A failure path of that name says so. -/
  | declared (name : String)
  deriving DecidableEq, Inhabited

/-- A way from a failing step to another one. -/
structure FailureEdge where
  source : String
  target : String
  origin : FailureEdgeOrigin
  deriving DecidableEq, Inhabited

namespace FailureEdge

/-- The origin as a value. -/
def encodeOrigin : FailureEdgeOrigin → Json
  | .onFailure => .obj [("kind", .str "on_failure")]
  | .declared name => .obj [("kind", .str "declared"), ("name", .str name)]

/-- The origin that a value holds. -/
def decodeOrigin : Decoder FailureEdgeOrigin :=
  Decoder.kindAndContent "kind" "name"
    [("on_failure", .nothing .onFailure),
      ("declared", .something (Decoder.text.map .declared))]

def encode (e : FailureEdge) : Json :=
  .obj [("from", .str e.source), ("kind", encodeOrigin e.origin),
    ("to", .str e.target)]

def decode : Decoder FailureEdge :=
  Reads.record ["from", "to", "kind"] <|
    FailureEdge.mk <$> Reads.required "from" Decoder.text <*>
      Reads.required "to" Decoder.text <*> Reads.required "kind" decodeOrigin

end FailureEdge

/-- A workflow that can be run. -/
structure Workflow where
  name : String
  objective : Objective
  actors : List Actor
  constraints : List Constraint
  approvals : List ApprovalStage
  steps : List Step
  /-- The places of the steps by their ids. -/
  positions : KeyMap String Nat
  failureEdges : List FailureEdge
  success : List Criterion
  world : Json
  /-- The digest of the document. -/
  structural : ContentDigest
  tags : List String
  metadata : KeyMap String Json
  deriving DecidableEq, Inhabited

namespace Workflow

/-- The place of a step. -/
def position? (w : Workflow) (id : String) : Option Nat := w.positions.get? id

/-- The step of a given id. -/
def step? (w : Workflow) (id : String) : Option Step :=
  (w.position? id).bind fun i => w.steps[i]?

def encode (w : Workflow) : Json :=
  .obj [("actors", .arr (w.actors.map Actor.encode)),
    ("approvals", .arr (w.approvals.map ApprovalStage.encode)),
    ("constraints", .arr (w.constraints.map Constraint.encode)),
    ("failure_edges", .arr (w.failureEdges.map FailureEdge.encode)),
    ("index", .obj (w.positions.entries.map fun e => (e.1, .ofNat e.2))),
    ("metadata", .obj w.metadata.entries), ("name", .str w.name),
    ("objective", w.objective.encode),
    ("steps", .arr (w.steps.map Step.encode)),
    ("structural_fingerprint", w.structural.encode),
    ("success", .arr (w.success.map Criterion.encode)),
    ("tags", .arr (w.tags.map .str)), ("world", w.world)]

def decode : Decoder Workflow :=
  Reads.record
      ["name", "objective", "actors", "constraints", "approvals", "steps",
        "index", "failure_edges", "success", "world", "structural_fingerprint",
        "tags", "metadata"] <|
    Workflow.mk <$> Reads.required "name" Decoder.text <*>
      Reads.required "objective" Objective.decode <*>
      Reads.required "actors" (Decoder.list Actor.decode) <*>
      Reads.required "constraints" (Decoder.list Constraint.decode) <*>
      Reads.required "approvals" (Decoder.list ApprovalStage.decode) <*>
      Reads.required "steps" (Decoder.list Step.decode) <*>
      Reads.required "index" (Decoder.textMap Decoder.word64) <*>
      Reads.required "failure_edges" (Decoder.list FailureEdge.decode) <*>
      Reads.required "success" (Decoder.list Criterion.decode) <*>
      Reads.required "world" Decoder.value <*>
      Reads.required "structural_fingerprint" ContentDigest.decode <*>
      Reads.required "tags" (Decoder.list Decoder.text) <*>
      Reads.required "metadata" (Decoder.textMap Decoder.value)

end Workflow

end CallGate
