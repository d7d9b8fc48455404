import CallGate.Document.Tagged
import CallGate.KeyMap
import CallGate.Operation.Id
import CallGate.Workflow.Expectation
import CallGate.Workflow.FailurePolicy

/-!
# Workflow documents

A workflow as it is written: who takes part and why, the world it starts from,
its steps with their calls, and when it counts as a success.
-/

namespace CallGate

/-- What the workflow is for. -/
structure Objective where
  statement : String := ""
  success : List String := []
  deriving DecidableEq, Inhabited

namespace Objective

def encode (o : Objective) : Json :=
  .obj [("statement", .str o.statement), ("success", .arr (o.success.map .str))]

def decode : Decoder Objective :=
  Reads.record ["statement", "success"] <|
    Objective.mk <$> Reads.defaulted "statement" Decoder.text "" <*>
      Reads.defaulted "success" (Decoder.list Decoder.text) []

end Objective

/-- Somebody who takes part. -/
structure Actor where
  id : String
  role : String
  email : Option String
  slack : Option String
  deriving DecidableEq, Inhabited

namespace Actor

def encode (a : Actor) : Json :=
  .obj ([("actor_id", .str a.id)] ++ Json.memberIf "email" Json.str a.email ++
    [("role", .str a.role)] ++ Json.memberIf "slack" Json.str a.slack)

def decode : Decoder Actor :=
  Reads.record ["actor_id", "role", "email", "slack"] <|
    Actor.mk <$> Reads.required "actor_id" Decoder.text <*>
      Reads.required "role" Decoder.text <*>
      Reads.optional "email" Decoder.text <*>
      Reads.optional "slack" Decoder.text

end Actor

/-- A rule of the business. -/
structure Constraint where
  name : String
  description : String
  required : Bool
  deriving DecidableEq, Inhabited

namespace Constraint

def encode (c : Constraint) : Json :=
  .obj [("description", .str c.description), ("name", .str c.name),
    ("required", .bool c.required)]

def decode : Decoder Constraint :=
  Reads.record ["name", "description", "required"] <|
    Constraint.mk <$> Reads.required "name" Decoder.text <*>
      Reads.defaulted "description" Decoder.text "" <*>
      Reads.defaulted "required" Decoder.bool true

end Constraint

/-- A stage at which somebody has to approve. -/
structure ApprovalStage where
  stage : String
  approver : String
  required : Bool
  evidence : Option String
  deriving DecidableEq, Inhabited

namespace ApprovalStage

def encode (s : ApprovalStage) : Json :=
  .obj ([("approver", .str s.approver)] ++
    Json.memberIf "evidence" Json.str s.evidence ++
    [("required", .bool s.required), ("stage", .str s.stage)])

def decode : Decoder ApprovalStage :=
  Reads.record ["stage", "approver", "required", "evidence"] <|
    ApprovalStage.mk <$> Reads.required "stage" Decoder.text <*>
      Reads.required "approver" Decoder.text <*>
      Reads.defaulted "required" Decoder.bool true <*>
      Reads.optional "evidence" Decoder.text

end ApprovalStage

/-- Steps that make up for the failure of a step. -/
structure FailurePath where
  name : String
  trigger : String
  recovery : List String
  notes : Option String
  deriving DecidableEq, Inhabited

namespace FailurePath

def encode (p : FailurePath) : Json :=
  .obj ([("name", .str p.name)] ++ Json.memberIf "notes" Json.str p.notes ++
    [("recovery_steps", .arr (p.recovery.map .str)),
      ("trigger_step", .str p.trigger)])

def decode : Decoder FailurePath :=
  Reads.record ["name", "trigger_step", "recovery_steps", "notes"] <|
    FailurePath.mk <$> Reads.required "name" Decoder.text <*>
      Reads.required "trigger_step" Decoder.text <*>
      Reads.defaulted "recovery_steps" (Decoder.list Decoder.text) [] <*>
      Reads.optional "notes" Decoder.text

end FailurePath

/-- When the workflow counts as a success. -/
inductive Criterion where
  /-- The last attempt of a step passed. -/
  | stepSucceeded (step : String)
  /-- The last attempt of every step passed. -/
  | allStepsSucceeded
  /-- At most so many attempts failed. -/
  | maxFailures (max : Nat)
  /-- At most so many approvals wait in the end. -/
  | pendingMax (max : Nat)
  deriving DecidableEq, Inhabited

namespace Criterion

def encode : Criterion → Json
  | .stepSucceeded step =>
    .obj [("kind", .str "step_succeeded"), ("step", .str step)]
  | .allStepsSucceeded => .obj [("kind", .str "all_steps_succeeded")]
  | .maxFailures max =>
    .obj [("kind", .str "max_failures"), ("max", .ofNat max)]
  | .pendingMax max => .obj [("kind", .str "pending_max"), ("max", .ofNat max)]

def decode : Decoder Criterion :=
  Decoder.tagged "kind"
    [("step_succeeded", Reads.record ["step"] <|
        Criterion.stepSucceeded <$> Reads.required "step" Decoder.text),
      ("all_steps_succeeded", Decoder.bare .allStepsSucceeded),
      ("max_failures", Reads.record ["max"] <|
        Criterion.maxFailures <$> Reads.required "max" Decoder.word64),
      ("pending_max", Reads.record ["max"] <|
        Criterion.pendingMax <$> Reads.required "max" Decoder.word64)]

end Criterion

/-- What is done about an approval that a step would wait for. -/
inductive ApprovalFallback where
  /-- It is denied. -/
  | autoDeny
  deriving DecidableEq, Inhabited

namespace ApprovalFallback

def label : ApprovalFallback → String
  | .autoDeny => "auto_deny"

def encode (f : ApprovalFallback) : Json := .str f.label

def decode : Decoder ApprovalFallback :=
  Decoder.label [("auto_deny", .autoDeny)]

end ApprovalFallback

/-- A call as it is written. -/
structure WrittenCall where
  service : String
  operation : String
  args : Json
  deriving DecidableEq, Inhabited

namespace WrittenCall

def encode (c : WrittenCall) : Json :=
  .obj [("args", c.args), ("operation", .str c.operation),
    ("service", .str c.service)]

def decode : Decoder WrittenCall :=
  Reads.record ["service", "operation", "args"] <|
    WrittenCall.mk <$> Reads.required "service" Decoder.text <*>
      Reads.required "operation" Decoder.text <*>
      Reads.defaulted "args" Decoder.value .null

/-- The operation that is called. -/
def target (c : WrittenCall) : OperationId := ⟨c.service, c.operation⟩

end WrittenCall

/-- A step as it is written. -/
structure WrittenStep where
  id : String
  description : String
  call : WrittenCall
  expect : List Expectation
  onFailure : FailurePolicy
  maxAttempts : Option Nat
  fallback : Option ApprovalFallback
  deriving DecidableEq, Inhabited

namespace WrittenStep

def encode (s : WrittenStep) : Json :=
  .obj (Json.memberIf "approval_fallback" ApprovalFallback.encode s.fallback ++
    [("call", s.call.encode), ("description", .str s.description),
      ("expect", .arr (s.expect.map Expectation.encode)), ("id", .str s.id)] ++
    Json.memberIf "max_attempts" Json.ofNat s.maxAttempts ++
    [("on_failure", s.onFailure.encode)])

def decode : Decoder WrittenStep :=
  Reads.record
      ["id", "description", "call", "expect", "on_failure", "max_attempts",
        "approval_fallback"] <|
    WrittenStep.mk <$> Reads.required "id" Decoder.text <*>
      Reads.defaulted "description" Decoder.text "" <*>
      Reads.required "call" WrittenCall.decode <*>
      Reads.defaulted "expect" (Decoder.list Expectation.decode) [] <*>
      Reads.defaulted "on_failure" FailurePolicy.decode .fail <*>
      Reads.optional "max_attempts" Decoder.word32 <*>
      Reads.optional "approval_fallback" ApprovalFallback.decode

end WrittenStep

/-- A workflow as it is written. -/
structure WorkflowDocument where
  name : String
  objective : Objective
  world : Json
  actors : List Actor
  constraints : List Constraint
  approvals : List ApprovalStage
  steps : List WrittenStep
  success : List Criterion
  failurePaths : List FailurePath
  tags : List String
  metadata : KeyMap String Json
  deriving DecidableEq, Inhabited

namespace WorkflowDocument

def encode (d : WorkflowDocument) : Json :=
  .obj [("actors", .arr (d.actors.map Actor.encode)),
    ("approvals", .arr (d.approvals.map ApprovalStage.encode)),
    ("constraints", .arr (d.constraints.map Constraint.encode)),
    ("failure_paths", .arr (d.failurePaths.map FailurePath.encode)),
    ("metadata", .obj d.metadata.entries), ("name", .str d.name),
    ("objective", d.objective.encode),
    ("steps", .arr (d.steps.map WrittenStep.encode)),
    ("success", .arr (d.success.map Criterion.encode)),
    ("tags", .arr (d.tags.map .str)), ("world", d.world)]

def decode : Decoder WorkflowDocument :=
  Reads.record
      ["name", "objective", "world", "actors", "constraints", "approvals",
        "steps", "success", "failure_paths", "tags", "metadata"] <|
    WorkflowDocument.mk <$> Reads.required "name" Decoder.text <*>
      Reads.defaulted "objective" Objective.decode {} <*>
      Reads.defaulted "world" Decoder.value .null <*>
      Reads.defaulted "actors" (Decoder.list Actor.decode) [] <*>
      Reads.defaulted "constraints" (Decoder.list Constraint.decode) [] <*>
      Reads.defaulted "approvals" (Decoder.list ApprovalStage.decode) [] <*>
      Reads.required "steps" (Decoder.list WrittenStep.decode) <*>
      Reads.defaulted "success" (Decoder.list Criterion.decode) [] <*>
      Reads.defaulted "failure_paths" (Decoder.list FailurePath.decode) [] <*>
      Reads.defaulted "tags" (Decoder.list Decoder.text) [] <*>
      Reads.defaulted "metadata" (Decoder.textMap Decoder.value) KeyMap.empty

end WorkflowDocument

end CallGate
