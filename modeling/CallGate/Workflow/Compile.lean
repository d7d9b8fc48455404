import CallGate.Operation.Registry
import CallGate.Workflow.Basic
import CallGate.Workflow.Cycle
import CallGate.Workflow.Template

/-!
# From a document to a workflow

A document becomes a workflow when its parts fit together: its steps have ids
of their own and call known operations, whatever names a step names one of
them, no cycle of failures goes on for ever, risky writes are prepared for, and
references go back to earlier steps.  The checks are made in a fixed order, and
the first that fails is the one reported.
-/

namespace CallGate

/-- Why a document is no workflow. -/
inductive CompileError where
  | noSteps
  | emptyStepId (position : Nat)
  | duplicateStepId (step : String)
  | unknownOperation (step : String) (operation : OperationId)
  | zeroMaxAttempts (step : String)
  | unknownJumpTarget (step target : String)
  | unknownFailurePathStep (path step : String)
  | unboundedFailureCycle (steps : List String)
  | missingApprovalIntent (step : String) (operation : OperationId)
  | malformedTemplate (step : String) (error : Template.Error)
  | laterReference (step target : String)
  | unknownCriterionStep (step : String)
  deriving DecidableEq, Inhabited

/-- What is said about it. -/
def CompileError.message : CompileError → String
  | .noSteps => "workflow declares no steps"
  | .emptyStepId position => s!"step at position {position} has an empty id"
  | .duplicateStepId step => "duplicate step id `" ++ step ++ "`"
  | .unknownOperation step operation =>
    "step `" ++ step ++ "` calls unknown operation " ++ operation.display
  | .zeroMaxAttempts step => "step `" ++ step ++ "` declares max_attempts = 0"
  | .unknownJumpTarget step target =>
    "step `" ++ step ++ "` jumps to unknown step `" ++ target ++ "`"
  | .unknownFailurePathStep path step =>
    "failure path `" ++ path ++ "` references unknown step `" ++ step ++ "`"
  | .unboundedFailureCycle steps =>
    "failure transitions cycle through " ++ " -> ".intercalate steps ++
      " with no max_attempts"
  | .missingApprovalIntent step operation =>
    "write_risky step `" ++ step ++ "` (" ++ operation.display ++
      ") has no preceding approval step for " ++ operation.display ++
      " or auto_deny fallback"
  | .malformedTemplate step error =>
    "step `" ++ step ++ "` has invalid template: " ++ error.message
  | .laterReference step target =>
    "step `" ++ step ++ "` has invalid template: `" ++ target ++
      "` is not an earlier step"
  | .unknownCriterionStep step =>
    "success criterion references unknown step `" ++ step ++ "`"

namespace Compile

/-- Does something for each item in turn, up to the first that fails. -/
def forEach {α ε : Type} (check : α → Except ε Unit) : List α → Except ε Unit
  | [] => .ok ()
  | a :: rest =>
    match check a with
    | .error e => .error e
    | .ok () => forEach check rest

/-- Checks that the ids of steps are not blank and differ, `seen` being those
that came before. -/
def checkIds (seen : List String) : List String → Except CompileError Unit
  | [] => .ok ()
  | id :: rest =>
    if Text.isBlankText id then .error (.emptyStepId seen.length)
    else if seen.contains id then .error (.duplicateStepId id)
    else checkIds (seen ++ [id]) rest

/-- Checks that there are steps and that they have ids of their own. -/
def checkStructure (steps : List WrittenStep) : Except CompileError Unit :=
  if steps.isEmpty then .error .noSteps else checkIds [] (steps.map (·.id))

/-- The operation that a step calls. -/
def specOf (registry : Registry) (s : WrittenStep) :
    Except CompileError OperationSpec :=
  match registry.get? s.call.target with
  | some spec => .ok spec
  | none => .error (.unknownOperation s.id s.call.target)

/-- The operations that steps call. -/
def specsOf (registry : Registry) :
    List WrittenStep → Except CompileError (List OperationSpec)
  | [] => .ok []
  | s :: rest =>
    match specOf registry s with
    | .error e => .error e
    | .ok spec => (specsOf registry rest).map (spec :: ·)

/-- What happens when a step fails, `ids` being the ids of all steps. -/
def recourseOf (ids : List String) (s : WrittenStep) :
    Except CompileError Recourse :=
  match s.onFailure with
  | .fail => .ok .fail
  | .continue => .ok .continue
  | .jump target =>
    match ids.idxOf? target with
    | some index => .ok (.jump target index)
    | none => .error (.unknownJumpTarget s.id target)

/-- A step at its place. -/
def stepOf (ids : List String) (index : Nat) (s : WrittenStep)
    (spec : OperationSpec) : Except CompileError Step :=
  if s.maxAttempts = some 0 then .error (.zeroMaxAttempts s.id)
  else
    (recourseOf ids s).map fun recourse =>
      ⟨index, s.id, s.description, spec, s.call.args,
        if s.expect.isEmpty then Expectation.ordinary else s.expect, recourse,
        s.maxAttempts, s.fallback⟩

/-- Steps at their places, the first at `index`. -/
def stepsOf (ids : List String) : Nat → List (WrittenStep × OperationSpec) →
    Except CompileError (List Step)
  | _, [] => .ok []
  | index, (s, spec) :: rest =>
    match stepOf ids index s spec with
    | .error e => .error e
    | .ok step => (stepsOf ids (index + 1) rest).map (step :: ·)

/-- The way that a jump goes. -/
def jumpEdge? (s : Step) : Option FailureEdge :=
  match s.onFailure with
  | .jump target _ => some ⟨s.id, target, .onFailure⟩
  | .fail | .continue => none

/-- The ways that a failure path declares. -/
def declaredEdges (p : FailurePath) : List FailureEdge :=
  p.recovery.map fun step => ⟨p.trigger, step, .declared p.name⟩

/-- Checks that a failure path names steps. -/
def checkFailurePath (ids : List String) (p : FailurePath) :
    Except CompileError Unit :=
  forEach
    (fun step =>
      if ids.contains step then .ok ()
      else .error (.unknownFailurePathStep p.name step))
    (p.trigger :: p.recovery)

/-- The place that follows when the step at a place fails. -/
def failureSuccessor (steps : List Step) (i : Nat) : Option Nat :=
  match steps[i]? with
  | none => none
  | some s =>
    match s.onFailure with
    | .jump _ index => some index
    | .continue => if i + 1 < steps.length then some (i + 1) else none
    | .fail => none

/-- Whether no step of a cycle bounds its attempts. -/
def isUnbounded (steps : List Step) (cycle : List Nat) : Bool :=
  cycle.all fun i => ((steps[i]?).bind (·.maxAttempts)).isNone

/-- Checks that no cycle of failures goes on for ever. -/
def checkFailureCycles (steps : List Step) : Except CompileError Unit :=
  match Cycle.find? (failureSuccessor steps) steps.length
      (isUnbounded steps) with
  | none => .ok ()
  | some cycle => .error (.unboundedFailureCycle (cycle.filterMap fun i =>
    steps[i]?.map (·.id)))

/-- Checks that a risky write denies what it would wait for or follows a step
about its approval, `named` being the operations that earlier steps are
about. -/
def checkApprovalIntent (named : List OperationId) :
    List Step → Except CompileError Unit
  | [] => .ok ()
  | s :: rest =>
    if s.operation.risk = .writeRisky && !named.contains s.operation.id &&
        s.fallback.isNone then
      .error (.missingApprovalIntent s.id s.operation.id)
    else checkApprovalIntent (s.approvalTarget?.toList ++ named) rest

/-- Checks that a reference goes to an earlier step or to the world. -/
def checkReference (ids : List String) (s : Step) :
    Template.Reference → Except CompileError Unit
  | .world _ => .ok ()
  | .step target _ =>
    match ids.idxOf? target with
    | some position =>
      if position < s.index then .ok ()
      else .error (.laterReference s.id target)
    | none => .error (.laterReference s.id target)

/-- Checks the references of a step. -/
def checkTemplates (ids : List String) (s : Step) : Except CompileError Unit :=
  match Template.references s.args with
  | .error e => .error (.malformedTemplate s.id e)
  | .ok references => forEach (checkReference ids s) references

/-- Checks that a criterion names a step. -/
def checkCriterion (ids : List String) : Criterion → Except CompileError Unit
  | .stepSucceeded step =>
    if ids.contains step then .ok () else .error (.unknownCriterionStep step)
  | .allStepsSucceeded | .maxFailures _ | .pendingMax _ => .ok ()

end Compile

namespace WorkflowDocument

/-- The ids of the steps. -/
def stepIds (d : WorkflowDocument) : List String := d.steps.map (·.id)

/-- The workflow of a document, its steps being given. -/
def withSteps (d : WorkflowDocument) (steps : List Step) : Workflow where
  name := d.name
  objective := d.objective
  actors := d.actors
  constraints := d.constraints
  approvals := d.approvals
  steps := steps
  positions := KeyMap.ofList (steps.map fun s => (s.id, s.index))
  failureEdges := steps.filterMap Compile.jumpEdge? ++
    d.failurePaths.flatMap Compile.declaredEdges
  success := d.success
  world := d.world
  structural := .ofValue d.encode
  tags := d.tags
  metadata := d.metadata

/-- The workflow of a document. -/
def compile (d : WorkflowDocument) (registry : Registry) :
    Except CompileError Workflow := do
  Compile.checkStructure d.steps
  let specs ← Compile.specsOf registry d.steps
  let steps ← Compile.stepsOf d.stepIds 0 (d.steps.zip specs)
  Compile.forEach (Compile.checkFailurePath d.stepIds) d.failurePaths
  Compile.checkFailureCycles steps
  Compile.checkApprovalIntent [] steps
  Compile.forEach (Compile.checkTemplates d.stepIds) steps
  Compile.forEach (Compile.checkCriterion d.stepIds) d.success
  return d.withSteps steps

end WorkflowDocument

end CallGate
