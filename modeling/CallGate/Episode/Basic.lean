import CallGate.Episode.Criteria
import CallGate.Session.Audit
import CallGate.Workflow.Template

/-!
# Episodes

A run of a workflow.  Attempts are settled one by one: an attempt that passed
leads to the next step, one that failed to wherever the step says, as long as
attempts and jumps are left.  What is settled here does not touch the session;
events for the audit are given back.
-/

namespace CallGate

/-- The limits of an episode. -/
structure EpisodeLimits where
  maxJumps : Nat := 8
  maxExecutions : Nat := 256
  deriving DecidableEq, Inhabited

namespace EpisodeLimits

def encode (l : EpisodeLimits) : Json :=
  .obj [("max_jumps", .ofNat l.maxJumps),
    ("max_step_executions", .ofNat l.maxExecutions)]

def decode : Decoder EpisodeLimits :=
  Reads.record ["max_jumps", "max_step_executions"] <|
    EpisodeLimits.mk <$> Reads.defaulted "max_jumps" Decoder.word32 8 <*>
      Reads.defaulted "max_step_executions" Decoder.word32 256

end EpisodeLimits

/-- A run of a workflow. -/
structure Episode where
  workflow : Workflow
  limits : EpisodeLimits
  state : EpisodeState
  /-- The data of the last response to each step, for references. -/
  data : KeyMap String Json
  deriving DecidableEq, Inhabited

namespace Episode

/-- The run before the first step. -/
def start (w : Workflow) (limits : EpisodeLimits) : Episode :=
  ⟨w, limits, .start w.name, KeyMap.empty⟩

/-- An event about the episode. -/
def event (e : Episode) (name : String) (step : Option String) (detail : Json) :
    AuditEvent :=
  .episode ⟨name, e.workflow.name, step, e.state.status.label, detail⟩

/-- The arguments of a step with references replaced. -/
def arguments (e : Episode) (step : Step) : Except Template.Error Json :=
  Template.resolve ⟨e.data, e.workflow.world⟩ step.args

/-- The place after a step, when there is one. -/
def next? (e : Episode) (step : Step) : Option Nat :=
  if step.index + 1 < e.workflow.steps.length then some (step.index + 1)
  else none

/-- The episode ended for a reason. -/
def terminate (e : Episode) (status : EpisodeStatus) (reason : EndReason)
    (step : Option String) : Episode × List AuditEvent :=
  let ended :=
    { e with state := { e.state with status := status, reason := some reason } }
  (ended, [ended.event "episode_status" step reason.encode])

/-- Whether an attempt of a number is the last that a step may have. -/
def isExhausted (step : Step) (number : Nat) : Bool :=
  match step.maxAttempts with
  | some max => max ≤ number
  | none => false

/-- Where a failed attempt leads: the transition, the place, the jumps used,
and why the episode ends if it does. -/
def afterFailure (e : Episode) (step : Step) (number : Nat) :
    Transition × Option Nat × Nat × Option EndReason :=
  let s := e.state
  if isExhausted step number then
    (.stop, s.current, s.jumps, some (.stepFailed step.id))
  else
    match step.onFailure with
    | .fail => (.stop, s.current, s.jumps, some (.stepFailed step.id))
    | .continue => (.continue, e.next? step, s.jumps, none)
    | .jump target index =>
      if e.limits.maxJumps ≤ s.jumps then
        (.stop, s.current, s.jumps,
          some (.jumpLimitExceeded step.id e.limits.maxJumps))
      else (.jump target, some index, s.jumps + 1, none)

/-- Where an attempt leads. -/
def after (e : Episode) (step : Step) (number : Nat) (verdict : Verdict) :
    Transition × Option Nat × Nat × Option EndReason :=
  if verdict.isPassed then (.advance, e.next? step, e.state.jumps, none)
  else e.afterFailure step number

/-- Settles an attempt of a step. -/
def settle (e : Episode) (step : Step) (verdict : Verdict)
    (sent : Option Sent) : Episode × List AuditEvent :=
  let number := e.state.attemptCount step.id + 1
  let (transition, current, jumps, reason) := e.after step number verdict
  let attempt := Attempt.make step.id number sent verdict transition
  let settled :=
    { e with
      state := { e.state with
        current := current, jumps := jumps,
        history := e.state.history ++ [attempt] } }
  match reason with
  | none => (settled, [])
  | some reason => settled.terminate .failed reason (some step.id)

/-- The steps that have no attempt. -/
def unvisited (e : Episode) : List String :=
  (e.workflow.steps.map (·.id)).filter fun id => (e.state.latest? id).isNone

/-- Ends an episode whose last step is behind. -/
def finish (e : Episode) (pending : Nat) : Episode × List AuditEvent :=
  match e.unvisited with
  | step :: steps => e.terminate .failed (.stepsNotVisited (step :: steps)) none
  | [] =>
    match e.state.complaints e.workflow pending with
    | [] => e.terminate .succeeded .completed none
    | failures => e.terminate .failed (.successCriteriaFailed failures) none

/-- Ends an episode from outside.  A step that waits has an attempt whose
approval expired. -/
def expire (e : Episode) : Episode × List AuditEvent :=
  match e.state.suspended with
  | none => e.terminate .aborted .episodeTimeout none
  | some s =>
    let number := e.state.attemptCount s.step + 1
    let attempt :=
      Attempt.make s.step number none (.approvalExpired s.approval) .stop
    let expired :=
      { e with
        state := { e.state with
          suspended := none, history := e.state.history ++ [attempt] } }
    expired.terminate .aborted .episodeTimeout none

end Episode

end CallGate
