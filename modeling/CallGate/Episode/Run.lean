import CallGate.Episode.Basic
import CallGate.Session.Basic

/-!
# Running an episode with a session

An episode goes on, turn by turn, until it is over or waits for an approval.  A
step whose call an approval is waiting for is not dispatched: the episode
waits, or denies the approval if the step says so.  The turns of a run are
bounded by the steps and the jumps that are left.
-/

namespace CallGate

/-- Where a run stops. -/
inductive Progress where
  | suspended (s : Suspension)
  | finished (status : EpisodeStatus)
  deriving DecidableEq, Inhabited

/-- Why a run fails. -/
inductive EpisodeError where
  | dispatch (error : DispatchError)
  /-- The episode is at a step that its workflow does not have. -/
  | noStep (index : Nat)
  /-- The episode waits for an approval that the session does not have. -/
  | unknownApproval (approval : String)
  /-- The bound on turns is reached, which cannot happen to a workflow that
  fits together. -/
  | unsettled
  deriving DecidableEq, Inhabited

/-- What is said about it. -/
def EpisodeError.message : EpisodeError → String
  | .dispatch error => error.message
  | .noStep index => s!"inconsistent run state: no step at index {index}"
  | .unknownApproval approval =>
    "inconsistent run state: unknown approval " ++ approval
  | .unsettled => "inconsistent run state: no end in sight"

/-- What a turn leads to: another turn, or the end of the run. -/
inductive Turn where
  | onward
  | over (result : Except EpisodeError Progress)

/-- What looking after a suspension leads to. -/
inductive Resumption where
  | unknown (approval : String)
  | waiting (s : Suspension)
  | settled (e : Episode) (events : List AuditEvent)
  | clear (e : Episode) (events : List AuditEvent)

namespace Episode

/-- An episode that does not wait. -/
def awake (e : Episode) : Episode :=
  { e with state := { e.state with suspended := none } }

/-- Looks after a suspension. -/
def resume (e : Episode) (step : Step) (queue : Approval.Queue) : Resumption :=
  match e.state.suspended with
  | none => .clear e []
  | some s =>
    match queue.get? s.approval with
    | none => .unknown s.approval
    | some approval =>
      match approval.resolution with
      | .unresolved => .waiting s
      | .approved =>
        .clear e.awake
          [e.awake.event "episode_resumed" (some step.id)
            (.obj [("approval_id", .str s.approval)])]
      | .denied =>
        let (settled, events) :=
          e.awake.settle step (.approvalDenied s.approval) none
        .settled settled events
      | .expired =>
        let (settled, events) :=
          e.awake.settle step (.approvalExpired s.approval) none
        .settled settled events

/-- The approval that a step would wait for, and the arguments of the step. -/
def blockedBy? (e : Episode) (step : Step) (s : Session) :
    Option (String × Json) :=
  if step.isApprovalStep then none
  else
    match e.arguments step with
    | .error _ => none
    | .ok args =>
      match s.blocking step.operation.id args with
      | .ok (some a) => some (a.id, args)
      | .ok none | .error _ => none

/-- Ends the episode because a dispatch failed for good. -/
def abort (e : Episode) (s : Session) (step : Step) (error : DispatchError) :
    Turn × Episode × Session :=
  let (ended, events) :=
    e.terminate .aborted (.routerFailure error.message) (some step.id)
  (.over (.error (.dispatch error)), ended, s.tell events)

/-- Settles an attempt and goes on. -/
def settleOn (e : Episode) (s : Session) (step : Step) (verdict : Verdict)
    (sent : Option Sent) : Turn × Episode × Session :=
  let (settled, events) := e.settle step verdict sent
  (.onward, settled, s.tell events)

/-- Denies the approval that a step would wait for. -/
def denyBlocking (e : Episode) (s : Session) (step : Step) (approval : String)
    (args : Json) : Turn × Episode × Session :=
  match s.resolve .deny step.operation.id (some args) with
  | (.error error, s) => e.abort s step error
  | (.ok _, s) => e.settleOn s step (.approvalDenied approval) none

/-- Waits for an approval. -/
def suspend (e : Episode) (s : Session) (step : Step) (approval : String) :
    Turn × Episode × Session :=
  let suspension : Suspension := ⟨step.id, approval⟩
  let waiting :=
    { e with state := { e.state with suspended := some suspension } }
  (.over (.ok (.suspended suspension)), waiting,
    s.tell
      [waiting.event "episode_suspended" (some step.id)
        (.obj [("approval_id", .str approval)])])

/-- The verdict on a response. -/
def verdictOn (step : Step) (r : Response) (pending : Nat) : Verdict :=
  match Expectation.complaints step.expect r pending with
  | [] => .passed
  | failures => .assertionFailed failures

/-- Attempts a step. -/
def attempt (e : Episode) (s : Session) (step : Step) :
    Turn × Episode × Session :=
  let e :=
    { e with state := { e.state with executions := e.state.executions + 1 } }
  match e.arguments step with
  | .error error => e.settleOn s step (.assertionFailed [error.message]) none
  | .ok args =>
    match s.dispatch step.operation.id args with
    | (.error error, s) =>
      match error with
      | .call (.unknownOperation _) | .call (.badArguments _) =>
        e.settleOn s step (.assertionFailed [error.message]) none
      | .call (.closed _) | .persistence _ => e.abort s step error
    | (.ok d, s) =>
      let e := { e with data := e.data.insert step.id d.response.data }
      e.settleOn s step (verdictOn step d.response s.pendingCount)
        (some ⟨d.response.sequence, d.response.fingerprint, d.response.status⟩)

/-- Goes on with a step that does not wait for anything asked for earlier. -/
def proceed (e : Episode) (s : Session) (step : Step) :
    Turn × Episode × Session :=
  match e.blockedBy? step s with
  | some (approval, args) =>
    match step.fallback with
    | some .autoDeny => e.denyBlocking s step approval args
    | none => e.suspend s step approval
  | none =>
    if e.limits.maxExecutions ≤ e.state.executions then
      let (ended, events) := e.terminate .aborted .episodeTimeout (some step.id)
      (.onward, ended, s.tell events)
    else e.attempt s step

/-- Takes a turn. -/
def turn (e : Episode) (s : Session) : Turn × Episode × Session :=
  if e.state.status.isTerminal then
    (.over (.ok (.finished e.state.status)), e, s)
  else
    match e.state.current with
    | none =>
      let (ended, events) := e.finish s.pendingCount
      (.onward, ended, s.tell events)
    | some index =>
      match e.workflow.steps[index]? with
      | none => (.over (.error (.noStep index)), e, s)
      | some step =>
        match e.resume step s.state.approvals with
        | .unknown approval =>
          (.over (.error (.unknownApproval approval)), e, s)
        | .waiting suspension => (.over (.ok (.suspended suspension)), e, s)
        | .settled settled events => (.onward, settled, s.tell events)
        | .clear e events => e.proceed (s.tell events) step

/-- Takes turns up to a number. -/
def turns :
    Nat → Episode → Session → Except EpisodeError Progress × Episode × Session
  | 0, e, s => (.error .unsettled, e, s)
  | fuel + 1, e, s =>
    match e.turn s with
    | (.over result, e, s) => (result, e, s)
    | (.onward, e, s) => turns fuel e s

/-- The most turns of a run: an attempt for each step between any two jumps,
and two to end it. -/
def maxTurns (e : Episode) : Nat :=
  e.workflow.steps.length * (e.limits.maxJumps + 1) + 2

/-- Runs the episode until it is over or waits. -/
def run (e : Episode) (s : Session) :
    Except EpisodeError Progress × Episode × Session :=
  turns e.maxTurns e s

/-- Ends the episode and closes the session. -/
def endEpisode (e : Episode) (s : Session) :
    Except EpisodeError EpisodeStatus × Episode × Session :=
  let (report, s) := s.close
  let (e, events) := if e.state.status.isTerminal then (e, []) else e.expire
  let s := s.tell events
  match report with
  | .error error => (.error (.dispatch error), e, s)
  | .ok _ => (.ok e.state.status, e, s)

end Episode

end CallGate
