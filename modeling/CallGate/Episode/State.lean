import CallGate.Call.Response
import CallGate.Document.Tagged

/-!
# The state of an episode

How far an episode has come: the step it is at, the history of its attempts,
how many jumps and executions it has used, what it waits for, and why it ended.
-/

namespace CallGate

/-- How an episode stands. -/
inductive EpisodeStatus where
  | running
  | succeeded
  | failed
  | aborted
  deriving DecidableEq, Inhabited

namespace EpisodeStatus

def label : EpisodeStatus → String
  | .running => "running"
  | .succeeded => "succeeded"
  | .failed => "failed"
  | .aborted => "aborted"

def all : List EpisodeStatus := [.running, .succeeded, .failed, .aborted]

/-- Whether the episode is over. -/
def isTerminal (s : EpisodeStatus) : Bool := s ≠ .running

def encode (s : EpisodeStatus) : Json := .str s.label

def decode : Decoder EpisodeStatus :=
  Decoder.label (all.map fun s => (s.label, s))

end EpisodeStatus

/-- Why an episode ended. -/
inductive EndReason where
  /-- All steps were visited and the criteria hold. -/
  | completed
  | stepFailed (step : String)
  | jumpLimitExceeded (step : String) (limit : Nat)
  | stepsNotVisited (steps : List String)
  | successCriteriaFailed (failures : List String)
  /-- The executions are used up, or the episode was ended from outside. -/
  | episodeTimeout
  /-- A dispatch failed for good. -/
  | routerFailure (message : String)
  deriving DecidableEq, Inhabited

namespace EndReason

def encode : EndReason → Json
  | .completed => .obj [("kind", .str "completed")]
  | .stepFailed step => .obj [("kind", .str "step_failed"), ("step", .str step)]
  | .jumpLimitExceeded step limit =>
    .obj [("kind", .str "jump_limit_exceeded"), ("limit", .ofNat limit),
      ("step", .str step)]
  | .stepsNotVisited steps =>
    .obj [("kind", .str "steps_not_visited"), ("steps", .arr (steps.map .str))]
  | .successCriteriaFailed failures =>
    .obj [("failures", .arr (failures.map .str)),
      ("kind", .str "success_criteria_failed")]
  | .episodeTimeout => .obj [("kind", .str "episode_timeout")]
  | .routerFailure message =>
    .obj [("kind", .str "router_failure"), ("message", .str message)]

def decode : Decoder EndReason :=
  Decoder.tagged "kind"
    [("completed", Decoder.bare .completed),
      ("step_failed", Reads.record ["step"] <|
        EndReason.stepFailed <$> Reads.required "step" Decoder.text),
      ("jump_limit_exceeded", Reads.record ["step", "limit"] <|
        EndReason.jumpLimitExceeded <$> Reads.required "step" Decoder.text <*>
          Reads.required "limit" Decoder.word32),
      ("steps_not_visited", Reads.record ["steps"] <|
        EndReason.stepsNotVisited <$>
          Reads.required "steps" (Decoder.list Decoder.text)),
      ("success_criteria_failed", Reads.record ["failures"] <|
        EndReason.successCriteriaFailed <$>
          Reads.required "failures" (Decoder.list Decoder.text)),
      ("episode_timeout", Decoder.bare .episodeTimeout),
      ("router_failure", Reads.record ["message"] <|
        EndReason.routerFailure <$> Reads.required "message" Decoder.text)]

end EndReason

/-- What came of an attempt. -/
inductive Verdict where
  /-- The response met all expectations. -/
  | passed
  /-- It did not, or there was none. -/
  | assertionFailed (failures : List String)
  /-- The approval that the step waited for was denied. -/
  | approvalDenied (approval : String)
  /-- The approval that the step waited for expired. -/
  | approvalExpired (approval : String)
  deriving DecidableEq, Inhabited

namespace Verdict

/-- Whether the attempt passed. -/
def isPassed : Verdict → Bool
  | .passed => true
  | .assertionFailed _ | .approvalDenied _ | .approvalExpired _ => false

def encode : Verdict → Json
  | .passed => .obj [("kind", .str "passed")]
  | .assertionFailed failures =>
    .obj [("failures", .arr (failures.map .str)),
      ("kind", .str "assertion_failed")]
  | .approvalDenied approval =>
    .obj [("approval", .str approval), ("kind", .str "approval_denied")]
  | .approvalExpired approval =>
    .obj [("approval", .str approval), ("kind", .str "approval_expired")]

def decode : Decoder Verdict :=
  Decoder.tagged "kind"
    [("passed", Decoder.bare .passed),
      ("assertion_failed", Reads.record ["failures"] <|
        Verdict.assertionFailed <$>
          Reads.required "failures" (Decoder.list Decoder.text)),
      ("approval_denied", Reads.record ["approval"] <|
        Verdict.approvalDenied <$> Reads.required "approval" Decoder.text),
      ("approval_expired", Reads.record ["approval"] <|
        Verdict.approvalExpired <$> Reads.required "approval" Decoder.text)]

end Verdict

/-- Where the episode went after an attempt. -/
inductive Transition where
  /-- To the next step, the attempt having passed. -/
  | advance
  /-- To the next step, the attempt having failed. -/
  | continue
  /-- To another step. -/
  | jump (target : String)
  /-- Nowhere: it ended. -/
  | stop
  deriving DecidableEq, Inhabited

namespace Transition

def encode : Transition → Json
  | .advance => .obj [("kind", .str "advance")]
  | .continue => .obj [("kind", .str "continue")]
  | .jump target => .obj [("kind", .str "jump"), ("target", .str target)]
  | .stop => .obj [("kind", .str "stop")]

def decode : Decoder Transition :=
  Decoder.kindAndContent "kind" "target"
    [("advance", .nothing .advance), ("continue", .nothing .continue),
      ("jump", .something (Decoder.text.map .jump)), ("stop", .nothing .stop)]

end Transition

/-- What is known of the dispatch of an attempt. -/
structure Sent where
  sequence : Nat
  fingerprint : String
  status : ResponseStatus
  deriving DecidableEq, Inhabited

/-- An attempt of a step. -/
structure Attempt where
  step : String
  /-- The number of the attempt among those of its step, counted from one. -/
  number : Nat
  sequence : Option Nat
  fingerprint : Option String
  status : Option ResponseStatus
  verdict : Verdict
  transition : Transition
  deriving DecidableEq, Inhabited

namespace Attempt

/-- An attempt with what is known of its dispatch, if there was one. -/
def make (step : String) (number : Nat) (sent : Option Sent) (verdict : Verdict)
    (transition : Transition) : Attempt :=
  ⟨step, number, sent.map (·.sequence), sent.map (·.fingerprint),
    sent.map (·.status), verdict, transition⟩

def encode (a : Attempt) : Json :=
  .obj ([("attempt", .ofNat a.number)] ++
    Json.memberIf "fingerprint" Json.str a.fingerprint ++
    Json.memberIf "result_status" ResponseStatus.encode a.status ++
    Json.memberIf "sequence" Json.ofNat a.sequence ++
    [("step", .str a.step), ("transition", a.transition.encode),
      ("verdict", a.verdict.encode)])

def decode : Decoder Attempt :=
  Reads.record
      ["step", "attempt", "sequence", "fingerprint", "result_status", "verdict",
        "transition"] <|
    Attempt.mk <$> Reads.required "step" Decoder.text <*>
      Reads.required "attempt" Decoder.word32 <*>
      Reads.optional "sequence" Decoder.word64 <*>
      Reads.optional "fingerprint" Decoder.text <*>
      Reads.optional "result_status" ResponseStatus.decode <*>
      Reads.required "verdict" Verdict.decode <*>
      Reads.required "transition" Transition.decode

end Attempt

/-- What a step waits for. -/
structure Suspension where
  step : String
  approval : String
  deriving DecidableEq, Inhabited

namespace Suspension

def encode (s : Suspension) : Json :=
  .obj [("approval", .str s.approval), ("step", .str s.step)]

def decode : Decoder Suspension :=
  Reads.record ["step", "approval"] <|
    Suspension.mk <$> Reads.required "step" Decoder.text <*>
      Reads.required "approval" Decoder.text

end Suspension

/-- How far an episode has come. -/
structure EpisodeState where
  workflow : String
  status : EpisodeStatus
  /-- The place of the step to be attempted, none when the last step is
  behind. -/
  current : Option Nat
  history : List Attempt
  jumps : Nat
  executions : Nat
  suspended : Option Suspension
  reason : Option EndReason
  deriving DecidableEq, Inhabited

namespace EpisodeState

/-- The state before the first step. -/
def start (workflow : String) : EpisodeState :=
  ⟨workflow, .running, some 0, [], 0, 0, none, none⟩

/-- The attempts of a step. -/
def attemptsOf (s : EpisodeState) (step : String) : List Attempt :=
  s.history.filter fun a => a.step = step

/-- The last attempt of a step. -/
def latest? (s : EpisodeState) (step : String) : Option Attempt :=
  s.history.reverse.find? fun a => a.step = step

/-- How many attempts a step has had. -/
def attemptCount (s : EpisodeState) (step : String) : Nat :=
  (s.attemptsOf step).length

/-- How many attempts failed. -/
def failureCount (s : EpisodeState) : Nat :=
  s.history.countP fun a => !a.verdict.isPassed

/-- Whether the last attempt of a step passed. -/
def hasPassed (s : EpisodeState) (step : String) : Bool :=
  (s.latest? step).any fun a => a.verdict.isPassed

def encode (s : EpisodeState) : Json :=
  .obj ([("current", .orNull Json.ofNat s.current),
      ("executions", .ofNat s.executions),
      ("history", .arr (s.history.map Attempt.encode)),
      ("jumps", .ofNat s.jumps)] ++
    Json.memberIf "reason" EndReason.encode s.reason ++
    [("status", s.status.encode)] ++
    Json.memberIf "suspended" Suspension.encode s.suspended ++
    [("workflow", .str s.workflow)])

def decode : Decoder EpisodeState :=
  Reads.record
      ["workflow", "status", "current", "history", "jumps", "executions",
        "suspended", "reason"] <|
    EpisodeState.mk <$> Reads.required "workflow" Decoder.text <*>
      Reads.required "status" EpisodeStatus.decode <*>
      Reads.nullable "current" Decoder.word64 <*>
      Reads.required "history" (Decoder.list Attempt.decode) <*>
      Reads.required "jumps" Decoder.word32 <*>
      Reads.required "executions" Decoder.word32 <*>
      Reads.optional "suspended" Suspension.decode <*>
      Reads.optional "reason" EndReason.decode

end EpisodeState

end CallGate
