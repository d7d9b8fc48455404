import CallGate.Approval.Basic
import CallGate.Backend.Mode
import CallGate.Call.Response
import CallGate.Operation.Basic
import CallGate.Policy.Decision

/-!
# Audit events

What is told to the audit: every dispatch that was answered, every change of an
approval, and the turns of an episode.
-/

namespace CallGate

/-- An answered dispatch. -/
structure DispatchEvent where
  session : String
  sequence : Nat
  operation : OperationId
  risk : RiskClass
  /-- The mode of the adapter that ran, if one did. -/
  mode : Option Mode
  decision : Decision
  status : ResponseStatus
  errorKind : Option ResponseErrorKind
  deriving DecidableEq, Inhabited

/-- A change of an approval.  Of the operation only the text is written. -/
structure ApprovalEvent where
  session : String
  approval : String
  operation : OperationId
  resolution : Approval.Resolution
  sequence : Nat
  deriving DecidableEq, Inhabited

/-- A turn of an episode: its name, what it is about, and the status after
it. -/
structure EpisodeEvent where
  name : String
  workflow : String
  step : Option String
  status : String
  detail : Json
  deriving DecidableEq, Inhabited

/-- What is told to the audit. -/
inductive AuditEvent where
  | dispatch (event : DispatchEvent)
  | approval (event : ApprovalEvent)
  | episode (event : EpisodeEvent)
  deriving DecidableEq, Inhabited

namespace AuditEvent

/-- The event as a value, without the time of day. -/
def encode : AuditEvent → Json
  | .dispatch e =>
    .obj ([("decision", e.decision.action.encode)] ++
      Json.memberIf "error_kind" ResponseErrorKind.encode e.errorKind ++
      [("event", .str "dispatch")] ++ Json.memberIf "mode" Mode.encode e.mode ++
      [("operation", e.operation.encode), ("operation_class", e.risk.encode),
        ("reason", e.decision.reason.encode), ("sequence", .ofNat e.sequence),
        ("session_id", .str e.session), ("status", e.status.encode)])
  | .approval e =>
    .obj [("approval_id", .str e.approval), ("event", .str "approval"),
      ("operation", e.operation.encode), ("resolution", e.resolution.encode),
      ("sequence", .ofNat e.sequence), ("session_id", .str e.session)]
  | .episode e =>
    .obj ((if e.detail.isNull then [] else [("detail", e.detail)]) ++
      [("event", .str e.name), ("status", .str e.status)] ++
      Json.memberIf "step" Json.str e.step ++ [("workflow", .str e.workflow)])

/-- Whether the event is a turn of an episode. -/
def isEpisode : AuditEvent → Bool
  | .episode _ => true
  | .dispatch _ | .approval _ => false

end AuditEvent

end CallGate
