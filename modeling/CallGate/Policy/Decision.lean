import CallGate.Document.Reads

/-!
# Decisions

What the gate decides about a call, and the reason.
-/

namespace CallGate

/-- What happens to a call. -/
inductive GateAction where
  | allow
  | deny
  | requireApproval
  deriving DecidableEq, Inhabited

namespace GateAction

def label : GateAction → String
  | .allow => "allow"
  | .deny => "deny"
  | .requireApproval => "require_approval"

def all : List GateAction := [.allow, .deny, .requireApproval]

def encode (a : GateAction) : Json := .str a.label

def decode : Decoder GateAction := Decoder.label (all.map fun a => (a.label, a))

end GateAction

/-- Why. -/
inductive GateReason where
  | hardBlocked
  | overrideAllow
  | overrideDeny
  | read
  | writeSafeAllowed
  | writeSafeDisabled
  | preGranted
  | approvalGranted
  | approvalDenied
  | approvalRequired
  /-- The call acts on the queue of approvals and is not gated. -/
  | control
  deriving DecidableEq, Inhabited

namespace GateReason

def label : GateReason → String
  | .hardBlocked => "hard_blocked"
  | .overrideAllow => "override_allow"
  | .overrideDeny => "override_deny"
  | .read => "read"
  | .writeSafeAllowed => "write_safe_allowed"
  | .writeSafeDisabled => "write_safe_disabled"
  | .preGranted => "pre_granted"
  | .approvalGranted => "approval_granted"
  | .approvalDenied => "approval_denied"
  | .approvalRequired => "approval_required"
  | .control => "control"

def all : List GateReason :=
  [.hardBlocked, .overrideAllow, .overrideDeny, .read, .writeSafeAllowed,
    .writeSafeDisabled, .preGranted, .approvalGranted, .approvalDenied,
    .approvalRequired, .control]

def encode (r : GateReason) : Json := .str r.label

def decode : Decoder GateReason := Decoder.label (all.map fun r => (r.label, r))

end GateReason

/-- An action and its reason. -/
structure Decision where
  action : GateAction
  reason : GateReason
  deriving DecidableEq, Inhabited

namespace Decision

/-- The call goes through. -/
def allow (reason : GateReason) : Decision := ⟨.allow, reason⟩

/-- The call is refused. -/
def deny (reason : GateReason) : Decision := ⟨.deny, reason⟩

/-- The call has to wait for an approval. -/
def requireApproval : Decision := ⟨.requireApproval, .approvalRequired⟩

def encode (d : Decision) : Json :=
  .obj [("action", d.action.encode), ("reason", d.reason.encode)]

def decode : Decoder Decision :=
  Reads.record ["action", "reason"] <|
    Decision.mk <$> Reads.required "action" GateAction.decode <*>
      Reads.required "reason" GateReason.decode

end Decision

end CallGate
