import CallGate.Approval.Queue
import CallGate.Operation.Basic
import CallGate.Policy.Decision

/-!
# Policies

A policy says which calls pass the gate.  Its rules are tried in a fixed order:
operations that are blocked, overrides for single operations, then the rule for
the class of the operation.  A risky write needs an approval, unless it is
granted beforehand; of several approvals for the call the one resolved last
counts, and only while none waits.
-/

namespace CallGate

/-- A rule for a single operation. -/
inductive Override where
  | allow
  | deny
  | requireApproval
  deriving DecidableEq, Inhabited

namespace Override

def label : Override → String
  | .allow => "allow"
  | .deny => "deny"
  | .requireApproval => "require_approval"

def all : List Override := [.allow, .deny, .requireApproval]

def encode (o : Override) : Json := .str o.label

def decode : Decoder Override := Decoder.label (all.map fun o => (o.label, o))

end Override

/-- Which calls pass the gate. -/
structure Policy where
  writeSafeEnabled : Bool := true
  hardBlock : OperationSet := KeyMap.empty
  overrides : KeyMap OperationId Override := KeyMap.empty
  preGranted : OperationSet := KeyMap.empty
  matching : Approval.Matching := .operation
  deriving DecidableEq, Inhabited

namespace Policy

def encode (p : Policy) : Json :=
  .obj [("approval_match", p.matching.encode),
    ("hard_block", p.hardBlock.encode),
    ("overrides", .obj ((KeyMap.ofList (p.overrides.entries.map fun e =>
      (e.1.display, e.2.encode))).entries)),
    ("pre_granted", p.preGranted.encode),
    ("write_safe_enabled", .bool p.writeSafeEnabled)]

def decode : Decoder Policy :=
  Reads.record ["write_safe_enabled", "hard_block", "overrides", "pre_granted",
    "approval_match"] <|
    Policy.mk <$> Reads.defaulted "write_safe_enabled" Decoder.bool true <*>
      Reads.defaulted "hard_block" OperationSet.decode KeyMap.empty <*>
      Reads.defaulted "overrides"
        (Decoder.mapOf OperationId.read Override.decode) KeyMap.empty <*>
      Reads.defaulted "pre_granted" OperationSet.decode KeyMap.empty <*>
      Reads.defaulted "approval_match" Approval.Matching.decode .operation

/-- The decision about a call that needs an approval. -/
def byApproval (p : Policy) (operation : OperationId) (digest : String)
    (queue : Approval.Queue) : Decision :=
  if p.preGranted.contains operation then .allow .preGranted
  else
    match queue.latestResolution? operation digest,
      queue.unresolvedFor? operation digest with
    | some .approved, none => .allow .approvalGranted
    | some .denied, none => .deny .approvalDenied
    | _, _ => .requireApproval

/-- The decision about a call by the class of its operation. -/
def byClass (p : Policy) (operation : OperationId) (risk : RiskClass)
    (digest : String) (queue : Approval.Queue) : Decision :=
  match risk with
  | .read => .allow .read
  | .writeSafe =>
    if p.writeSafeEnabled then .allow .writeSafeAllowed
    else .deny .writeSafeDisabled
  | .writeRisky => p.byApproval operation digest queue

/-- The decision about a call. -/
def decide (p : Policy) (operation : OperationId) (risk : RiskClass)
    (digest : String) (queue : Approval.Queue) : Decision :=
  if p.hardBlock.contains operation then .deny .hardBlocked
  else
    match p.overrides.get? operation with
    | some .allow => .allow .overrideAllow
    | some .deny => .deny .overrideDeny
    | some .requireApproval => p.byApproval operation digest queue
    | none => p.byClass operation risk digest queue

/-- What an approval for a call is for. -/
def targetFor (p : Policy) (operation : OperationId) (digest : String) :
    Approval.Target :=
  ⟨operation, match p.matching with | .operation => none | .call => some digest⟩

end Policy

end CallGate
