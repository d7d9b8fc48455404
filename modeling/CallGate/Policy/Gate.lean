import CallGate.Call.Request
import CallGate.Policy.Basic

/-!
# The gate

The gate decides about a request and, when the request needs an approval that
nobody asked for yet, asks for it.  That is the only thing it changes.
-/

namespace CallGate

/-- What the gate gives: the decision, the approval that the call waits for,
and whether this evaluation asked for it. -/
structure GateOutcome where
  decision : Decision
  approval : Option String
  enqueued : Bool
  deriving DecidableEq, Inhabited

namespace Policy

/-- The decision about a request. -/
def peek (p : Policy) (r : Request) (queue : Approval.Queue) : Decision :=
  p.decide r.operation r.risk r.digest queue

/-- Decides about a request, and asks for an approval when one is needed and
none waits. -/
def evaluate (p : Policy) (r : Request) (queue : Approval.Queue) :
    GateOutcome × Approval.Queue :=
  let decision := p.peek r queue
  if decision.action ≠ .requireApproval then (⟨decision, none, false⟩, queue)
  else
    match queue.unresolvedFor? r.operation r.digest with
    | some a => (⟨decision, some a.id, false⟩, queue)
    | none =>
      (⟨decision, some queue.nextId, true⟩,
        queue.enqueue (p.targetFor r.operation r.digest) r.fingerprint
          r.sequence)

end Policy

end CallGate
