import CallGate.Approval.Basic

/-!
# The queue of approvals

The approvals of a session in the order in which they were asked for.
Approvals are added at the end and never removed; of an approval only its
resolution changes.
-/

namespace CallGate.Approval

/-- Why nothing was resolved. -/
inductive QueueError where
  | noMatch (operation : OperationId)
  | notADecision (resolution : Resolution)
  deriving DecidableEq, Inhabited

/-- What is said about it. -/
def QueueError.message : QueueError → String
  | .noMatch operation => "no unresolved approval matches " ++ operation.display
  | .notADecision resolution =>
    "invalid approval resolution: " ++ resolution.label

/-- The approvals of a session. -/
structure Queue where
  matching : Matching
  entries : List Approval
  deriving DecidableEq, Inhabited

namespace Queue

/-- The queue before anything was asked for. -/
def empty (matching : Matching) : Queue := ⟨matching, []⟩

/-- The approval of a given id. -/
def get? (q : Queue) (id : String) : Option Approval :=
  q.entries.find? fun a => a.id = id

/-- How many approvals wait. -/
def unresolvedCount (q : Queue) : Nat :=
  q.entries.countP fun a => a.resolution = .unresolved

/-- The oldest waiting approval for a call. -/
def unresolvedFor? (q : Queue) (operation : OperationId) (digest : String) :
    Option Approval :=
  q.entries.find? fun a => a.awaits operation digest q.matching

/-- Of two approvals the one that was changed later, the second one if at the
same time. -/
def later (a : Option Approval) (b : Approval) : Option Approval :=
  match a with
  | none => some b
  | some a => if a.changedAt ≤ b.changedAt then some b else some a

/-- The approval for a call that was resolved last. -/
def lastResolved? (q : Queue) (operation : OperationId) (digest : String) :
    Option Approval :=
  (q.entries.filter fun a =>
    a.resolution.isTerminal &&
      a.target.covers operation digest q.matching).foldl later none

/-- How the last resolved approval for a call was resolved. -/
def latestResolution? (q : Queue) (operation : OperationId) (digest : String) :
    Option Resolution :=
  (q.lastResolved? operation digest).map (·.resolution)

/-- Whether a call is approved. -/
def isApproved (q : Queue) (operation : OperationId) (digest : String) : Bool :=
  q.latestResolution? operation digest = some .approved

/-- Whether an approval waits for a decision about a target. -/
def isOpenFor (q : Queue) (target : Target) (a : Approval) : Bool :=
  a.resolution = .unresolved && a.target.decidedBy target q.matching

/-- The oldest approval that waits for a decision about a target. -/
def openFor? (q : Queue) (target : Target) : Option Approval :=
  q.entries.find? (q.isOpenFor target)

/-- The newest approval that a decision about a target would decide. -/
def latestFor? (q : Queue) (target : Target) : Option Approval :=
  q.entries.reverse.find? fun a => a.target.decidedBy target q.matching

/-- The id of the next approval. -/
def nextId (q : Queue) : String := idAt (q.entries.length + 1)

/-- Adds an approval that waits. -/
def enqueue (q : Queue) (target : Target) (requestedBy : String)
    (requestedAt : Nat) : Queue :=
  { q with
    entries := q.entries ++
      [⟨q.nextId, target, requestedBy, requestedAt, .unresolved, none⟩] }

/-- Resolves the approvals that satisfy a condition. -/
def resolveWhere (q : Queue) (p : Approval → Bool) (resolution : Resolution)
    (sequence : Nat) : Queue :=
  { q with
    entries := q.entries.map fun a =>
      if p a then a.resolve resolution sequence else a }

/-- Takes a decision about a target, and gives the approvals that it decided. -/
def decide (q : Queue) (target : Target) (resolution : Resolution)
    (sequence : Nat) : Except QueueError (List Approval × Queue) :=
  if !resolution.isDecision then .error (.notADecision resolution)
  else
    match q.entries.filter (q.isOpenFor target) with
    | [] => .error (.noMatch target.operation)
    | decided =>
      .ok (decided.map (·.resolve resolution sequence),
        q.resolveWhere (q.isOpenFor target) resolution sequence)

/-- The waiting approvals. -/
def unresolved (q : Queue) : List Approval :=
  q.entries.filter fun a => a.resolution = .unresolved

/-- Lets the waiting approvals expire, and gives them. -/
def expireAll (q : Queue) (sequence : Nat) : List Approval × Queue :=
  (q.unresolved.map (·.resolve .expired sequence),
    q.resolveWhere (fun a => a.resolution = .unresolved) .expired sequence)

def encode (q : Queue) : Json :=
  .obj [("entries", .arr (q.entries.map Approval.encode)),
    ("matching", q.matching.encode)]

def decode : Decoder Queue :=
  Reads.record ["matching", "entries"] <|
    Queue.mk <$> Reads.required "matching" Matching.decode <*>
      Reads.required "entries" (Decoder.list Approval.decode)

end Queue

end CallGate.Approval
