import CallGate.Operation.Id

/-!
# What an approval is for

An approval is for an operation, and may be for one call of it, known by its
digest.  Whether digests count is a matter of the matching: by operation they
do not, by call they do.  A target without a digest stands for all calls of its
operation either way.
-/

namespace CallGate.Approval

/-- How approvals and calls are matched. -/
inductive Matching where
  /-- By the operation alone. -/
  | operation
  /-- By the operation and the digest of the call. -/
  | call
  deriving DecidableEq, Inhabited

namespace Matching

def label : Matching → String
  | .operation => "operation"
  | .call => "call"

def encode (m : Matching) : Json := .str m.label

def decode : Decoder Matching :=
  Decoder.label [("operation", .operation), ("call", .call)]

end Matching

/-- An operation, or one call of it. -/
structure Target where
  operation : OperationId
  digest : Option String
  deriving DecidableEq, Inhabited

namespace Target

/-- All calls of an operation. -/
def everyCall (operation : OperationId) : Target := ⟨operation, none⟩

/-- Whether an approval for the target is one for a given call. -/
def covers (t : Target) (operation : OperationId) (digest : String)
    (matching : Matching) : Bool :=
  t.operation = operation &&
    match matching, t.digest with
    | .operation, _ => true
    | .call, none => true
    | .call, some own => own = digest

/-- Whether a decision about `other` decides an approval for the target. -/
def decidedBy (t other : Target) (matching : Matching) : Bool :=
  t.operation = other.operation &&
    match matching, other.digest, t.digest with
    | .operation, _, _ => true
    | .call, none, _ => true
    | .call, some _, none => true
    | .call, some asked, some own => asked = own

def encode (t : Target) : Json :=
  .obj (Json.memberIf "call_digest" Json.str t.digest ++
    [("operation", t.operation.encode)])

def decode : Decoder Target :=
  Reads.record ["operation", "call_digest"] <|
    Target.mk <$> Reads.required "operation" OperationId.decode <*>
      Reads.optional "call_digest" Decoder.text

end Target

end CallGate.Approval
