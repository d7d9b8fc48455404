import CallGate.Digest.Content
import CallGate.Operation.Basic

/-!
# Requests

A call as the session takes it up: the operation with its class, the arguments,
the sequence number, and two digests of the canonical form.  The fingerprint
depends on the seed of the session, the sequence number and the call; the
digest depends on the call alone.
-/

namespace CallGate

/-- The members of the object of arguments. -/
abbrev Arguments := List (String × Json)

/-- Arguments that are neither null nor an object. -/
structure ArgumentsError where
  operation : OperationId
  /-- The word for the kind of value that was given. -/
  kind : String
  deriving DecidableEq, Inhabited

/-- What is said about it. -/
def ArgumentsError.message (e : ArgumentsError) : String :=
  "arguments for " ++ e.operation.display ++ " must be a JSON object, got " ++
    e.kind

/-- The arguments that a value stands for; null stands for no arguments. -/
def Arguments.ofValue (operation : OperationId) :
    Json → Except ArgumentsError Arguments
  | .null => .ok []
  | .obj members => .ok members
  | v => .error ⟨operation, v.kindName⟩

/-- The call as a value. -/
def callBody (operation : OperationId) (args : Arguments) : Json :=
  .obj [("args", .obj args), ("operation", .str operation.name),
    ("service", .str operation.service)]

/-- The digest of a call. -/
def callDigest (operation : OperationId) (args : Arguments) : String :=
  (callBody operation args).digest

/-- What the fingerprint of a call is a digest of. -/
def fingerprintBody (seed sequence : Nat) (operation : OperationId)
    (args : Arguments) : Json :=
  .obj [("call", callBody operation args), ("seed", .ofNat seed),
    ("sequence", .ofNat sequence)]

/-- The fingerprint of a call. -/
def fingerprint (seed sequence : Nat) (operation : OperationId)
    (args : Arguments) : String :=
  (fingerprintBody seed sequence operation args).digest

/-- A call as the session takes it up. -/
structure Request where
  operation : OperationId
  risk : RiskClass
  args : Arguments
  sequence : Nat
  fingerprint : String
  digest : String
  deriving DecidableEq, Inhabited

namespace Request

/-- The request for a call with given arguments. -/
def make (seed sequence : Nat) (operation : OperationId) (risk : RiskClass)
    (args : Arguments) : Request :=
  ⟨operation, risk, args, sequence,
    CallGate.fingerprint seed sequence operation args,
    callDigest operation args⟩

/-- The request for a call whose arguments are given by a value. -/
def build (seed sequence : Nat) (operation : OperationId) (risk : RiskClass)
    (args : Json) : Except ArgumentsError Request :=
  (Arguments.ofValue operation args).map (make seed sequence operation risk)

def encode (r : Request) : Json :=
  .obj [("args", .obj r.args), ("call_digest", .str r.digest),
    ("fingerprint", .str r.fingerprint), ("operation", r.operation.encode),
    ("operation_class", r.risk.encode), ("sequence", .ofNat r.sequence)]

/-- The arguments that a value holds: an object. -/
def decodeArgs : Decoder Arguments :=
  Decoder.value.andThen fun v => match v with
    | .obj members => .ok members
    | _ => .error .shape

def decode : Decoder Request :=
  Reads.record
      ["operation", "operation_class", "args", "sequence", "fingerprint",
        "call_digest"] <|
    Request.mk <$> Reads.required "operation" OperationId.decode <*>
      Reads.required "operation_class" RiskClass.decode <*>
      Reads.required "args" decodeArgs <*>
      Reads.required "sequence" Decoder.word64 <*>
      Reads.required "fingerprint" Decoder.text <*>
      Reads.required "call_digest" Decoder.text

end Request

end CallGate
