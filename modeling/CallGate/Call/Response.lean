import CallGate.Call.Outcome

/-!
# Responses

What a session answers to a call: that it went through, that it was refused or
failed, or that it waits for an approval.
-/

namespace CallGate

/-- How a call ended. -/
inductive ResponseStatus where
  | ok
  | error
  | pending
  deriving DecidableEq, Inhabited

namespace ResponseStatus

def label : ResponseStatus → String
  | .ok => "ok"
  | .error => "error"
  | .pending => "pending"

def all : List ResponseStatus := [.ok, .error, .pending]

def encode (s : ResponseStatus) : Json := .str s.label

def decode : Decoder ResponseStatus :=
  Decoder.label (all.map fun s => (s.label, s))

end ResponseStatus

/-- Why a call did not go through. -/
inductive ResponseErrorKind where
  | policyDenied
  | adapterError
  | approvalNotFound
  | invalidControlArguments
  deriving DecidableEq, Inhabited

namespace ResponseErrorKind

def label : ResponseErrorKind → String
  | .policyDenied => "policy_denied"
  | .adapterError => "adapter_error"
  | .approvalNotFound => "approval_not_found"
  | .invalidControlArguments => "invalid_control_arguments"

def all : List ResponseErrorKind :=
  [.policyDenied, .adapterError, .approvalNotFound, .invalidControlArguments]

def encode (k : ResponseErrorKind) : Json := .str k.label

def decode : Decoder ResponseErrorKind :=
  Decoder.label (all.map fun k => (k.label, k))

end ResponseErrorKind

/-- The error of a response; for a failure of an adapter it says which. -/
structure ResponseError where
  kind : ResponseErrorKind
  failure : Option FailureKind
  message : String
  deriving DecidableEq, Inhabited

namespace ResponseError

def encode (e : ResponseError) : Json :=
  .obj ([("kind", e.kind.encode), ("message", .str e.message)] ++
    Json.memberIf "subkind" FailureKind.encode e.failure)

def decode : Decoder ResponseError :=
  Reads.record ["kind", "subkind", "message"] <|
    ResponseError.mk <$> Reads.required "kind" ResponseErrorKind.decode <*>
      Reads.optional "subkind" FailureKind.decode <*>
      Reads.required "message" Decoder.text

end ResponseError

/-- What a session answers to a call. -/
structure Response where
  sequence : Nat
  fingerprint : String
  status : ResponseStatus
  data : Json
  raw : Json
  error : Option ResponseError
  deriving DecidableEq, Inhabited

namespace Response

/-- The call went through. -/
def ok (sequence : Nat) (fingerprint : String) (payload : Payload) : Response :=
  ⟨sequence, fingerprint, .ok, payload.data, payload.raw, none⟩

/-- The call was refused. -/
def refused (sequence : Nat) (fingerprint : String) (kind : ResponseErrorKind)
    (message : String) : Response :=
  ⟨sequence, fingerprint, .error, .null, .null, some ⟨kind, none, message⟩⟩

/-- The adapter failed. -/
def failed (sequence : Nat) (fingerprint : String) (failure : AdapterFailure) :
    Response :=
  ⟨sequence, fingerprint, .error, .null, .null,
    some ⟨.adapterError, some failure.kind, failure.message⟩⟩

/-- The call waits for an approval. -/
def pending (sequence : Nat) (fingerprint : String) (data : Json) : Response :=
  ⟨sequence, fingerprint, .pending, data, .null, none⟩

/-- The answer to a call with a given outcome. -/
def ofOutcome (sequence : Nat) (fingerprint : String) : Outcome → Response
  | .ok payload => ok sequence fingerprint payload
  | .err failure => failed sequence fingerprint failure

/-- Whether the call went through. -/
def isOk (r : Response) : Bool := r.status = .ok

def encode (r : Response) : Json :=
  .obj ([("data", r.data)] ++
    Json.memberIf "error" ResponseError.encode r.error ++
    [("fingerprint", .str r.fingerprint), ("raw", r.raw),
      ("sequence", .ofNat r.sequence), ("status", r.status.encode)])

def decode : Decoder Response :=
  Reads.record ["sequence", "fingerprint", "status", "data", "raw", "error"] <|
    Response.mk <$> Reads.required "sequence" Decoder.word64 <*>
      Reads.required "fingerprint" Decoder.text <*>
      Reads.required "status" ResponseStatus.decode <*>
      Reads.required "data" Decoder.value <*>
      Reads.required "raw" Decoder.value <*>
      Reads.optional "error" ResponseError.decode

end Response

end CallGate
