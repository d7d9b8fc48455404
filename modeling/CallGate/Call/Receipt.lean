import CallGate.Call.Response
import CallGate.Call.Timestamp
import CallGate.Operation.Basic
import CallGate.Policy.Decision

/-!
# Receipts

The record that a session keeps of each call it took up.  Arguments and result
are kept in redacted form only.
-/

namespace CallGate

/-- The record of a call. -/
structure Receipt where
  sequence : Nat
  fingerprint : String
  service : String
  operation : String
  risk : RiskClass
  decision : Decision
  status : ResponseStatus
  redactedArgs : Json
  redactedResult : Json
  timestamp : Timestamp
  deriving DecidableEq, Inhabited

namespace Receipt

/-- The receipt with the zero of a logical clock in place of its time. -/
def withoutTimestamp (r : Receipt) : Receipt :=
  { r with timestamp := .logical 0 }

def encode (r : Receipt) : Json :=
  .obj [("decision", r.decision.encode), ("fingerprint", .str r.fingerprint),
    ("operation", .str r.operation), ("operation_class", r.risk.encode),
    ("redacted_args", r.redactedArgs), ("redacted_result", r.redactedResult),
    ("result_status", r.status.encode), ("sequence", .ofNat r.sequence),
    ("service", .str r.service), ("timestamp", r.timestamp.encode)]

def decode : Decoder Receipt :=
  Reads.record
      ["sequence", "fingerprint", "service", "operation", "operation_class",
        "decision", "result_status", "redacted_args", "redacted_result",
        "timestamp"] <|
    Receipt.mk <$> Reads.required "sequence" Decoder.word64 <*>
      Reads.required "fingerprint" Decoder.text <*>
      Reads.required "service" Decoder.text <*>
      Reads.required "operation" Decoder.text <*>
      Reads.required "operation_class" RiskClass.decode <*>
      Reads.required "decision" Decision.decode <*>
      Reads.required "result_status" ResponseStatus.decode <*>
      Reads.required "redacted_args" Decoder.value <*>
      Reads.required "redacted_result" Decoder.value <*>
      Reads.required "timestamp" Timestamp.decode

end Receipt

end CallGate
