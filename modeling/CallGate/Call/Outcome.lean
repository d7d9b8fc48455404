import CallGate.Document.Tagged

/-!
# Outcomes of adapters

An adapter answers a call with a payload or fails in one of three ways.
Outcomes are recorded under the fingerprint of the call, and the table of
recorded outcomes is what a later session can replay.
-/

namespace CallGate

/-- How an adapter fails. -/
inductive FailureKind where
  /-- Nothing is recorded for the call. -/
  | replayMiss
  /-- The live adapter refuses the call, or its backend fails. -/
  | liveBlocked
  /-- The simulator fails. -/
  | simFault
  deriving DecidableEq, Inhabited

namespace FailureKind

def label : FailureKind → String
  | .replayMiss => "replay_miss"
  | .liveBlocked => "live_blocked"
  | .simFault => "sim_fault"

def all : List FailureKind := [.replayMiss, .liveBlocked, .simFault]

def encode (k : FailureKind) : Json := .str k.label

def decode : Decoder FailureKind :=
  Decoder.label (all.map fun k => (k.label, k))

end FailureKind

/-- A failure of an adapter. -/
structure AdapterFailure where
  kind : FailureKind
  message : String
  deriving DecidableEq, Inhabited

namespace AdapterFailure

/-- What is said about the failure. -/
def display (f : AdapterFailure) : String :=
  match f.kind with
  | .replayMiss => "replay miss for fingerprint " ++ f.message
  | .liveBlocked => "live call blocked: " ++ f.message
  | .simFault => "simulator fault: " ++ f.message

def encode (f : AdapterFailure) : Json :=
  .obj [("kind", f.kind.encode), ("message", .str f.message)]

def decode : Decoder AdapterFailure :=
  Reads.record ["kind", "message"] <|
    AdapterFailure.mk <$> Reads.required "kind" FailureKind.decode <*>
      Reads.required "message" Decoder.text

end AdapterFailure

/-- What an adapter answers: data for the caller, and the answer in the form of
the backend. -/
structure Payload where
  data : Json
  raw : Json
  deriving DecidableEq, Inhabited

namespace Payload

def decode : Decoder Payload :=
  Reads.record ["data", "raw"] <|
    Payload.mk <$> Reads.required "data" Decoder.value <*>
      Reads.required "raw" Decoder.value

end Payload

/-- What comes of a call at an adapter. -/
inductive Outcome where
  | ok (payload : Payload)
  | err (failure : AdapterFailure)
  deriving DecidableEq, Inhabited

namespace Outcome

def encode : Outcome → Json
  | .ok p => .obj [("data", p.data), ("outcome", .str "ok"), ("raw", p.raw)]
  | .err f =>
    .obj [("kind", f.kind.encode), ("message", .str f.message),
      ("outcome", .str "err")]

def decode : Decoder Outcome :=
  Decoder.tagged "outcome"
    [("ok", Payload.decode.map .ok),
      ("err", AdapterFailure.decode.map .err)]

end Outcome

/-- Recorded outcomes by the fingerprint of the call. -/
abbrev Fixtures := KeyMap String Outcome

namespace Fixtures

def encode (f : Fixtures) : Json :=
  .obj (f.entries.map fun e => (e.1, e.2.encode))

def decode : Decoder Fixtures := Decoder.textMap Outcome.decode

end Fixtures

end CallGate
