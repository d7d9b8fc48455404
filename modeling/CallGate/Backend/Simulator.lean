import CallGate.Call.Outcome
import CallGate.Call.Request
import CallGate.Digest.KeyStream
import CallGate.World

/-!
# Simulators

A simulator answers a call from the world and a stream of numbers that depends
on the seed, the operation and the sequence number alone.  The office simulator
serves any service: a read shows the service's part of the snapshot and what
was written since, and a write is kept as a record.
-/

namespace CallGate

/-- Why a simulator gives no answer. -/
inductive SimulatorError where
  | unsupported (text : String)
  | badArguments (text : String)
  | failure (text : String)
  deriving DecidableEq, Inhabited

/-- What is said about it. -/
def SimulatorError.message : SimulatorError → String
  | .unsupported text => "simulator does not support " ++ text
  | .badArguments text => "invalid arguments: " ++ text
  | .failure text => "simulated failure: " ++ text

/-- What a simulator does with a call: its answer, the rest of the numbers, and
the world after it. -/
structure Simulation where
  answer : Except SimulatorError Json
  numbers : KeyStream
  world : World

/-- An answer to each call. -/
abbrev Simulator := Request → KeyStream → World → Simulation

/-- The numbers for a call. -/
def callNumbers (seed : Nat) (r : Request) : KeyStream :=
  KeyStream.ofText <| Json.canonicalText <|
    .obj [("operation", .str r.operation.name), ("seed", .ofNat seed),
      ("sequence", .ofNat r.sequence), ("service", .str r.operation.service)]

namespace Office

/-- What a read shows of the snapshot: the part of the service that has the
operation's name, or else the whole part of the service. -/
def view (w : World) (r : Request) : Json :=
  match w.section? r.operation.service with
  | none => .null
  | some part => (part.get? r.operation.name).getD part

/-- The answer to a read. -/
def readAnswer (w : World) (r : Request) : Json :=
  let records := w.recordsOf r.operation.service
  .obj [("count", .ofNat records.length), ("operation", .str r.operation.name),
    ("records", .arr records), ("service", .str r.operation.service),
    ("view", view w r)]

/-- The record of a write. -/
def record (id : String) (r : Request) : Json :=
  .obj [("args", .obj r.args), ("id", .str id),
    ("operation", .str r.operation.name)]

/-- The answer to a write. -/
def writeAnswer (id : String) (count : Nat) (r : Request) : Json :=
  .obj [("id", .str id), ("operation", .str r.operation.name),
    ("record_count", .ofNat count), ("service", .str r.operation.service),
    ("status", .str "accepted")]

/-- The id of a record: the service and the next number in hexadecimal
digits. -/
def recordId (service : String) (number : UInt32) : String :=
  service ++ "-" ++ String.ofList (Text.hexFixed 8 number.toNat)

/-- The simulator of any service. -/
def simulate : Simulator := fun r numbers w =>
  if r.risk.isWrite then
    let (number, numbers) := numbers.next
    let id := recordId r.operation.service number
    let w := w.append r.operation.service (record id r)
    ⟨.ok (writeAnswer id (w.recordsOf r.operation.service).length r), numbers,
      w⟩
  else ⟨.ok (readAnswer w r), numbers, w⟩

end Office

/-- The simulator of each service. -/
structure Simulators where
  services : KeyMap String Simulator
  /-- The simulator of the services that are not listed. -/
  fallback : Option Simulator

namespace Simulators

/-- The office simulator for all services. -/
def office : Simulators := ⟨KeyMap.empty, some Office.simulate⟩

/-- No simulators. -/
def none : Simulators := ⟨KeyMap.empty, Option.none⟩

instance : Inhabited Simulators := ⟨office⟩

/-- The simulator of a service. -/
def get? (s : Simulators) (service : String) : Option Simulator :=
  (s.services.get? service).or s.fallback

/-- The answer of a simulator in the form of a backend. -/
def rawAnswer (r : Request) (latency : Nat) (data : Json) : Json :=
  .obj [("adapter", .str "sim"), ("latency_ms", .ofNat latency),
    ("operation", .str r.operation.name), ("payload", data),
    ("sequence", .ofNat r.sequence), ("service", .str r.operation.service)]

/-- Serves a call from the simulator of its service.  What goes wrong is a
text. -/
def serve (s : Simulators) (seed : Nat) (r : Request) (w : World) :
    Except String Payload × World :=
  match s.get? r.operation.service with
  | .none => (.error ("no simulator for service " ++ r.operation.service), w)
  | some simulator =>
    let result := simulator r (callNumbers seed r) w
    match result.answer with
    | .error e => (.error e.message, result.world)
    | .ok data =>
      (.ok ⟨data, rawAnswer r result.numbers.latency.1 data⟩, result.world)

end Simulators

end CallGate
