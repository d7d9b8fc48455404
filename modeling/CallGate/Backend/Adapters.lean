import CallGate.Backend.LiveGuard
import CallGate.Backend.Mode
import CallGate.Backend.Simulator

/-!
# Adapters

What stands between a session and the services: in each mode a call that passed
the gate is served in another way.  Outcomes are recorded in all modes but
replay, whose outcomes are recorded already.
-/

namespace CallGate

/-- A live backend: its answer or what it says went wrong, and the world after
it. -/
abbrev LiveBackend := Nat → Request → World → Except String Payload × World

/-- All that serves calls. -/
structure Adapters where
  modes : Modes
  simulators : Simulators
  fixtures : Fixtures
  guard : LiveGuard
  /-- The live backend; the simulators take its place when there is none. -/
  backend : Option LiveBackend
  deriving Inhabited

namespace Adapters

/-- A payload of a simulator marked as coming from a live backend. -/
def markLive (p : Payload) : Payload :=
  match p.raw with
  | .obj members =>
    { p with
      raw := .obj (Entries.insert "live_backend" (.str "simulated")
        (Entries.insert "adapter" (.str "live") members)) }
  | _ => p

/-- The simulators as a live backend. -/
def simulatedBackend (s : Simulators) : LiveBackend := fun seed r w =>
  let (answer, w) := s.serve seed r w
  (answer.map markLive, w)

/-- Serves a call in simulation. -/
def executeSim (a : Adapters) (seed : Nat) (r : Request) (w : World) :
    Outcome × World :=
  match a.simulators.serve seed r w with
  | (.ok payload, w) => (.ok payload, w)
  | (.error text, w) => (.err ⟨.simFault, text⟩, w)

/-- Serves a call from what is recorded for its fingerprint. -/
def executeReplay (a : Adapters) (r : Request) : Outcome :=
  match a.fixtures.get? r.fingerprint with
  | some outcome => outcome
  | none =>
    .err ⟨.replayMiss, r.fingerprint ++ " (" ++ r.operation.display ++ ")"⟩

/-- Serves a call live, unless the guard refuses it. -/
def executeLive (a : Adapters) (seed : Nat) (r : Request) (w : World) :
    Outcome × World :=
  match a.guard.refusal? r.operation r.risk with
  | some reason => (.err ⟨.liveBlocked, reason⟩, w)
  | none =>
    match (a.backend.getD (simulatedBackend a.simulators)) seed r w with
    | (.ok payload, w) => (.ok payload, w)
    | (.error text, w) =>
      (.err ⟨.liveBlocked, "live backend error: " ++ text⟩, w)

/-- The mode in which a call is served. -/
def modeOf (a : Adapters) (r : Request) : Mode := a.modes.of r.operation.service

/-- Serves a call in the mode of its service. -/
def execute (a : Adapters) (seed : Nat) (r : Request) (w : World) :
    Outcome × World :=
  match a.modeOf r with
  | .sim => a.executeSim seed r w
  | .replay => (a.executeReplay r, w)
  | .live => a.executeLive seed r w

end Adapters

end CallGate
