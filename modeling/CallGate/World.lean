import CallGate.Document.Reads
import CallGate.Json.Path

/-!
# Worlds

The world that a simulator works in: the snapshot that the session starts from,
which never changes, and what was written since, service by service in the
order of writing.
-/

namespace CallGate

/-- A snapshot and the records written since. -/
structure World where
  snapshot : Json
  records : KeyMap String (List Json)
  deriving DecidableEq, Inhabited

namespace World

/-- The world of a snapshot before anything is written. -/
def start (snapshot : Json) : World := ⟨snapshot, KeyMap.empty⟩

/-- The part of the snapshot that is about a service. -/
def section? (w : World) (service : String) : Option Json :=
  w.snapshot.get? service

/-- What was written for a service. -/
def recordsOf (w : World) (service : String) : List Json :=
  (w.records.get? service).getD []

/-- Writes a record for a service. -/
def append (w : World) (service : String) (record : Json) : World :=
  { w with
    records := w.records.insert service (w.recordsOf service ++ [record]) }

def encode (w : World) : Json :=
  .obj [("records", .obj (w.records.entries.map fun e => (e.1, .arr e.2))),
    ("snapshot", w.snapshot)]

def decode : Decoder World :=
  Reads.record ["snapshot", "records"] <|
    World.mk <$> Reads.required "snapshot" Decoder.value <*>
      Reads.required "records" (Decoder.textMap (Decoder.list Decoder.value))

end World

end CallGate
