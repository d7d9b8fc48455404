import CallGate.Document.Reads
import CallGate.Text.Blank
import CallGate.Text.Split

/-!
# Modes

How the calls of a service are served: by a simulator, from recorded outcomes,
or live.
-/

namespace CallGate

/-- How calls are served. -/
inductive Mode where
  | sim
  | replay
  | live
  deriving DecidableEq, Inhabited

/-- A text that names no mode. -/
structure UnknownMode where
  text : String
  deriving DecidableEq, Inhabited

/-- What is said about it. -/
def UnknownMode.message (e : UnknownMode) : String :=
  "unknown connector mode `" ++ e.text ++ "` (expected sim, replay, or live)"

namespace Mode

def label : Mode → String
  | .sim => "sim"
  | .replay => "replay"
  | .live => "live"

def all : List Mode := [.sim, .replay, .live]

/-- The names and the modes. -/
def table : List (String × Mode) := all.map fun m => (m.label, m)

/-- Reads a name, blanks around it and the case of ASCII letters aside. -/
def read (text : String) : Except UnknownMode Mode :=
  match table.lookup (Text.asciiLower (Text.trim text)) with
  | some m => .ok m
  | none => .error ⟨text⟩

def encode (m : Mode) : Json := .str m.label

def decode : Decoder Mode := Decoder.label table

end Mode

/-- The mode of each service. -/
structure Modes where
  /-- The mode of the services that are not listed. -/
  default : Mode := .sim
  services : KeyMap String Mode := KeyMap.empty
  deriving DecidableEq, Inhabited

namespace Modes

/-- The same mode for all services. -/
def uniform (m : Mode) : Modes := ⟨m, KeyMap.empty⟩

/-- The mode of a service. -/
def of (m : Modes) (service : String) : Mode :=
  (m.services.get? service).getD m.default

def encode (m : Modes) : Json :=
  .obj [("default", m.default.encode),
    ("services", .obj (m.services.entries.map fun e => (e.1, e.2.encode)))]

def decode : Decoder Modes :=
  Reads.record ["default", "services"] <|
    Modes.mk <$> Reads.defaulted "default" Mode.decode .sim <*>
      Reads.defaulted "services" (Decoder.textMap Mode.decode) KeyMap.empty

end Modes

end CallGate
