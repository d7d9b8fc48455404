import CallGate.Json.Path
import CallGate.Settings.Basic
import CallGate.Settings.Error

/-!
# Settings from the environment

Variables of the environment take the place of what the document says: the mode
of services, the seed, and what may go to live backends.  A variable that is
not set changes nothing.
-/

namespace CallGate

/-- The variables of the environment. -/
abbrev Environment := String → Option String

namespace Settings

/-- The variable for the mode of services. -/
def modeVariable : String := "VEI_CONNECTOR_MODE"

/-- The variable for the seed. -/
def seedVariable : String := "VEI_SEED"

/-- The variable that lets safe writes go to live backends. -/
def writeSafeVariable : String := "VEI_LIVE_ALLOW_WRITE_SAFE"

/-- The variable that lets risky writes go to live backends. -/
def writeRiskyVariable : String := "VEI_LIVE_ALLOW_WRITE_RISKY"

/-- The variable that lists operations that may not go to live backends. -/
def blockVariable : String := "VEI_LIVE_BLOCK_OPS"

/-- The words for yes. -/
def yesWords : List String := ["1", "true", "yes", "on"]

/-- The words for no. -/
def noWords : List String := ["0", "false", "no", "off", ""]

/-- Reads a flag, blanks around it and the case of ASCII letters aside. -/
def readFlag (name text : String) : Except SettingsError Bool :=
  let word := Text.asciiLower (Text.trim text)
  if yesWords.contains word then .ok true
  else if noWords.contains word then .ok false
  else .error (.flagVariable name)

/-- The bound of seeds. -/
def seedBound : Nat := UInt64.size

/-- Reads a seed, blanks around it aside. -/
def readSeed (text : String) : Except SettingsError Nat :=
  match Text.unsigned? seedBound (Text.trimChars text.toList) with
  | some n => .ok n
  | none => .error (.numberVariable seedVariable)

/-- Reads a mode. -/
def readMode (text : String) : Except SettingsError Mode :=
  (Mode.read text).mapError (.modeVariable modeVariable)

/-- Adds the operations that items name to a set; blank items are passed
over. -/
def addOperations (s : OperationSet) :
    List (List Char) → Except SettingsError OperationSet
  | [] => .ok s
  | item :: rest =>
    let item := Text.trimChars item
    if item.isEmpty then addOperations s rest
    else
      match OperationId.read (String.ofList item) with
      | .error e => .error (.operationVariable blockVariable e)
      | .ok operation => addOperations (KeySet.add s operation) rest

/-- Adds a list of operations with commas between them to a set. -/
def readOperations (s : OperationSet) (text : String) :
    Except SettingsError OperationSet :=
  addOperations s (Text.pieces ',' text.toList)

/-- The value of a variable if it is set, and otherwise what was there. -/
def overridden {α : Type} (value : Option String)
    (read : String → Except SettingsError α) (old : α) :
    Except SettingsError α :=
  match value with
  | some text => read text
  | none => .ok old

/-- The settings with what the environment says. -/
def override (env : Environment) (s : Settings) :
    Except SettingsError Settings := do
  let guard := s.session.guard
  let mode ← overridden (env modeVariable) readMode s.session.modes.default
  let seed ← overridden (env seedVariable) readSeed s.session.seed
  let writeSafe ←
    overridden (env writeSafeVariable) (readFlag writeSafeVariable)
      guard.allowWriteSafe
  let writeRisky ←
    overridden (env writeRiskyVariable) (readFlag writeRiskyVariable)
      guard.allowWriteRisky
  let blocked ←
    overridden (env blockVariable) (readOperations guard.hardBlock)
      guard.hardBlock
  return { s with
    session := { s.session with
      seed := seed
      modes := { s.session.modes with default := mode }
      guard := ⟨writeSafe, writeRisky, blocked⟩ } }

end Settings

end CallGate
