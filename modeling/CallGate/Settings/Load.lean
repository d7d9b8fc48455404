import CallGate.Settings.Check
import CallGate.Settings.Environment

/-!
# Loading settings

Settings come from a file whose path is given, or named by a variable of the
environment, or a default.  The path and the size of the file are limited.
What the file says is overridden by the environment and checked.
-/

namespace CallGate.Settings

/-- The settings that a TOML text holds. -/
def ofToml (text : String) : Except SettingsError Settings :=
  (decode.fromToml text).mapError .malformed

/-- The variable for the path of the file. -/
def pathVariable : String := "VEI_CONFIG"

/-- The path of the file when nothing else says it. -/
def defaultPath : String := "vei.toml"

/-- The path of the file. -/
def filePath (env : Environment) (given : Option String) :
    Except SettingsError String :=
  match given, env pathVariable with
  | some path, _ => .ok path
  | none, some path =>
    if isLongPath path then .error .longFilePath else .ok path
  | none, none => .ok defaultPath

/-- Checks the length of the path of the file and of its pieces. -/
def checkFilePath (path : String) : Check :=
  if isLongPath path then .error .longFilePath
  else demand (!hasLongPiece path) .longFilePiece

/-- The most bytes of the file. -/
def maxFileBytes : Nat := 1024 * 1024

/-- The text in a file, when there is one. -/
def fileText : Option ByteArray → Except SettingsError String
  | none => .error .unreadable
  | some bytes =>
    if maxFileBytes < bytes.size then .error .largeFile
    else
      match String.fromUTF8? bytes with
      | some text => .ok text
      | none => .error .notText

/-- The settings in a text, overridden by the environment and checked. -/
def prepare (env : Environment) (isDirectory : String → Bool) (text : String) :
    Except SettingsError Settings := do
  let written ← ofToml text
  let settings ← written.override env
  settings.check isDirectory
  return settings

/-- Loads settings, `file` giving the bytes of a file that can be read. -/
def load (env : Environment) (isDirectory : String → Bool)
    (file : String → Option ByteArray) (given : Option String) :
    Except SettingsError Settings := do
  let path ← filePath env given
  checkFilePath path
  let text ← fileText (file path)
  prepare env isDirectory text

end CallGate.Settings
