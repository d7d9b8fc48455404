/-!
# Errors of archives

Why an archive cannot be opened, or refuses to take or to give something.
Causes fall into six groups, and all but two have a text of their own.
-/

namespace CallGate

/-- The groups of errors. -/
inductive ArchiveErrorGroup where
  | io
  | engine
  | corrupt
  | versionMismatch
  | invalid
  | tooLarge
  deriving DecidableEq, Inhabited

/-- Why an archive fails. -/
inductive ArchiveError where
  | longPath
  | longPiece
  | directory
  | noParent
  /-- The directory of the path cannot be made. -/
  | unmakableParent
  /-- The path cannot be opened as a file. -/
  | unopenable
  | version (found : Int)
  /-- The sequence number of a receipt does not fit the table. -/
  | sequenceRange
  | sequenceOrder (sequence last : Int) (session : String)
  | tooLarge (bytes : Nat)
  | hashMismatch (label : String)
  | algorithm (name : String)
  /-- A payload does not hold what it should. -/
  | malformed
  /-- The sequence number of a payload is not that of its row. -/
  | keyMismatch
  | entryCount (set : String) (expected found : Nat)
  | emptySetName
  | longSetName
  deriving DecidableEq, Inhabited

namespace ArchiveError

/-- The most bytes of a payload. -/
def maxPayloadBytes : Nat := 1024 * 1024

/-- The group of an error. -/
def group : ArchiveError → ArchiveErrorGroup
  | .noParent | .unmakableParent => .io
  | .unopenable => .engine
  | .hashMismatch _ | .entryCount _ _ _ => .corrupt
  | .version _ => .versionMismatch
  | .tooLarge _ => .tooLarge
  | .longPath | .longPiece | .directory | .sequenceRange | .sequenceOrder _ _ _
  | .algorithm _ | .malformed | .keyMismatch | .emptySetName | .longSetName =>
    .invalid

/-- What is said about the cause. -/
def detail : ArchiveError → Option String
  | .longPath => some "store path exceeds length limit"
  | .longPiece => some "store path contains an overlong component"
  | .directory => some "store path must be a file, not a directory"
  | .noParent => some "store path missing parent directory"
  | .unmakableParent | .unopenable | .malformed => none
  | .version found => some s!"unsupported schema version: {found}"
  | .sequenceRange => some "receipt sequence exceeds storage range"
  | .sequenceOrder sequence last session =>
    some (s!"receipt sequence {sequence} does not follow {last} for session " ++
      session)
  | .tooLarge bytes => some s!"{bytes} bytes (max {maxPayloadBytes})"
  | .hashMismatch label => some ("hash mismatch for " ++ label)
  | .algorithm name => some ("unsupported hash algorithm: " ++ name)
  | .keyMismatch => some "sequence mismatch between key and payload"
  | .entryCount set expected found =>
    some ("fixture set " ++ set ++
      s!" expected {expected} entries, found {found}")
  | .emptySetName => some "fixture set name must be non-empty"
  | .longSetName => some "fixture set name exceeds max length"

/-- What is said about a group. -/
def heading : ArchiveErrorGroup → String
  | .io => "sqlite store io error: "
  | .engine => "sqlite store db error: "
  | .corrupt => "sqlite store corruption: "
  | .versionMismatch => "sqlite store version mismatch: "
  | .invalid => "sqlite store invalid data: "
  | .tooLarge => "sqlite store payload too large: "

/-- What is said about an error. -/
def message (e : ArchiveError) : Option String :=
  e.detail.map (heading e.group ++ ·)

end ArchiveError

end CallGate
