import CallGate.Document.Reads

/-!
# Options of archives

Where an archive is kept and how its engine works.  The modes of the engine do
not change what an archive holds.
-/

namespace CallGate

/-- How the engine prepares a change. -/
inductive JournalMode where
  /-- In a journal that is written ahead and shared by all who have the archive
  open. -/
  | wal
  /-- In a journal that is deleted after every change. -/
  | delete
  deriving DecidableEq, Inhabited

namespace JournalMode

def label : JournalMode → String
  | .wal => "wal"
  | .delete => "delete"

def encode (m : JournalMode) : Json := .str m.label

def decode : Decoder JournalMode :=
  Decoder.label [("wal", .wal), ("delete", .delete)]

end JournalMode

/-- How far the engine waits for a change to reach the disk. -/
inductive SyncMode where
  | full
  | normal
  deriving DecidableEq, Inhabited

namespace SyncMode

def label : SyncMode → String
  | .full => "full"
  | .normal => "normal"

def encode (m : SyncMode) : Json := .str m.label

def decode : Decoder SyncMode :=
  Decoder.label [("full", .full), ("normal", .normal)]

end SyncMode

/-- Where an archive is kept and how its engine works. -/
structure ArchiveOptions where
  path : String
  /-- How many milliseconds the engine waits for others. -/
  busyTimeout : Nat := 5000
  journal : JournalMode := .wal
  sync : SyncMode := .full
  deriving DecidableEq, Inhabited

namespace ArchiveOptions

def encode (o : ArchiveOptions) : Json :=
  .obj [("busy_timeout_ms", .ofNat o.busyTimeout),
    ("journal_mode", o.journal.encode), ("path", .str o.path),
    ("sync_mode", o.sync.encode)]

def decode : Decoder ArchiveOptions :=
  Reads.record ["path", "busy_timeout_ms", "journal_mode", "sync_mode"] <|
    ArchiveOptions.mk <$> Reads.required "path" Decoder.text <*>
      Reads.defaulted "busy_timeout_ms" Decoder.word64 5000 <*>
      Reads.defaulted "journal_mode" JournalMode.decode .wal <*>
      Reads.defaulted "sync_mode" SyncMode.decode .full

end ArchiveOptions

end CallGate
