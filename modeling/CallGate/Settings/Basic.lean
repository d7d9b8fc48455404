import CallGate.Archive.Options
import CallGate.Episode.Basic
import CallGate.Session.Config
import CallGate.Toml.Reader

/-!
# Settings

The settings of the program as a TOML document holds them, section by section:
what sessions are made from, the limits of episodes, and where receipts and
audit events go.  Every field may be left out, and a field that is not known is
refused, except in the section about episodes.
-/

namespace CallGate

/-- Where receipts go. -/
inductive ReceiptsKind where
  | none
  /-- Into a file, a line for each. -/
  | file
  /-- Into an archive. -/
  | archive
  deriving DecidableEq, Inhabited

namespace ReceiptsKind

def label : ReceiptsKind → String
  | .none => "none"
  | .file => "jsonl"
  | .archive => "sqlite"

def decode : Decoder ReceiptsKind :=
  Decoder.label [("none", .none), ("jsonl", .file), ("sqlite", .archive)]

end ReceiptsKind

/-- Where receipts go, and how the engine works if that is an archive. -/
structure ReceiptSettings where
  kind : ReceiptsKind := .none
  path : Option String := none
  busyTimeout : Nat := 5000
  journal : JournalMode := .wal
  sync : SyncMode := .full
  deriving DecidableEq, Inhabited

namespace ReceiptSettings

/-- The options of the archive, when receipts go to one. -/
def archive? (r : ReceiptSettings) : Option ArchiveOptions :=
  match r.kind, r.path with
  | .archive, some path => some ⟨path, r.busyTimeout, r.journal, r.sync⟩
  | _, _ => none

def encode (r : ReceiptSettings) : Json :=
  .obj [("busy_timeout_ms", .ofNat r.busyTimeout),
    ("journal_mode", r.journal.encode), ("path", .ofText? r.path),
    ("sync_mode", r.sync.encode), ("type", .str r.kind.label)]

def decode : Decoder ReceiptSettings :=
  Reads.record ["type", "path", "busy_timeout_ms", "journal_mode", "sync_mode"]
    (ReceiptSettings.mk <$> Reads.defaulted "type" ReceiptsKind.decode .none <*>
      Reads.optional "path" Decoder.text <*>
      Reads.defaulted "busy_timeout_ms" Decoder.word64 5000 <*>
      Reads.defaulted "journal_mode" JournalMode.decode .wal <*>
      Reads.defaulted "sync_mode" SyncMode.decode .full)
    true

end ReceiptSettings

/-- Where audit events go. -/
inductive AuditKind where
  | none
  | stderr
  | file
  deriving DecidableEq, Inhabited

namespace AuditKind

def label : AuditKind → String
  | .none => "none"
  | .stderr => "stderr"
  | .file => "file"

def decode : Decoder AuditKind :=
  Decoder.label [("none", .none), ("stderr", .stderr), ("file", .file)]

end AuditKind

/-- Where audit events go, with the path if that is a file. -/
structure AuditSettings where
  kind : AuditKind := .none
  path : Option String := none
  deriving DecidableEq, Inhabited

namespace AuditSettings

def encode (a : AuditSettings) : Json :=
  .obj [("path", .ofText? a.path), ("type", .str a.kind.label)]

def decode : Decoder AuditSettings :=
  Reads.record ["type", "path"]
    (AuditSettings.mk <$> Reads.defaulted "type" AuditKind.decode .none <*>
      Reads.optional "path" Decoder.text)
    true

end AuditSettings

/-- The settings of the program.  The id of the session is as written. -/
structure Settings where
  session : SessionConfig := {}
  limits : EpisodeLimits := {}
  receipts : ReceiptSettings := {}
  audit : AuditSettings := {}
  deriving DecidableEq, Inhabited

namespace Settings

/-- The section about the session itself: its id and seed and the modes of
services. -/
def decodeSession : Decoder SessionConfig :=
  Reads.record ["id", "seed", "mode", "service_modes"]
    ((fun id seed mode services =>
        { id := id, seed := seed, modes := ⟨mode, services⟩ }) <$>
      Reads.defaulted "id" Decoder.text "session-1" <*>
      Reads.defaulted "seed" Decoder.word64 42042 <*>
      Reads.defaulted "mode" Mode.decode .sim <*>
      Reads.defaulted "service_modes" (Decoder.textMap Mode.decode)
        KeyMap.empty)
    true

/-- The section about the policy. -/
def decodePolicy : Decoder Policy :=
  Reads.record ["write_safe_enabled", "hard_block", "pre_granted", "overrides"]
    ((fun enabled hardBlock preGranted overrides =>
        { writeSafeEnabled := enabled, hardBlock := hardBlock,
          preGranted := preGranted, overrides := overrides }) <$>
      Reads.defaulted "write_safe_enabled" Decoder.bool true <*>
      Reads.defaulted "hard_block" OperationSet.decode KeyMap.empty <*>
      Reads.defaulted "pre_granted" OperationSet.decode KeyMap.empty <*>
      Reads.defaulted "overrides"
        (Decoder.mapOf OperationId.read Override.decode) KeyMap.empty)
    true

/-- The section about live backends. -/
def decodeGuard : Decoder LiveGuard :=
  Reads.record ["allow_write_safe", "allow_write_risky", "block_ops"]
    (LiveGuard.mk <$> Reads.defaulted "allow_write_safe" Decoder.bool false <*>
      Reads.defaulted "allow_write_risky" Decoder.bool false <*>
      Reads.defaulted "block_ops" OperationSet.decode KeyMap.empty)
    true

/-- The section about approvals. -/
def decodeMatching : Decoder Approval.Matching :=
  Reads.record ["match"]
    (id <$> Reads.defaulted "match" Approval.Matching.decode .operation) true

/-- Puts sections together. -/
def assemble (session : SessionConfig) (policy : Policy) (guard : LiveGuard)
    (matching : Approval.Matching) (limits : EpisodeLimits)
    (receipts : ReceiptSettings) (audit : AuditSettings) : Settings :=
  ⟨{ session with
      policy := { policy with matching := matching }, guard := guard },
    limits, receipts, audit⟩

def decode : Decoder Settings :=
  Reads.record ["session", "policy", "live", "approvals", "runner", "receipts",
    "audit"]
    (assemble <$> Reads.defaulted "session" decodeSession {} <*>
      Reads.defaulted "policy" decodePolicy {} <*>
      Reads.defaulted "live" decodeGuard {} <*>
      Reads.defaulted "approvals" decodeMatching .operation <*>
      Reads.defaulted "runner" EpisodeLimits.decode {} <*>
      Reads.defaulted "receipts" ReceiptSettings.decode {} <*>
      Reads.defaulted "audit" AuditSettings.decode {})
    true

/-- What sessions are made from: as written, but for the blanks around the
id. -/
def sessionConfig (s : Settings) : SessionConfig :=
  { s.session with id := Text.trim s.session.id }

end Settings

end CallGate
