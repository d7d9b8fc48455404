import CallGate.Archive.Location
import CallGate.Operation.Catalog
import CallGate.Settings.Basic
import CallGate.Settings.Error

/-!
# Checking settings

Settings fit together when ids, services and operations are known ones, limits
are within bounds, and paths are there exactly where they are needed.  Sections
are checked one after the other, and the first complaint is the one reported.
-/

namespace CallGate.Settings

/-- A check of something. -/
abbrev Check := Except SettingsError Unit

/-- Complains unless something holds. -/
def demand (holds : Bool) (e : SettingsError) : Check :=
  if holds then .ok () else .error e

/-- The most bytes of the id of a session. -/
def maxIdBytes : Nat := 128

/-- Checks the id of a session. -/
def checkId (written : String) : Check :=
  let id := Text.trim written
  if id.isEmpty then .error .emptyId
  else demand (id.utf8ByteSize ≤ maxIdBytes) .longId

/-- Checks that services with a mode are known ones. -/
def checkServices (known : List String) : List String → Check
  | [] => .ok ()
  | service :: rest =>
    if service = ApprovalControl.service then .error .approvalsMode
    else if known.contains service then checkServices known rest
    else .error (.unknownService service)

/-- Checks that operations are known and go to adapters. -/
def checkEach (field : String) (registry : Registry) : List OperationId → Check
  | [] => .ok ()
  | operation :: rest =>
    if operation.service = ApprovalControl.service then
      .error (.controlOperation field operation)
    else if registry.contains operation then checkEach field registry rest
    else .error (.unknownOperation field operation)

/-- Checks the operations in one place of the settings. -/
def checkOperations (field : String) (registry : Registry)
    (operations : List OperationId) : Check :=
  if SettingsError.maxOperations < operations.length then
    .error (.tooManyOperations field)
  else checkEach field registry operations

/-- Checks that nothing is granted and blocked. -/
def checkConflict (p : Policy) : Check :=
  match p.preGranted.keys.find? fun operation =>
    p.hardBlock.contains operation with
  | some operation => .error (.grantedAndBlocked operation)
  | none => .ok ()

/-- Checks a policy. -/
def checkPolicy (registry : Registry) (p : Policy) : Check := do
  checkOperations "policy.hard_block" registry p.hardBlock.keys
  checkOperations "policy.pre_granted" registry p.preGranted.keys
  checkOperations "policy.overrides" registry p.overrides.keys
  checkConflict p

/-- Checks the limits of episodes. -/
def checkLimits (l : EpisodeLimits) : Check :=
  if l.maxExecutions = 0 then .error .noExecutions
  else if SettingsError.maxExecutions < l.maxExecutions then
    .error .tooManyExecutions
  else demand (l.maxJumps ≤ l.maxExecutions) .tooManyJumps

/-- Checks the length of a path and of its pieces, the blanks around it
aside. -/
def checkPath (field written : String) : Check :=
  let path := Text.trim written
  if path.isEmpty then .error (.path field .empty)
  else if isLongPath path then .error (.path field .long)
  else demand (!hasLongPiece path) (.path field .longPiece)

/-- Checks where receipts go. -/
def checkReceipts (isDirectory : String → Bool) (r : ReceiptSettings) : Check :=
  match r.kind, r.path with
  | .none, none => .ok ()
  | .none, some _ => .error .needlessReceiptsPath
  | .file, none | .archive, none => .error (.missingReceiptsPath r.kind.label)
  | .file, some path | .archive, some path => do
    checkPath "receipts.path" path
    demand (!isDirectory path) .receiptsDirectory

/-- Checks where audit events go. -/
def checkAudit (a : AuditSettings) : Check :=
  match a.kind, a.path with
  | .file, some path => checkPath "audit.path" path
  | .file, none => .error .missingAuditPath
  | .none, some _ | .stderr, some _ => .error .needlessAuditPath
  | .none, none | .stderr, none => .ok ()

/-- Checks settings against a registry. -/
def checkWith (registry : Registry) (isDirectory : String → Bool)
    (s : Settings) : Check := do
  checkId s.session.id
  checkServices registry.services s.session.modes.services.keys
  checkPolicy registry s.session.policy
  checkOperations "live.block_ops" registry s.session.guard.hardBlock.keys
  checkLimits s.limits
  checkReceipts isDirectory s.receipts
  checkAudit s.audit

/-- Checks settings against the catalog of the office. -/
def check (isDirectory : String → Bool) (s : Settings) : Check :=
  match Registry.office with
  | .error e => .error (.catalog e)
  | .ok registry => s.checkWith registry isDirectory

end CallGate.Settings
