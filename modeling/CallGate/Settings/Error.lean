import CallGate.Backend.Mode
import CallGate.Operation.Registry

/-!
# Errors of settings

Why settings cannot be read, or do not fit together.
-/

namespace CallGate

/-- What is wrong with a path. -/
inductive PathFault where
  | empty
  | long
  | longPiece
  deriving DecidableEq, Inhabited

/-- What is said about it. -/
def PathFault.message : PathFault → String
  | .empty => "must be non-empty"
  | .long => "exceeds max length"
  | .longPiece => "path component too long"

/-- Why settings are not accepted. -/
inductive SettingsError where
  /-- There is no file to be read. -/
  | unreadable
  /-- The document does not hold settings. -/
  | malformed (misfit : Misfit)
  | longFilePath
  | longFilePiece
  | largeFile
  /-- The file is not in UTF-8. -/
  | notText
  /-- A variable of the environment names no mode. -/
  | modeVariable (name : String) (error : UnknownMode)
  | numberVariable (name : String)
  | flagVariable (name : String)
  /-- A variable of the environment names no operation. -/
  | operationVariable (name : String) (misfit : Misfit)
  | catalog (error : RegistryError)
  | emptyId
  | longId
  | approvalsMode
  | unknownService (service : String)
  | tooManyOperations (field : String)
  | controlOperation (field : String) (operation : OperationId)
  | unknownOperation (field : String) (operation : OperationId)
  | grantedAndBlocked (operation : OperationId)
  | noExecutions
  | tooManyExecutions
  | tooManyJumps
  | needlessReceiptsPath
  | missingReceiptsPath (kind : String)
  | receiptsDirectory
  | missingAuditPath
  | needlessAuditPath
  | path (field : String) (fault : PathFault)
  deriving DecidableEq, Inhabited

/-- The groups of errors. -/
inductive SettingsErrorGroup where
  | io
  | parse
  | invalid
  deriving DecidableEq, Inhabited

namespace SettingsError

/-- The group of an error. -/
def group : SettingsError → SettingsErrorGroup
  | .unreadable => .io
  | .malformed _ => .parse
  | _ => .invalid

/-- The most operations in one place of the settings. -/
def maxOperations : Nat := 512

/-- The most executions that an episode may be given. -/
def maxExecutions : Nat := 100000

/-- What is said about settings that do not fit together. -/
def complaint : SettingsError → String
  | .unreadable | .malformed _ => ""
  | .longFilePath => "config path exceeds max length"
  | .longFilePiece => "config path component too long"
  | .largeFile => "config file exceeds size limit"
  | .notText => "config file must be utf-8"
  | .modeVariable name error => name ++ ": " ++ error.message
  | .numberVariable name => name ++ " must be an unsigned integer"
  | .flagVariable name => name ++ " must be a boolean flag"
  | .operationVariable name misfit => name ++ ": " ++ misfit.message.getD ""
  | .catalog error => error.message
  | .emptyId => "session.id must be non-empty"
  | .longId => "session.id exceeds max length"
  | .approvalsMode =>
    "session.service_modes must not configure the approvals service"
  | .unknownService service =>
    "session.service_modes: unknown service " ++ service
  | .tooManyOperations field =>
    field ++ s!" exceeds max entries ({maxOperations})"
  | .controlOperation field operation =>
    field ++ ": approval controls cannot be configured (" ++
      operation.display ++ ")"
  | .unknownOperation field operation =>
    field ++ ": unknown operation " ++ operation.display
  | .grantedAndBlocked operation =>
    "policy.pre_granted conflicts with policy.hard_block for " ++
      operation.display
  | .noExecutions => "runner.max_step_executions must be greater than zero"
  | .tooManyExecutions =>
    s!"runner.max_step_executions exceeds limit ({maxExecutions})"
  | .tooManyJumps =>
    "runner.max_jumps must not exceed runner.max_step_executions"
  | .needlessReceiptsPath => "receipts type none must not set path"
  | .missingReceiptsPath kind => kind ++ " receipts require path"
  | .receiptsDirectory => "receipts.path must be a file, not a directory"
  | .missingAuditPath => "file audit requires path"
  | .needlessAuditPath => "audit.path is only valid for the file sink"
  | .path field fault => field ++ " " ++ fault.message

/-- What is said about an error.  Nothing is said about a file that cannot be
read, and about a document only what its misfit says. -/
def message (e : SettingsError) : Option String :=
  match e with
  | .unreadable => none
  | .malformed misfit => misfit.message
  | e => some ("invalid config: " ++ e.complaint)

end SettingsError

end CallGate
