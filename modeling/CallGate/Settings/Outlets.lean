import CallGate.Archive.Shelf
import CallGate.Session.Outlets
import CallGate.Settings.Basic

/-!
# Opening what settings name

The text for audit events and the sink of receipts that settings name are
opened on a disk, in this order.  The directory of audit events has to be
there, that of receipts is made when it is not.  What was made before something
could not be opened stays on the disk.
-/

namespace CallGate

/-- Where audit events and receipts go after opening that. -/
structure Opened where
  sink : ReceiptSink
  outlets : Outlets
  deriving Inhabited

namespace AuditSettings

/-- Opens the text for audit events, unless that fails. -/
def opened (a : AuditSettings) (d : Disk) : Disk × Option AuditPlace :=
  match a.kind, a.path with
  | .none, _ | .stderr, _ => (d, some .nowhere)
  | .file, none => (d, none)
  | .file, some written =>
    let path := Text.trim written
    match (d.parent? path).bind (d.textPlaceIn? path) with
    | none => (d, none)
    | some place => (d.append place [], some (.text place))

end AuditSettings

namespace ReceiptSettings

/-- Opens the text of a path, unless that fails. -/
def openedText (path : String) (d : Disk) :
    Disk × Option (ReceiptSink × Outlets) :=
  let (d, directory) := d.makeParent path
  match directory.bind (d.textPlaceIn? path) with
  | none => (d, none)
  | some place =>
    (d.append place [], some (.idleFile, { receipts := some place }))

/-- Opens the archive of a path, unless that fails. -/
def openedArchive (journal : JournalMode) (path : String) (d : Disk) :
    Disk × Option (ReceiptSink × Outlets) :=
  match Archive.checkPath d.isDirectory path with
  | .error _ => (d, none)
  | .ok () =>
    if path = Shelf.transientPath then (d, some (.archive .empty, {}))
    else
      let (d, directory) := d.makeParent path
      match directory.bind (d.placeIn? path) with
      | none => (d, none)
      | some place =>
        if Archive.isOpenable path then
          match d.prepare? place journal with
          | none => (d, none)
          | some d =>
            let (d, attached) := d.attach place
            (d, some (.archive (d.rowsAt place),
              { receipts := some place, attached := attached }))
        else (d, none)

/-- Opens the sink of receipts, unless that fails. -/
def opened (r : ReceiptSettings) (d : Disk) :
    Disk × Option (ReceiptSink × Outlets) :=
  match r.kind, r.path with
  | .none, _ => (d, some (.none, {}))
  | .file, none | .archive, none => (d, none)
  | .file, some path => openedText path d
  | .archive, some path => openedArchive r.journal path d

end ReceiptSettings

namespace Opened

/-- Opens where audit events are to go, unless that fails.  Without settings
they stay with the session. -/
def auditPlace (audit : Option AuditSettings) (d : Disk) :
    Disk × Option AuditPlace :=
  match audit with
  | none => (d, some .trail)
  | some a => a.opened d

/-- Opens where audit events and receipts are to go, unless that fails. -/
def make (audit : Option AuditSettings) (receipts : ReceiptSettings)
    (d : Disk) : Disk × Option Opened :=
  match auditPlace audit d with
  | (d, none) => (d, none)
  | (d, some audit) =>
    let (d, opened) := receipts.opened d
    (d, opened.map fun (sink, o) =>
      ⟨sink, { o with audit := audit, episodes := audit }⟩)

end Opened

end CallGate
