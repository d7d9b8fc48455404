import CallGate.Disk
import CallGate.Session.Basic

/-!
# Outlets

Where on a disk the receipts and audit events of a session end up.  What leaves
a session is written in the order in which it left, so that events and lines
may share a text.  Lines of receipts wait in the sink until they are flushed or
the session is left; an archive is written at once.
-/

namespace CallGate

/-- Where audit events go. -/
inductive AuditPlace where
  /-- They stay with the session. -/
  | trail
  /-- They are seen by nobody. -/
  | nowhere
  /-- To the text at a place, a line for each. -/
  | text (place : Place)
  deriving DecidableEq, Inhabited

/-- The line of an event with the newline that ends it. -/
def AuditEvent.line (e : AuditEvent) : List Char := e.encode.compact ++ ['\n']

/-- What is written of an emission. -/
def Emission.text : Emission → List Char
  | .event e => e.line
  | .lines text => text

/-- Where the receipts and audit events of a session go.  Turns of an episode
may go elsewhere. -/
structure Outlets where
  receipts : Option Place := none
  /-- Whether the session is attached to the journal of its archive. -/
  attached : Bool := false
  audit : AuditPlace := .trail
  episodes : AuditPlace := .trail
  deriving DecidableEq, Inhabited

namespace Outlets

/-- Where an event goes. -/
def placeOf (o : Outlets) (e : AuditEvent) : AuditPlace :=
  if e.isEpisode then o.episodes else o.audit

/-- Where on the disk something is written, if it is. -/
def target? (o : Outlets) : Emission → Option Place
  | .event e =>
    match o.placeOf e with
    | .text place => some place
    | .trail | .nowhere => none
  | .lines _ => o.receipts

/-- Whether something stays with the session. -/
def isKept (o : Outlets) : Emission → Bool
  | .event e => o.placeOf e = .trail
  | .lines _ => o.receipts.isNone

/-- Writes something where it belongs. -/
def write (o : Outlets) (d : Disk) (e : Emission) : Disk :=
  match o.target? e with
  | some place => d.append place e.text
  | none => d

/-- Writes the rows of an archive where they belong.  That attaches a session
to the journal. -/
def keep (o : Outlets) (place : Place) (rows : Archive) (d : Disk) :
    Outlets × Disk :=
  if o.attached || d.rowsAt place = rows then (o, d.keep place rows)
  else
    let (d, attached) := (d.keep place rows).attach place
    ({ o with attached := attached }, d)

/-- Writes what a session has for the disk, and leaves the rest with the
session. -/
def deliver (o : Outlets) (s : Session) (d : Disk) : Session × Outlets × Disk :=
  let d := s.emitted.foldl o.write d
  let s := { s with emitted := s.emitted.filter o.isKept }
  match o.receipts, s.sink with
  | some place, .archive a => (s, o.keep place a d)
  | _, _ => (s, o, d)

/-- The text that is found where the receipts of a session go. -/
def text (o : Outlets) (d : Disk) : List Char := o.receipts.elim [] d.textAt

/-- The archive that is found where the receipts of a session go.  One without
a place cannot be found. -/
def archive (o : Outlets) (d : Disk) : Archive :=
  o.receipts.elim .empty d.rowsAt

/-- The session with its archive as it is on the disk now. -/
def refresh (o : Outlets) (s : Session) (d : Disk) : Session :=
  match o.receipts, s.sink with
  | some place, .archive _ => { s with sink := .archive (d.rowsAt place) }
  | _, _ => s

/-- Leaves a session for good. -/
def leave (o : Outlets) (s : Session) (d : Disk) : Disk :=
  let sending := s.sink.flush
  let (_, o, d) :=
    o.deliver ({ s with sink := sending.sink }.write sending.written) d
  match o.receipts, o.attached with
  | some place, true => d.detach place
  | _, _ => d

/-- The outlets of a session that takes the place of another one, whose episode
goes on: turns of the episode are told where they were told before. -/
def following (o before : Outlets) : Outlets :=
  { o with
    episodes :=
      if before.episodes = .trail then .nowhere else before.episodes }

end Outlets

end CallGate
