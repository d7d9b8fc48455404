import CallGate.Archive.Basic

/-!
# Edits underneath an archive

What others can do to the rows of an archive without going through it.  An edit
of a row that is not there does nothing.
-/

namespace CallGate

/-- A change to the columns of a row. -/
structure RecordEdit where
  payload : Option ByteArray := none
  /-- Whether the digest of a new payload is put beside it. -/
  rehash : Bool := false
  hash : Option String := none
  algorithm : Option String := none
  deriving Inhabited

namespace RecordEdit

/-- The digest that comes with the new payload, if it does. -/
def digest? (e : RecordEdit) : Option String :=
  if e.rehash then e.payload.map Sha256.hex else none

/-- The row after the change: first the payload and its digest, then what is
given for the digest and its algorithm. -/
def apply (e : RecordEdit) (r : ArchiveRecord) : ArchiveRecord :=
  ⟨e.payload.getD r.payload, e.hash.getD (e.digest?.getD r.hash),
    e.algorithm.getD r.algorithm⟩

end RecordEdit

namespace Archive

/-- Takes the row of a key out of a table. -/
def without {κ α : Type} [Ord κ] [Std.TransOrd κ] [DecidableEq κ]
    (m : KeyMap κ α) (key : κ) : KeyMap κ α :=
  KeyMap.ofList (m.entries.filter fun e => e.1 ≠ key)

/-- Edits the row of a receipt. -/
def editReceipt (a : Archive) (session : String) (sequence : Int)
    (edit : RecordEdit) : Archive :=
  match (a.session session).get? sequence with
  | none => a
  | some record => a.put session sequence (edit.apply record)

/-- Gives the row of a receipt another sequence number.  That of another row is
refused. -/
def moveReceipt (a : Archive) (session : String) (sequence target : Int) :
    Except ArchiveError Archive :=
  let rows := a.session session
  match rows.get? sequence with
  | none => .ok a
  | some record =>
    if target ≠ sequence && rows.contains target then .error .unopenable
    else .ok { a with
      receipts := a.receipts.insert session
        ((without rows sequence).insert target record) }

/-- Puts a row of spaces under a session and a sequence number that has none. -/
def insertBlank (a : Archive) (session : String) (sequence : Int) (size : Nat) :
    Except ArchiveError Archive :=
  if (a.session session).contains sequence then .error .unopenable
  else
    let payload := (String.ofList (List.replicate size ' ')).toUTF8
    .ok (a.put session sequence ⟨payload, "x", ContentDigest.algorithm⟩)

/-- Edits the row of an outcome. -/
def editFixture (a : Archive) (name fingerprint : String) (edit : RecordEdit) :
    Archive :=
  let rows := (a.fixtures.get? name).getD KeyMap.empty
  match rows.get? fingerprint with
  | none => a
  | some record =>
    { a with
      fixtures := a.fixtures.insert name
        (rows.insert fingerprint (edit.apply record)) }

/-- Takes out the row of an outcome, and says how many rows that were. -/
def deleteFixture (a : Archive) (name fingerprint : String) : Nat × Archive :=
  let rows := (a.fixtures.get? name).getD KeyMap.empty
  if rows.contains fingerprint then
    (1, { a with
      fixtures := a.fixtures.insert name (without rows fingerprint) })
  else (0, a)

/-- Gives the row of an outcome another fingerprint.  That of another row is
refused. -/
def moveFixture (a : Archive) (name fingerprint target : String) :
    Except ArchiveError Archive :=
  let rows := (a.fixtures.get? name).getD KeyMap.empty
  match rows.get? fingerprint with
  | none => .ok a
  | some record =>
    if target ≠ fingerprint && rows.contains target then .error .unopenable
    else .ok { a with
      fixtures := a.fixtures.insert name
        ((without rows fingerprint).insert target record) }

/-- Puts a row under a name and a fingerprint that has none. -/
def insertFixture (a : Archive) (name fingerprint : String)
    (record : ArchiveRecord) : Except ArchiveError Archive :=
  let rows := (a.fixtures.get? name).getD KeyMap.empty
  if rows.contains fingerprint then .error .unopenable
  else .ok { a with
    fixtures := a.fixtures.insert name (rows.insert fingerprint record) }

/-- Writes another version into the archive. -/
def setVersion (a : Archive) (version : Int) : Archive :=
  { a with version := version }

end Archive

end CallGate
