import CallGate.Archive.Error
import CallGate.Archive.Location
import CallGate.Call.Outcome
import CallGate.Call.Receipt
import CallGate.Digest.Content
import CallGate.Json.Reader
import CallGate.Text.Blank

/-!
# Archives

An archive keeps receipts by session and sequence number, and sets of recorded
outcomes by name.  Every payload is kept as the bytes of its canonical form
beside their digest, and nothing is given out whose digest does not agree.  The
rows may have been edited by others, so reading relies on nothing but the rows
it reads.
-/

namespace CallGate

/-- A payload with its digest. -/
structure ArchiveRecord where
  payload : ByteArray
  hash : String
  algorithm : String
  deriving Inhabited

namespace ArchiveRecord

instance : DecidableEq ArchiveRecord
  | ⟨⟨payload⟩, hash, algorithm⟩, ⟨⟨payload'⟩, hash', algorithm'⟩ =>
    decidable_of_decidable_of_iff
      (p := payload = payload' ∧ hash = hash' ∧ algorithm = algorithm')
      (by simp)

/-- Refuses payloads of too many bytes. -/
def checkSize (bytes : Nat) : Except ArchiveError Unit :=
  if bytes > ArchiveError.maxPayloadBytes then .error (.tooLarge bytes)
  else .ok ()

/-- The record of a value. -/
def ofValue (v : Json) : ArchiveRecord :=
  let payload := v.canonicalText.toUTF8
  ⟨payload, Sha256.hex payload, ContentDigest.algorithm⟩

/-- The record of a value, unless it is too large. -/
def ofValue? (v : Json) : Except ArchiveError ArchiveRecord :=
  let record := ofValue v
  (checkSize record.payload.size).map fun () => record

/-- What a record holds; `label` names the record in an error. -/
def read {α : Type} (decode : Decoder α) (label : String) (r : ArchiveRecord) :
    Except ArchiveError α :=
  match checkSize r.payload.size with
  | .error e => .error e
  | .ok () =>
    if r.algorithm ≠ ContentDigest.algorithm then
      .error (.algorithm r.algorithm)
    else if Sha256.hex r.payload ≠ r.hash then .error (.hashMismatch label)
    else
      match String.fromUTF8? r.payload with
      | none => .error .malformed
      | some text => (Decoder.fromText decode text).mapError fun _ => .malformed

end ArchiveRecord

/-- Receipts by session and sequence number, and sets of outcomes with the
number of their entries. -/
structure Archive where
  version : Int
  receipts : KeyMap String (KeyMap Int ArchiveRecord)
  setSizes : KeyMap String Nat
  fixtures : KeyMap String (KeyMap String ArchiveRecord)
  deriving DecidableEq, Inhabited

namespace Archive

/-- The version that is understood. -/
def currentVersion : Int := 1

/-- The archive that holds nothing. -/
def empty : Archive :=
  ⟨currentVersion, KeyMap.empty, KeyMap.empty, KeyMap.empty⟩

/-- Checks that an archive is of the version that is understood. -/
def checkVersion (a : Archive) : Except ArchiveError Unit :=
  if a.version = currentVersion then .ok () else .error (.version a.version)

/-- Checks the path of an archive. -/
def checkPath (isDirectory : String → Bool) (path : String) :
    Except ArchiveError Unit :=
  if isLongPath path then .error .longPath
  else if hasLongPiece path then .error .longPiece
  else if isDirectory path then .error .directory
  else .ok ()

/-- The most bytes of the place of a file that the engine keeps, slashes
included. -/
def maxEngineBytes : Nat := 512

/-- By how many bytes the names of the files that the engine keeps beside an
archive are longer than the name of the archive. -/
def companionBytes : Nat := 8

/-- Whether the engine can open a file at a path that is no directory. -/
def isOpenable (path : String) : Bool :=
  let place := "/".intercalate (Location.place path)
  let name := Location.name path
  Location.isName name && !Location.hasNul path &&
    place.utf8ByteSize + companionBytes ≤ maxEngineBytes &&
    name.utf8ByteSize + companionBytes ≤ maxPieceBytes

/-- Checks that an archive can be opened at a path. -/
def checkOpening (isDirectory : String → Bool) (path : String) :
    Except ArchiveError Unit :=
  match checkPath isDirectory path with
  | .error e => .error e
  | .ok () =>
    if path.isEmpty then .error .noParent
    else if (Location.parents path).any Location.hasNul then
      .error .unmakableParent
    else if isOpenable path then .ok ()
    else .error .unopenable

/-- The rows of a table: two keys and a record in each. -/
def rowsOf {κ : Type} [Ord κ] (table : KeyMap String (KeyMap κ ArchiveRecord)) :
    List (String × κ × ArchiveRecord) :=
  table.entries.flatMap fun (name, rows) =>
    rows.entries.map fun (key, r) => (name, key, r)

/-- The records of a session by sequence number. -/
def session (a : Archive) (session : String) : KeyMap Int ArchiveRecord :=
  (a.receipts.get? session).getD KeyMap.empty

/-- The greatest sequence number of a session. -/
def last? (a : Archive) (session : String) : Option Int :=
  (a.session session).keys.getLast?

/-- The bound of the sequence numbers that the table can hold. -/
def sequenceBound : Nat := Nat.pow 2 63

/-- Puts a record under a session and a sequence number. -/
def put (a : Archive) (session : String) (sequence : Int)
    (record : ArchiveRecord) : Archive :=
  { a with
    receipts := a.receipts.insert session
      ((a.session session).insert sequence record) }

/-- Adds a receipt to a session.  It has to follow all receipts of the
session. -/
def append (a : Archive) (session : String) (receipt : Receipt) :
    Except ArchiveError Archive :=
  match ArchiveRecord.ofValue? receipt.encode with
  | .error e => .error e
  | .ok record =>
    let sequence : Int := receipt.sequence
    if sequenceBound ≤ receipt.sequence then .error .sequenceRange
    else
      match a.last? session with
      | none => .ok (a.put session sequence record)
      | some last =>
        if sequence ≤ last then .error (.sequenceOrder sequence last session)
        else .ok (a.put session sequence record)

/-- The name of a receipt in errors. -/
def receiptLabel (session : String) (sequence : Int) : String :=
  s!"receipt {sequence} of session " ++ session

/-- The receipt in a row. -/
def loadRow (session : String) (row : Int × ArchiveRecord) :
    Except ArchiveError Receipt :=
  match row.2.read Receipt.decode (receiptLabel session row.1) with
  | .error e => .error e
  | .ok receipt =>
    if (receipt.sequence : Int) = row.1 then .ok receipt
    else .error .keyMismatch

/-- The receipts in rows, up to the first row that is refused. -/
def loadRows (session : String) :
    List (Int × ArchiveRecord) → Except ArchiveError (List Receipt)
  | [] => .ok []
  | row :: rest =>
    match loadRow session row with
    | .error e => .error e
    | .ok receipt => (loadRows session rest).map (receipt :: ·)

/-- The receipts of a session in the order of their sequence numbers. -/
def load (a : Archive) (session : String) :
    Except ArchiveError (List Receipt) :=
  loadRows session (a.session session).entries

/-- The sessions that have receipts. -/
def sessionIds (a : Archive) : List String :=
  (a.receipts.entries.filter fun e => !e.2.entries.isEmpty).map (·.1)

/-- The most bytes of the name of a set. -/
def maxSetNameBytes : Nat := 255

/-- Checks the name of a set. -/
def checkSetName (name : String) : Except ArchiveError Unit :=
  if Text.isBlankText name then .error .emptySetName
  else if name.utf8ByteSize > maxSetNameBytes then .error .longSetName
  else .ok ()

/-- The records of outcomes, unless one is too large. -/
def recordsOf : List (String × Outcome) →
    Except ArchiveError (List (String × ArchiveRecord))
  | [] => .ok []
  | (fingerprint, outcome) :: rest =>
    match ArchiveRecord.ofValue? outcome.encode with
    | .error e => .error e
    | .ok record => (recordsOf rest).map ((fingerprint, record) :: ·)

/-- Keeps a set of outcomes under a name, in place of the one that was there. -/
def saveFixtures (a : Archive) (name : String) (fixtures : Fixtures) :
    Except ArchiveError Archive :=
  match checkSetName name with
  | .error e => .error e
  | .ok () =>
    (recordsOf fixtures.entries).map fun records =>
      { a with
        setSizes := a.setSizes.insert name records.length
        fixtures := a.fixtures.insert name (KeyMap.ofList records) }

/-- The outcomes in rows, up to the first row that is refused. -/
def loadOutcomes (name : String) : List (String × ArchiveRecord) →
    Except ArchiveError (List (String × Outcome))
  | [] => .ok []
  | (fingerprint, record) :: rest =>
    match record.read Outcome.decode
        ("fixture " ++ fingerprint ++ " in set " ++ name) with
    | .error e => .error e
    | .ok outcome => (loadOutcomes name rest).map ((fingerprint, outcome) :: ·)

/-- The rows of a set. -/
def setRows (a : Archive) (name : String) : List (String × ArchiveRecord) :=
  ((a.fixtures.get? name).getD KeyMap.empty).entries

/-- The set of outcomes under a name, when there is one. -/
def loadFixtures (a : Archive) (name : String) :
    Except ArchiveError (Option Fixtures) :=
  match checkSetName name with
  | .error e => .error e
  | .ok () =>
    match a.setSizes.get? name with
    | none => .ok none
    | some size =>
      let rows := a.setRows name
      if rows.length ≠ size then .error (.entryCount name size rows.length)
      else (loadOutcomes name rows).map fun outcomes =>
        some (KeyMap.ofList outcomes)

end Archive

end CallGate
