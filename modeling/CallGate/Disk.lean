import CallGate.Archive.Basic
import CallGate.Archive.Options

/-!
# Disks

What sessions find and leave behind: directories, texts and archives, each at a
place.  Texts only grow at their end, so several sessions may write to one of
them, and a session that opens an archive finds the rows that others put there.
-/

namespace CallGate

/-- An archive on a disk, with the journal that its engine keeps.  A journal
that is written ahead cannot be taken away from the sessions that are attached
to it. -/
structure StoredArchive where
  rows : Archive := .empty
  journal : JournalMode := .delete
  /-- How many sessions are attached to the journal. -/
  attached : Nat := 0
  deriving DecidableEq, Inhabited

/-- Directories, texts and archives at their places. -/
structure Disk where
  directories : List Place
  texts : KeyMap Place (List Char)
  archives : KeyMap Place StoredArchive
  deriving DecidableEq, Inhabited

namespace Disk

/-- A disk with some directories and no files. -/
def ofDirectories (directories : List Place) : Disk :=
  ⟨directories, KeyMap.empty, KeyMap.empty⟩

/-- Whether there is a directory at a place.  The present one and those around
it are there. -/
def hasDirectory (d : Disk) (place : Place) : Bool :=
  place.all (· = "..") || d.directories.contains place

/-- Whether there is a file at a place. -/
def hasFile (d : Disk) (place : Place) : Bool :=
  d.texts.contains place || d.archives.contains place

/-- Follows steps through directories that are there. -/
def follow? (d : Disk) : Place → List String → Option Place
  | place, [] => some place
  | place, step :: rest =>
    let next := Location.onward place step
    if d.hasDirectory next then d.follow? next rest else none

/-- Follows steps through directories, making those that are not there.  Those
that were made stay when a later one cannot be. -/
def make : Disk → Place → List String → Disk × Option Place
  | d, place, [] => (d, some place)
  | d, place, step :: rest =>
    let next := Location.onward place step
    if d.hasDirectory next then make d next rest
    else if d.hasFile next || isLongPiece step then (d, none)
    else make { d with directories := next :: d.directories } next rest

/-- Whether a path leads to a directory. -/
def isDirectory (d : Disk) (path : String) : Bool :=
  !path.isEmpty && (d.follow? [] (Location.steps path)).isSome

/-- The directory of the file of a path, when it is there. -/
def parent? (d : Disk) (path : String) : Option Place :=
  d.follow? [] (Location.parents path)

/-- Makes the directory of the file of a path, unless that is impossible. -/
def makeParent (d : Disk) (path : String) : Disk × Option Place :=
  if (Location.parents path).any Location.hasNul then (d, none)
  else d.make [] (Location.parents path)

/-- The place of the file of a path in its directory, unless a directory stands
there. -/
def placeIn? (d : Disk) (path : String) (directory : Place) : Option Place :=
  let place := directory ++ [Location.name path]
  if d.hasDirectory place then none else some place

/-- The place of a text that can be opened under a path in its directory.  The
path has to end in a name that can be given. -/
def textPlaceIn? (d : Disk) (path : String) (directory : Place) :
    Option Place :=
  let name := Location.name path
  if Location.endsInName path && !Location.hasNul name && !isLongPiece name then
    d.placeIn? path directory
  else none

/-- The text at a place; where there is none it is empty. -/
def textAt (d : Disk) (place : Place) : List Char :=
  (d.texts.get? place).getD []

/-- Adds to the end of the text at a place. -/
def append (d : Disk) (place : Place) (text : List Char) : Disk :=
  { d with texts := d.texts.insert place (d.textAt place ++ text) }

/-- The archive at a place; where there is none it is empty. -/
def storedAt (d : Disk) (place : Place) : StoredArchive :=
  (d.archives.get? place).getD {}

/-- The rows of the archive at a place. -/
def rowsAt (d : Disk) (place : Place) : Archive := (d.storedAt place).rows

/-- Changes the archive at a place. -/
def store (d : Disk) (place : Place) (s : StoredArchive) : Disk :=
  { d with archives := d.archives.insert place s }

/-- Gives the archive at a place a journal, unless the one that it has cannot
be taken away, or a text stands there. -/
def prepare? (d : Disk) (place : Place) (journal : JournalMode) : Option Disk :=
  let stored := d.storedAt place
  if !(d.textAt place).isEmpty then none
  else if journal = .delete && stored.journal = .wal && 0 < stored.attached then
    none
  else some (d.store place { stored with journal := journal })

/-- Attaches a session to the journal of an archive when that is written ahead,
and says whether it is. -/
def attach (d : Disk) (place : Place) : Disk × Bool :=
  let stored := d.storedAt place
  if stored.journal = .wal then
    (d.store place { stored with attached := stored.attached + 1 }, true)
  else (d, false)

/-- Detaches a session from the journal of an archive. -/
def detach (d : Disk) (place : Place) : Disk :=
  let stored := d.storedAt place
  d.store place { stored with attached := stored.attached - 1 }

/-- Keeps the rows of the archive at a place. -/
def keep (d : Disk) (place : Place) (rows : Archive) : Disk :=
  d.store place { d.storedAt place with rows := rows }

end Disk

end CallGate
