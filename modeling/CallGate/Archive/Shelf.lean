import CallGate.Archive.Basic

/-!
# Opening archives

The archives by their paths, and the one that is open.  The path `:memory:`
stands for an archive that is empty when opened and gone when closed.
-/

namespace CallGate

/-- What is open. -/
inductive OpenArchive where
  /-- The archive at a path. -/
  | at (path : String)
  /-- An archive without a path. -/
  | transient (archive : Archive)
  deriving DecidableEq, Inhabited

/-- The archives by their paths, and the one that is open. -/
structure Shelf where
  archives : KeyMap String Archive
  opened : Option OpenArchive
  deriving DecidableEq, Inhabited

namespace Shelf

/-- The path of archives without a path. -/
def transientPath : String := ":memory:"

/-- No archives. -/
def empty : Shelf := ⟨KeyMap.empty, none⟩

/-- Closes what is open. -/
def close (s : Shelf) : Shelf := { s with opened := none }

/-- Opens the archive at a path, after closing what is open.  An archive that
is not there is made. -/
def openAt (s : Shelf) (isDirectory : String → Bool) (path : String) :
    Except ArchiveError Shelf :=
  match Archive.checkOpening isDirectory path with
  | .error e => .error e
  | .ok () =>
    if path = transientPath then
      .ok { s with opened := some (.transient .empty) }
    else
      match s.archives.get? path with
      | none => .ok ⟨s.archives.insert path .empty, some (.at path)⟩
      | some a =>
        a.checkVersion.map fun () => { s with opened := some (.at path) }

/-- The archive that is open. -/
def current? (s : Shelf) : Option Archive :=
  match s.opened with
  | none => none
  | some (.at path) => s.archives.get? path
  | some (.transient a) => some a

/-- The shelf with another state of the archive that is open. -/
def setCurrent (s : Shelf) (a : Archive) : Shelf :=
  match s.opened with
  | none => s
  | some (.at path) => { s with archives := s.archives.insert path a }
  | some (.transient _) => { s with opened := some (.transient a) }

end Shelf

end CallGate
