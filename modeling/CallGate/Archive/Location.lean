import CallGate.Text.Split

/-!
# Locations

A path is cut into pieces at its slashes.  Pieces that are empty or a single
dot stay where they are, and two dots lead back; what a path leads to is its
place.  There are limits on the bytes of the whole path and of each piece.
-/

namespace CallGate

/-- The most bytes of a path. -/
def maxPathBytes : Nat := 4096

/-- The most bytes of a piece of a path. -/
def maxPieceBytes : Nat := 255

/-- Whether a path has more bytes than it may. -/
def isLongPath (path : String) : Bool := path.utf8ByteSize > maxPathBytes

/-- Whether a piece of a path has more bytes than it may. -/
def isLongPiece (piece : String) : Bool := piece.utf8ByteSize > maxPieceBytes

/-- Where something stands: the names of the directories that lead to it, and
its own.  The empty place is the present directory. -/
abbrev Place := List String

namespace Location

/-- The pieces of a path. -/
def pieces (path : String) : List String :=
  (Text.pieces '/' path.toList).map String.ofList

/-- Whether a piece stays where it is. -/
def isHere (piece : String) : Bool := piece.isEmpty || piece = "."

/-- The pieces of a path that lead somewhere. -/
def steps (path : String) : List String :=
  (pieces path).filter fun piece => !isHere piece

/-- The last step of a path. -/
def name (path : String) : String := (steps path).getLastD ""

/-- The steps to the directory that the last one starts from. -/
def parents (path : String) : List String := (steps path).dropLast

/-- Whether a step is the name of a file. -/
def isName (step : String) : Bool := !isHere step && step ≠ ".."

/-- Whether the last piece of a path is the name of a file. -/
def endsInName (path : String) : Bool := isName ((pieces path).getLastD "")

/-- The place that a step leads to. -/
def onward (place : Place) (step : String) : Place :=
  if step = ".." && place.any (· ≠ "..") then place.dropLast
  else place ++ [step]

/-- The place that a path leads to. -/
def place (path : String) : Place := (steps path).foldl onward []

/-- Whether a text holds the character that ends a text on the disk. -/
def hasNul (text : String) : Bool := text.toList.contains '\x00'

end Location

/-- Whether a piece of a path has more bytes than it may. -/
def hasLongPiece (path : String) : Bool :=
  (Location.pieces path).any isLongPiece

end CallGate
