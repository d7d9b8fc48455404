import CallGate.Document.Reads
import CallGate.Text.Blank
import CallGate.Text.Split

/-!
# What to do on failure

A step says what happens when it fails: the episode fails, it goes on with the
next step, or it jumps to another step.  Keywords are read in either case, the
name of a step as it stands.
-/

namespace CallGate

/-- What happens when a step fails. -/
inductive FailurePolicy where
  | fail
  | continue
  | jump (target : String)
  deriving DecidableEq, Inhabited

namespace FailurePolicy

/-- The mark of a jump. -/
def jumpMark : List Char := ['j', 'u', 'm', 'p', ':']

/-- What stands after the mark of a jump, when the text starts with it. -/
def afterJump? (text : List Char) : Option (List Char) :=
  if (text.take jumpMark.length).map Char.toLower = jumpMark then
    some (text.drop jumpMark.length)
  else none

/-- Reads a written policy. -/
def read (text : String) : Except Misfit FailurePolicy :=
  let trimmed := Text.trimChars text.toList
  let keyword := String.ofList (trimmed.map Char.toLower)
  if keyword = "" || keyword = "fail" then .ok .fail
  else if keyword = "continue" || keyword = "skip" then .ok .continue
  else
    match (afterJump? trimmed).map Text.trimChars with
    | none | some [] => .error (.failurePolicy text)
    | some target => .ok (.jump (String.ofList target))

def display : FailurePolicy → String
  | .fail => "fail"
  | .continue => "continue"
  | .jump target => "jump:" ++ target

/-- Whether the policy is a jump. -/
def isJump : FailurePolicy → Bool
  | .jump _ => true
  | .fail | .continue => false

def encode (p : FailurePolicy) : Json := .str p.display

def decode : Decoder FailurePolicy := Decoder.text.andThen read

end FailurePolicy

end CallGate
