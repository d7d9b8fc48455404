import CallGate.Redaction.Pattern
import CallGate.Text.Blank

/-!
# Addresses, phone numbers and keys

The three kinds of text that are taken out: electronic mail addresses, phone
numbers of ten digits with an optional country code, and keys that say what
they are.  Letters count in either case, and the long s and the Kelvin sign
count as the letters that they are forms of.
-/

namespace CallGate.Redaction

/-- A letter of the alphabet, in any of its forms. -/
def isLetter (c : Char) : Bool := c.isAlpha || c = '\u017f' || c = '\u212a'

/-- A letter or an ASCII digit. -/
def isAlphanumeric (c : Char) : Bool := isLetter c || c.isDigit

/-- One of some characters. -/
def isOneOf (cs : List Char) (c : Char) : Bool := cs.contains c

/-- A small letter, in any of its forms. -/
def isForm (letter c : Char) : Bool :=
  c.toLower = letter || (letter = 's' && c = '\u017f') ||
    (letter = 'k' && c = '\u212a')

namespace Pattern

/-- A word, given by its small letters. -/
def word (letters : List Char) : Pattern :=
  inOrder (letters.map fun l => one (isForm l))

/-- An electronic mail address. -/
def address : Pattern :=
  inOrder
    [boundary,
      many (fun c => isAlphanumeric c || isOneOf ['.', '_', '%', '+', '-'] c) 1,
      one (isOneOf ['@']),
      many (fun c => isAlphanumeric c || isOneOf ['.', '-'] c) 1,
      one (isOneOf ['.']), many isLetter 2, boundary]

/-- What may stand between the parts of a phone number. -/
def separator : Pattern :=
  maybe (one fun c => isOneOf ['-', '.'] c || Text.isBlank c)

/-- A phone number. -/
def phone : Pattern :=
  inOrder
    [boundary,
      maybe (inOrder
        [maybe (one (isOneOf ['+'])), one (isOneOf ['1']), separator]),
      maybe (one (isOneOf ['('])), exactly Text.isDecimalDigit 3,
      maybe (one (isOneOf [')'])), separator, exactly Text.isDecimalDigit 3,
      separator, exactly Text.isDecimalDigit 4, boundary]

/-- A key. -/
def key : Pattern :=
  inOrder
    [boundary, firstOf (word ['s', 'k']) [word ['p', 'k'], word ['a', 'p', 'i'],
        word ['t', 'o', 'k', 'e', 'n']],
      maybe (one (isOneOf ['_', '-'])), many isAlphanumeric 8, boundary]

end Pattern

/-- The mark that stands for an address. -/
def addressMark : String := "[REDACTED_EMAIL]"

/-- The mark that stands for a phone number. -/
def phoneMark : String := "[REDACTED_PHONE]"

/-- The mark that stands for a key. -/
def keyMark : String := "[REDACTED_KEY]"

/-- A text without addresses, phone numbers and keys: they are taken out one
kind after the other. -/
def redactChars (text : List Char) : List Char :=
  Pattern.key.replaceAll keyMark.toList <|
    Pattern.phone.replaceAll phoneMark.toList <|
      Pattern.address.replaceAll addressMark.toList text

/-- A text without addresses, phone numbers and keys. -/
def redactText (text : String) : String :=
  String.ofList (redactChars text.toList)

end CallGate.Redaction
