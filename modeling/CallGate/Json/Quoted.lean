import CallGate.Text.Numeral

/-!
# Quoted strings

The written form of a string: between quotes, with a backslash before quotes
and backslashes and with control characters below the space escaped, by a
letter where there is one.  Every other character stands for itself.
-/

namespace CallGate.Json

/-- How one character is written inside quotes. -/
def escaped (c : Char) : List Char :=
  if c = '"' then ['\\', '"']
  else if c = '\\' then ['\\', '\\']
  else if c.toNat < 0x20 then
    if c = '\x08' then ['\\', 'b']
    else if c = '\t' then ['\\', 't']
    else if c = '\n' then ['\\', 'n']
    else if c = '\x0c' then ['\\', 'f']
    else if c = '\r' then ['\\', 'r']
    else '\\' :: 'u' :: Text.hexFixed 4 c.toNat
  else [c]

/-- The written form of a string. -/
def quoted (s : String) : List Char :=
  '"' :: (s.toList.flatMap escaped ++ ['"'])

end CallGate.Json
