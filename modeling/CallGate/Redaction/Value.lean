import CallGate.Json.Value
import CallGate.Redaction.Personal
import CallGate.Text.Split

/-!
# Redacted values

Every string of a value is redacted, and what stands under a name that speaks
of a secret is replaced as a whole.  Null under such a name stays, names stay,
and so does the shape of the value.
-/

namespace CallGate.Redaction

/-- The mark that stands for a secret. -/
def secretMark : String := "[REDACTED]"

/-- What names of secrets have in them. -/
def secretWords : List String :=
  ["password", "secret", "token", "api_key", "apikey", "authorization",
    "credential"]

/-- Whether a name speaks of a secret; the case of ASCII letters does not
count. -/
def isSecretName (name : String) : Bool :=
  let lowered := (Text.asciiLower name).toList
  secretWords.any fun w => Text.occursIn w.toList lowered

mutual

/-- The redacted value. -/
def redact : Json → Json
  | .null => .null
  | .bool b => .bool b
  | .num n => .num n
  | .str s => .str (redactText s)
  | .arr items => .arr (redactItems items)
  | .obj members => .obj (redactMembers members)
termination_by structural v => v

/-- The redacted items. -/
def redactItems : List Json → List Json
  | [] => []
  | v :: rest => redact v :: redactItems rest
termination_by structural v => v

/-- The redacted members. -/
def redactMembers : List (String × Json) → List (String × Json)
  | [] => []
  | (name, v) :: rest =>
    (name,
        if isSecretName name && !v.isNull then .str secretMark else redact v) ::
      redactMembers rest
termination_by structural v => v

end

end CallGate.Redaction
