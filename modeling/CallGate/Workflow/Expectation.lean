import CallGate.Call.Response
import CallGate.Document.Tagged
import CallGate.Json.Path
import CallGate.Json.Written
import CallGate.Text.Split

/-!
# Expectations

What a step expects of the response to its call, and what is said when the
response does not meet it.  Fields are paths into the data of the response;
without a field the whole data is meant.
-/

namespace CallGate

/-- What a step expects. -/
inductive Expectation where
  /-- The response has a status. -/
  | status (expected : ResponseStatus)
  /-- The text of a field contains a text. -/
  | contains (field : Option String) (text : String)
  /-- A field has a value. -/
  | equals (field : Option String) (value : Json)
  /-- A field is there and not null. -/
  | present (field : String)
  /-- At most so many approvals wait. -/
  | pendingMax (max : Nat)
  deriving DecidableEq, Inhabited

namespace Expectation

/-- What a step expects that says nothing else. -/
def ordinary : List Expectation := [.status .ok]

/-- The part of the data that a field names. -/
def fieldValue? (r : Response) (field : Option String) : Option Json :=
  r.data.at? (field.getD "")

/-- The name under which a field is reported. -/
def fieldName (field : Option String) : String := field.getD "data"

/-- What is said about a field that is not there. -/
def missing (field : Option String) : String := fieldName field ++ ": missing"

/-- The text of a value that is searched: a string itself, otherwise the
compact form. -/
def searchable : Json → List Char
  | .str s => s.toList
  | v => v.compact

/-- What is said when more approvals wait than may. -/
def tooManyPending (pending max : Nat) : String :=
  s!"pending approvals: {pending} exceeds {max}"

/-- What is said about a response that does not meet the expectation. -/
def complaint? (r : Response) (pending : Nat) : Expectation → Option String
  | .status expected =>
    if r.status = expected then none
    else
      some ("status: expected " ++ expected.label ++ ", got " ++
        r.status.label)
  | .contains field text =>
    match fieldValue? r field with
    | none => some (missing field)
    | some v =>
      if Text.occursIn text.toList (searchable v) then none
      else some (fieldName field ++ ": does not contain `" ++ text ++ "`")
  | .equals field value =>
    match fieldValue? r field with
    | none => some (missing field)
    | some v =>
      if v.same value then none
      else
        some (fieldName field ++ ": expected " ++ value.compactText ++
          ", got " ++ v.compactText)
  | .present field =>
    match fieldValue? r (some field) with
    | none | some .null => some (missing (some field))
    | some _ => none
  | .pendingMax max =>
    if pending > max then some (tooManyPending pending max) else none

/-- What is said about a response that does not meet some of the
expectations. -/
def complaints (expectations : List Expectation) (r : Response)
    (pending : Nat) : List String :=
  expectations.filterMap (complaint? r pending)

def encode : Expectation → Json
  | .status expected =>
    .obj [("equals", expected.encode), ("kind", .str "status")]
  | .contains field text =>
    .obj [("contains", .str text), ("field", .ofText? field),
      ("kind", .str "result_contains")]
  | .equals field value =>
    .obj [("equals", value), ("field", .ofText? field),
      ("kind", .str "result_equals")]
  | .present field =>
    .obj [("field", .str field), ("kind", .str "field_present")]
  | .pendingMax max => .obj [("kind", .str "pending_max"), ("max", .ofNat max)]

def decode : Decoder Expectation :=
  Decoder.tagged "kind"
    [("status", Reads.record ["equals"] <|
        Expectation.status <$> Reads.required "equals" ResponseStatus.decode),
      ("result_contains", Reads.record ["field", "contains"] <|
        Expectation.contains <$> Reads.optional "field" Decoder.text <*>
          Reads.required "contains" Decoder.text),
      ("result_equals", Reads.record ["field", "equals"] <|
        Expectation.equals <$> Reads.optional "field" Decoder.text <*>
          Reads.required "equals" Decoder.value),
      ("field_present", Reads.record ["field"] <|
        Expectation.present <$> Reads.required "field" Decoder.text),
      ("pending_max", Reads.record ["max"] <|
        Expectation.pendingMax <$> Reads.required "max" Decoder.word64)]

end Expectation

end CallGate
