import CallGate.Json.Path
import CallGate.Json.Written
import CallGate.KeyMap
import CallGate.Text.Blank

/-!
# Templates

A string of a step's arguments may contain references between a dollar sign
with a brace and a closing brace: to the data of another step, or to the
snapshot of the world.  A string that is one reference stands for the value
referred to; in any other string a reference stands for its text.  What a
reference brings in is not searched for references again.
-/

namespace CallGate.Template

/-- A piece of a string: text as it stands, or what stands between the marks of
a reference. -/
inductive Segment where
  | text (chars : List Char)
  | body (chars : List Char)
  deriving DecidableEq, Inhabited

/-- The text before and after the first opening mark, when there is one. -/
def cutAtOpening : List Char → Option (List Char × List Char)
  | '$' :: '{' :: after => some ([], after)
  | c :: rest =>
    (cutAtOpening rest).map fun (before, after) => (c :: before, after)
  | [] => none

theorem length_cutAtOpening {text before after : List Char}
    (h : cutAtOpening text = some (before, after)) :
    after.length < text.length := by
  fun_induction cutAtOpening text generalizing before with
  | case1 rest =>
    simp only [Option.some.injEq, Prod.mk.injEq] at h
    obtain ⟨-, rfl⟩ := h
    simp only [List.length_cons]
    omega
  | case2 c rest _ ih =>
    obtain ⟨⟨b, a⟩, hba, heq⟩ := Option.map_eq_some_iff.1 h
    simp only [Prod.mk.injEq] at heq
    obtain ⟨-, rfl⟩ := heq
    have := ih hba
    simp only [List.length_cons]
    omega
  | case3 => simp at h

/-- Puts a piece of text in front, unless it is empty. -/
def withText (chars : List Char) (segments : List Segment) : List Segment :=
  if chars.isEmpty then segments else .text chars :: segments

/-- The pieces of a string, or nothing when a reference has no end. -/
def segments? (text : List Char) : Option (List Segment) :=
  match _h : cutAtOpening text with
  | none => some (withText text [])
  | some (before, after) =>
    match _h' : Text.cutAtFirst '}' after with
    | none => none
    | some (body, rest) =>
      (segments? rest).map fun more => withText before (.body body :: more)
termination_by text.length
decreasing_by
  have h₁ := length_cutAtOpening _h
  have h₂ := congrArg List.length (Text.cutAtFirst_eq_some_iff.1 _h').1
  simp only [List.length_append, List.length_cons] at h₂
  omega

/-- What a reference refers to, with the path to the part that is meant. -/
inductive Reference where
  | step (id path : String)
  | world (path : String)
  deriving DecidableEq, Inhabited

/-- Why a template has no value. -/
inductive Error where
  /-- A reference has no end. -/
  | unterminated (text : String)
  /-- A reference refers neither to a step nor to the world. -/
  | unknownRoot (body : String)
  /-- Nothing is there. -/
  | unresolved (body : String)
  deriving DecidableEq, Inhabited

/-- What is said about it. -/
def Error.message : Error → String
  | .unterminated text => "unterminated template in `" ++ text ++ "`"
  | .unknownRoot body =>
    "template `" ++ body ++ "` must start with steps.<id> or world"
  | .unresolved body => "template `" ++ body ++ "` did not resolve"

/-- Reads a reference without the blanks around it. -/
def referenceOf? (body : List Char) : Option Reference :=
  if body = "world".toList then some (.world "")
  else
    match Text.afterStart "world.".toList body with
    | some path => some (.world (String.ofList path))
    | none =>
      match Text.afterStart "steps.".toList body with
      | none => none
      | some rest =>
        let (id, path) := (Text.cutAtFirst '.' rest).getD (rest, [])
        if id.isEmpty then none
        else some (.step (String.ofList id) (String.ofList path))

/-- Reads a reference. -/
def reference (body : List Char) : Except Error Reference :=
  let trimmed := Text.trimChars body
  match referenceOf? trimmed with
  | some r => .ok r
  | none => .error (.unknownRoot (String.ofList trimmed))

/-- The pieces of a string. -/
def segments (text : String) : Except Error (List Segment) :=
  match segments? text.toList with
  | some parts => .ok parts
  | none => .error (.unterminated text)

/-- The references among the pieces of a string. -/
def referencesIn : List Segment → Except Error (List Reference)
  | [] => .ok []
  | .text _ :: rest => referencesIn rest
  | .body chars :: rest =>
    match reference chars with
    | .error e => .error e
    | .ok r => (referencesIn rest).map (r :: ·)

mutual

/-- The references in the strings of a value, from left to right. -/
def references : Json → Except Error (List Reference)
  | .null | .bool _ | .num _ => .ok []
  | .str s => (segments s).bind referencesIn
  | .arr items => referencesItems items
  | .obj members => referencesMembers members
termination_by structural v => v

/-- The references in items. -/
def referencesItems : List Json → Except Error (List Reference)
  | [] => .ok []
  | v :: rest =>
    match references v with
    | .error e => .error e
    | .ok rs => (referencesItems rest).map (rs ++ ·)
termination_by structural v => v

/-- The references in members. -/
def referencesMembers : List (String × Json) → Except Error (List Reference)
  | [] => .ok []
  | (_, v) :: rest =>
    match references v with
    | .error e => .error e
    | .ok rs => (referencesMembers rest).map (rs ++ ·)
termination_by structural v => v

end

/-- What references can refer to: the data of steps, and the snapshot of the
world. -/
structure Scope where
  steps : KeyMap String Json
  world : Json
  deriving DecidableEq, Inhabited

/-- What a reference refers to. -/
def Scope.find? (scope : Scope) : Reference → Option Json
  | .world path => scope.world.at? path
  | .step id path => (scope.steps.get? id).bind fun data => data.at? path

/-- The value of a reference as written. -/
def lookup (scope : Scope) (body : List Char) : Except Error Json :=
  match reference body with
  | .error e => .error e
  | .ok r =>
    match scope.find? r with
    | some v => .ok v
    | none => .error (.unresolved (String.ofList body))

/-- The text that a value stands for inside a string: a string itself,
otherwise the compact form. -/
def inline : Json → List Char
  | .str s => s.toList
  | v => v.compact

/-- The text of the pieces of a string. -/
def renderParts (scope : Scope) : List Segment → Except Error (List Char)
  | [] => .ok []
  | .text chars :: rest => (renderParts scope rest).map (chars ++ ·)
  | .body chars :: rest =>
    match lookup scope chars with
    | .error e => .error e
    | .ok v => (renderParts scope rest).map (inline v ++ ·)

/-- The value of a string. -/
def resolveText (scope : Scope) (text : String) : Except Error Json :=
  match segments text with
  | .error e => .error e
  | .ok [.body chars] => lookup scope chars
  | .ok parts =>
    (renderParts scope parts).map fun chars => .str (String.ofList chars)

mutual

/-- The value with its references replaced by what they refer to. -/
def resolve (scope : Scope) : Json → Except Error Json
  | .null => .ok .null
  | .bool b => .ok (.bool b)
  | .num n => .ok (.num n)
  | .str s => resolveText scope s
  | .arr items => (resolveItems scope items).map .arr
  | .obj members => (resolveMembers scope members).map .obj
termination_by structural v => v

/-- The items with their references replaced. -/
def resolveItems (scope : Scope) : List Json → Except Error (List Json)
  | [] => .ok []
  | v :: rest =>
    match resolve scope v with
    | .error e => .error e
    | .ok w => (resolveItems scope rest).map (w :: ·)
termination_by structural v => v

/-- The members with their references replaced. -/
def resolveMembers (scope : Scope) :
    List (String × Json) → Except Error (List (String × Json))
  | [] => .ok []
  | (name, v) :: rest =>
    match resolve scope v with
    | .error e => .error e
    | .ok w => (resolveMembers scope rest).map ((name, w) :: ·)
termination_by structural v => v

end

end CallGate.Template
