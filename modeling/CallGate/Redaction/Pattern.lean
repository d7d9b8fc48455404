import CallGate.Text.Word

/-!
# Patterns of text

Patterns for short pieces of text, and the search for them.  A place in a text
is given by what stands before it, in reverse, and what stands after it.  Of
the ways in which a pattern can match at a place the first one counts: the left
alternative before the right one, the longer repetition before the shorter one.
Matches are looked for from left to right and do not overlap.
-/

namespace CallGate.Redaction

/-- A place in a text: the text before it in reverse, and the text after it. -/
structure Place where
  before : List Char
  after : List Char
  deriving DecidableEq, Inhabited

/-- The beginning of a text. -/
def Place.start (text : List Char) : Place := ⟨[], text⟩

/-- Whether a word starts or ends at a place. -/
def Place.isBoundary (p : Place) : Bool :=
  (p.before.head?.any Text.isWordChar) != (p.after.head?.any Text.isWordChar)

/-- A pattern. -/
inductive Pattern where
  /-- A place where a word starts or ends. -/
  | boundary
  /-- At least `least` characters of a kind, as many as possible. -/
  | many (kind : Char → Bool) (least : Nat)
  /-- A number of characters of a kind. -/
  | exactly (kind : Char → Bool) (count : Nat)
  /-- The one or else the other. -/
  | either (first second : Pattern)
  /-- The one and then the other. -/
  | andThen (first second : Pattern)

namespace Pattern

/-- The empty text. -/
def nothing : Pattern := exactly (fun _ => false) 0

/-- One character of a kind. -/
def one (kind : Char → Bool) : Pattern := exactly kind 1

/-- The pattern, if possible. -/
def maybe (p : Pattern) : Pattern := either p nothing

/-- One pattern after the other. -/
def inOrder (ps : List Pattern) : Pattern := ps.foldr andThen nothing

/-- The first of the patterns that works. -/
def firstOf (p : Pattern) (ps : List Pattern) : Pattern :=
  match ps with
  | [] => p
  | q :: rest => either p (firstOf q rest)

/-- Goes over as many characters of a kind as there are, and counts them. -/
def climb (kind : Char → Bool) (count : Nat) (before : List Char) :
    List Char → Nat × Place
  | [] => (count, ⟨before, []⟩)
  | c :: after =>
    if kind c then climb kind (count + 1) (c :: before) after
    else (count, ⟨before, c :: after⟩)

/-- Goes over a number of characters of a kind. -/
def skip? (kind : Char → Bool) : Nat → Place → Option Place
  | 0, p => some p
  | n + 1, p =>
    match p.after with
    | [] => none
    | c :: after => if kind c then skip? kind n ⟨c :: p.before, after⟩ else none

/-- One place back. -/
def stepBack (p : Place) : Place :=
  match p.before with
  | [] => p
  | c :: before => ⟨before, c :: p.after⟩

/-- Tries a place, then the place before it, and so on for a number of
places. -/
def backOff (go : Place → Option Place) : Nat → Place → Option Place
  | 0, p => go p
  | n + 1, p =>
    match go p with
    | some q => some q
    | none => backOff go n (stepBack p)

/-- Matches at a place and goes on from the end of the match; when going on
fails, the next way of matching is tried. -/
def matchThen : Pattern → Place → (Place → Option Place) → Option Place
  | .boundary, p, go => if p.isBoundary then go p else none
  | .many kind least, p, go =>
    let (count, q) := climb kind 0 p.before p.after
    if count < least then none else backOff go (count - least) q
  | .exactly kind count, p, go =>
    match skip? kind count p with
    | some q => go q
    | none => none
  | .either first second, p, go =>
    match matchThen first p go with
    | some q => some q
    | none => matchThen second p go
  | .andThen first second, p, go =>
    matchThen first p fun q => matchThen second q go

/-- The end of the match at a place. -/
def matchAt? (pattern : Pattern) (p : Place) : Option Place :=
  matchThen pattern p some

/-- The end of the match at a place, when the match is not empty. -/
def matchEnd? (pattern : Pattern) (p : Place) : Option Place :=
  (matchAt? pattern p).filter fun q => q.after.length < p.after.length

/-- The rest of a text with each match replaced, after what is done already in
reverse. -/
def replaceFrom (pattern : Pattern) (mark : List Char) (done : List Char)
    (p : Place) : List Char :=
  match _h : p.after with
  | [] => done.reverse
  | c :: after =>
    match _hq : matchEnd? pattern p with
    | some q => replaceFrom pattern mark (mark.reverse ++ done) q
    | none => replaceFrom pattern mark (c :: done) ⟨c :: p.before, after⟩
termination_by p.after.length
decreasing_by
  · simpa using (Option.filter_eq_some_iff.1 _hq).2
  · simp [_h]

/-- The text with each match replaced by a mark. -/
def replaceAll (pattern : Pattern) (mark : List Char) (text : List Char) :
    List Char :=
  replaceFrom pattern mark [] (.start text)

end Pattern

end CallGate.Redaction
