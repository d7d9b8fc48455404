/-!
# Cutting text at a mark

`cutAtFirst` cuts at the first occurrence of a character, `pieces` at every
one, and `occursIn` asks whether one text stands somewhere inside another.  All
work on lists of characters; none of them interprets what it cuts.
-/

namespace CallGate.Text

/-- The text before and after the first `mark`, when there is one. -/
def cutAtFirst (mark : Char) : List Char → Option (List Char × List Char)
  | [] => none
  | c :: rest =>
    if c = mark then some ([], rest)
    else (cutAtFirst mark rest).map fun (before, after) => (c :: before, after)

/-- The texts between the occurrences of `mark`; a text without the mark is one
piece. -/
def pieces (mark : Char) : List Char → List (List Char)
  | [] => [[]]
  | c :: rest =>
    if c = mark then [] :: pieces mark rest
    else
      match pieces mark rest with
      | [] => [[c]]
      | first :: others => (c :: first) :: others

/-- The lines of a text, each of which a newline ends. -/
def lines (text : List Char) : List (List Char) := (pieces '\n' text).dropLast

/-- The rest of a text after a given beginning, when it begins so. -/
def afterStart : List Char → List Char → Option (List Char)
  | [], rest => some rest
  | _ :: _, [] => none
  | c :: start, d :: rest => if c = d then afterStart start rest else none

/-- Whether `needle` stands somewhere in the text. -/
def occursIn (needle : List Char) : List Char → Bool
  | [] => needle.isEmpty
  | c :: rest => (afterStart needle (c :: rest)).isSome || occursIn needle rest

/-- The text with the ASCII capital letters made small. -/
def asciiLower (s : String) : String :=
  String.ofList (s.toList.map Char.toLower)

theorem afterStart_eq_some_iff {start text rest : List Char} :
    afterStart start text = some rest ↔ text = start ++ rest := by
  induction start generalizing text with
  | nil => simp [afterStart, eq_comm]
  | cons c start ih =>
    cases text with
    | nil => simp [afterStart]
    | cons d text =>
      by_cases h : c = d
      · subst h; simp [afterStart, ih]
      · simp [afterStart, h, Ne.symm h]

theorem cutAtFirst_eq_some_iff {mark : Char} {text before after : List Char} :
    cutAtFirst mark text = some (before, after) ↔
      text = before ++ mark :: after ∧ mark ∉ before := by
  induction text generalizing before with
  | nil => simp [cutAtFirst]
  | cons c rest ih =>
    by_cases h : c = mark
    · subst h
      cases before with
      | nil => simp [cutAtFirst, eq_comm]
      | cons b before =>
        simp only [cutAtFirst, if_true, Option.some.injEq, Prod.mk.injEq,
          List.cons_append, List.cons.injEq, List.mem_cons, not_or,
          reduceCtorEq, false_and, false_iff, not_and]
        rintro ⟨rfl, -⟩ h
        exact absurd rfl h
    · cases before with
      | nil => simp [cutAtFirst, h]
      | cons b before =>
        simp only [cutAtFirst, h, if_false, Option.map_eq_some_iff, Prod.exists,
          Prod.mk.injEq, List.cons.injEq, List.cons_append, List.mem_cons,
          not_or]
        constructor
        · rintro ⟨x, y, hxy, ⟨rfl, rfl⟩, rfl⟩
          obtain ⟨rfl, hm⟩ := ih.1 hxy
          exact ⟨⟨rfl, rfl⟩, Ne.symm h, hm⟩
        · rintro ⟨⟨rfl, rfl⟩, -, hm⟩
          exact ⟨before, after, ih.2 ⟨rfl, hm⟩, ⟨rfl, rfl⟩, rfl⟩

theorem cutAtFirst_eq_none_iff {mark : Char} {text : List Char} :
    cutAtFirst mark text = none ↔ mark ∉ text := by
  induction text with
  | nil => simp [cutAtFirst]
  | cons c rest ih =>
    by_cases h : c = mark
    · simp [cutAtFirst, h]
    · simp [cutAtFirst, h, ih, Ne.symm h]

end CallGate.Text
