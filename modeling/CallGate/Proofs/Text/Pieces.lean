import CallGate.Text.Blank
import CallGate.Text.Split
import Mathlib.Data.List.Basic

/-!
# Pieces of padded texts

What stands before a text and behind it, and has no mark in it, becomes part of
the first and of the last piece of the text and leaves the others alone.
Trimming takes away what stands there and is blank.
-/

namespace CallGate.Text

variable {mark : Char} {cs front text back : List Char}

/-- What trimming drops stands around what it leaves. -/
theorem exists_around_trimChars (cs : List Char) :
    ∃ front back, cs = front ++ (trimChars cs ++ back) ∧
      (∀ c ∈ front, isBlank c = true) ∧ ∀ c ∈ back, isBlank c = true := by
  have hblank (text : List Char) :
      ∀ c ∈ text.takeWhile isBlank, isBlank c = true :=
    List.all_eq_true.1 List.all_takeWhile
  have hleft (text : List Char) :
      text = text.takeWhile isBlank ++ trimLeft text :=
    List.takeWhile_append_dropWhile.symm
  refine ⟨cs.takeWhile isBlank,
    ((trimLeft cs).reverse.takeWhile isBlank).reverse, ?_, hblank cs, ?_⟩
  · rw [trimChars, ← List.reverse_append, ← hleft, List.reverse_reverse]
    exact hleft cs
  · intro c hc
    exact hblank _ c (List.mem_reverse.1 hc)

theorem pieces_cons_mark (mark : Char) (rest : List Char) :
    pieces mark (mark :: rest) = [] :: pieces mark rest := by
  rw [pieces, if_pos rfl]

theorem pieces_cons_of_ne {c : Char} (hc : c ≠ mark) {first : List Char}
    {others : List (List Char)} {rest : List Char}
    (h : pieces mark rest = first :: others) :
    pieces mark (c :: rest) = (c :: first) :: others := by
  rw [pieces, if_neg hc, h]

/-- What stands before a text is part of its first piece. -/
theorem exists_pieces_append_left (hfront : mark ∉ front)
    (text : List Char) :
    ∃ first others, pieces mark text = first :: others ∧
      pieces mark (front ++ text) = (front ++ first) :: others := by
  have hpieces : ∃ first others, pieces mark text = first :: others := by
    cases text with
    | nil => exact ⟨[], [], rfl⟩
    | cons c rest =>
        rw [pieces]
        split
        · exact ⟨_, _, rfl⟩
        · split <;> exact ⟨_, _, rfl⟩
  obtain ⟨first, others, htext⟩ := hpieces
  refine ⟨first, others, htext, ?_⟩
  induction front with
  | nil => exact htext
  | cons c rest ih =>
      rw [List.mem_cons, not_or] at hfront
      exact pieces_cons_of_ne (Ne.symm hfront.1) (ih hfront.2)

/-- What stands behind a text is part of its last piece. -/
theorem exists_pieces_append_right (hback : mark ∉ back)
    (text : List Char) :
    ∃ init last, pieces mark text = init ++ [last] ∧
      pieces mark (text ++ back) = init ++ [last ++ back] := by
  induction text with
  | nil =>
      obtain ⟨first, others, hnil, hfront⟩ :=
        exists_pieces_append_left hback []
      cases hnil
      rw [List.append_nil] at hfront
      exact ⟨[], [], rfl, hfront⟩
  | cons c rest ih =>
      obtain ⟨init, last, hrest, hpadded⟩ := ih
      by_cases hc : c = mark
      · subst hc
        refine ⟨[] :: init, last, ?_, ?_⟩
        · rw [pieces_cons_mark, hrest, List.cons_append]
        · rw [List.cons_append, pieces_cons_mark, hpadded, List.cons_append]
      · cases init with
        | nil =>
            exact ⟨[], c :: last, pieces_cons_of_ne hc hrest,
              pieces_cons_of_ne hc hpadded⟩
        | cons first init =>
            exact ⟨(c :: first) :: init, last, pieces_cons_of_ne hc hrest,
              pieces_cons_of_ne hc hpadded⟩

/-- The pieces of a text and those of the text with something around it. -/
inductive Padded (front back : List Char) :
    List (List Char) → List (List Char) → Prop where
  | single (piece : List Char) :
      Padded front back [piece] [front ++ (piece ++ back)]
  | several (first : List Char) (middle : List (List Char))
      (last : List Char) :
      Padded front back (first :: (middle ++ [last]))
        ((front ++ first) :: (middle ++ [last ++ back]))

theorem padded_pieces (hfront : mark ∉ front) (hback : mark ∉ back)
    (text : List Char) :
    Padded front back (pieces mark text)
      (pieces mark (front ++ (text ++ back))) := by
  obtain ⟨init, last, htext, hright⟩ := exists_pieces_append_right hback text
  obtain ⟨first, others, hleft, hboth⟩ :=
    exists_pieces_append_left hfront (text ++ back)
  rw [htext, hboth]
  rw [hright] at hleft
  cases init with
  | nil =>
      cases hleft
      exact .single last
  | cons first middle =>
      cases hleft
      exact .several _ middle last

end CallGate.Text
