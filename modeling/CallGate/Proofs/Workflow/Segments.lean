import CallGate.Workflow.Template
import Mathlib.Data.List.Chain
import Mathlib.Data.List.Infix

/-!
# The pieces of a text

A text falls into texts and bodies of references in one way only: put together
with the marks they are the whole, a text is not empty, opens no reference and
is not next to another text, and a body ends where it can.  There are no such
pieces exactly when an opening mark behind complete pieces is not closed.
-/

namespace CallGate.Template

/-- The opening mark of a reference. -/
def opening : List Char := ['$', '{']

/-! ## Finding the marks -/

theorem cutAtOpening_eq_none_iff {text : List Char} :
    cutAtOpening text = none ↔ ¬opening <:+: text := by
  fun_induction cutAtOpening text with
  | case1 after =>
      have hopening : opening <:+: '$' :: '{' :: after :=
        List.IsPrefix.isInfix ⟨after, rfl⟩
      simp [hopening]
  | case2 c rest hne ih =>
      rw [Option.map_eq_none_iff, ih, List.infix_cons_iff, not_or]
      have hnotOpen : ¬opening <+: c :: rest := by
        rintro ⟨after, hafter⟩
        cases hafter
        exact hne after rfl rfl
      exact ⟨fun hrest => ⟨hnotOpen, hrest⟩, fun h => h.2⟩
  | case3 => simp [opening]

theorem eq_of_cutAtOpening {text before after : List Char}
    (h : cutAtOpening text = some (before, after)) :
    text = before ++ opening ++ after ∧ ¬opening <:+: before := by
  fun_induction cutAtOpening text generalizing before with
  | case1 rest =>
      cases h
      exact ⟨rfl, by simp [opening]⟩
  | case2 c rest hne ih =>
      obtain ⟨⟨front, back⟩, hcut, heq⟩ := Option.map_eq_some_iff.1 h
      cases heq
      obtain ⟨rfl, hfront⟩ := ih hcut
      refine ⟨rfl, ?_⟩
      rw [List.infix_cons_iff, not_or]
      refine ⟨?_, hfront⟩
      rintro ⟨more, hmore⟩
      cases hmore
      exact hne _ rfl rfl
  | case3 => cases h

theorem cutAtOpening_append {before after : List Char}
    (h : ¬opening <:+: before) :
    cutAtOpening (before ++ opening ++ after) = some (before, after) := by
  induction before with
  | nil => rfl
  | cons c rest ih =>
      rw [List.infix_cons_iff, not_or] at h
      have hne : ∀ more, c = '$' → rest ++ opening ++ after = '{' :: more →
          False := by
        rintro more rfl hmore
        cases rest with
        | nil => cases hmore
        | cons d rest =>
            cases hmore
            exact h.1 ⟨rest, rfl⟩
      rw [List.cons_append, List.cons_append, cutAtOpening.eq_2 _ _ hne,
        ih h.2]
      rfl

/-! ## Taking pieces off the front -/

variable {text rest before after body : List Char} {part : Segment}
  {parts more : List Segment}

theorem segments?_of_plain (h : ¬opening <:+: text) :
    segments? text = some (withText text []) := by
  rw [segments?, cutAtOpening_eq_none_iff.2 h]

theorem segments?_of_unclosed (hfirst : ¬opening <:+: before)
    (hend : '}' ∉ after) : segments? (before ++ opening ++ after) = none := by
  rw [segments?, cutAtOpening_append hfirst]
  dsimp only
  rw [Text.cutAtFirst_eq_none_iff.2 hend]

theorem segments?_of_reference (hfirst : ¬opening <:+: before)
    (hend : '}' ∉ body) :
    segments? (before ++ opening ++ (body ++ '}' :: rest)) =
    (segments? rest).map fun more => withText before (.body body :: more) := by
  rw [segments?, cutAtOpening_append hfirst]
  dsimp only
  rw [Text.cutAtFirst_eq_some_iff.2 ⟨rfl, hend⟩]

/-- How a text falls into pieces from the front.  The text before a reference
goes up to the first opening mark, and the reference up to the first closing
mark after it. -/
inductive FallsInto : List Char → List Segment → Prop where
  | plain (text : List Char) (hplain : ¬opening <:+: text) :
      FallsInto text (withText text [])
  | reference (before body rest : List Char) (more : List Segment)
      (hfirst : ¬opening <:+: before) (hend : '}' ∉ body)
      (hrest : FallsInto rest more) :
      FallsInto (before ++ opening ++ (body ++ '}' :: rest))
        (withText before (.body body :: more))

theorem segments?_of_fallsInto (h : FallsInto text parts) :
    segments? text = some parts := by
  induction h with
  | plain text hplain => exact segments?_of_plain hplain
  | reference before body rest more hfirst hend _ ih =>
      rw [segments?_of_reference hfirst hend, ih, Option.map_some]

/-- What is behind a text with a reference is behind what follows the
reference. -/
theorem reference_append (before body rest after : List Char) :
    before ++ opening ++ (body ++ '}' :: rest) ++ opening ++ after =
      before ++ opening ++ (body ++ '}' :: (rest ++ opening ++ after)) := by
  simp

/-- When what is in front of an opening mark falls into pieces and the mark is
not closed, the whole has none. -/
theorem segments?_of_fallsInto_unclosed (h : FallsInto before parts)
    (hend : '}' ∉ after) : segments? (before ++ opening ++ after) = none := by
  induction h with
  | plain before hplain => exact segments?_of_unclosed hplain hend
  | reference before body rest more hfirst hbody _ ih =>
      rw [reference_append, segments?_of_reference hfirst hbody, ih,
        Option.map_none]

/-- A text falls into pieces, or it has an opening mark that is not closed and
what is in front of that mark falls into pieces. -/
theorem exists_fallsInto (text : List Char) :
    (∃ parts, FallsInto text parts) ∨
      ∃ before parts after, FallsInto before parts ∧
        text = before ++ opening ++ after ∧ '}' ∉ after := by
  induction text using segments?.induct with
  | case1 text hcut =>
      exact Or.inl ⟨_, .plain text (cutAtOpening_eq_none_iff.1 hcut)⟩
  | case2 text before after hcut hend =>
      obtain ⟨rfl, hfirst⟩ := eq_of_cutAtOpening hcut
      exact Or.inr ⟨before, _, after, .plain before hfirst, rfl,
        Text.cutAtFirst_eq_none_iff.1 hend⟩
  | case3 text before after hcut body rest hend ih =>
      obtain ⟨rfl, hfirst⟩ := eq_of_cutAtOpening hcut
      obtain ⟨rfl, hbody⟩ := Text.cutAtFirst_eq_some_iff.1 hend
      rcases ih with ⟨more, hmore⟩ | ⟨front, more, after, hmore, rfl, hafter⟩
      · exact Or.inl ⟨_, .reference before body rest more hfirst hbody hmore⟩
      · exact Or.inr ⟨_, _, after,
          .reference before body front more hfirst hbody hmore,
          (reference_append before body front after).symm, hafter⟩

theorem segments?_eq_some_iff_fallsInto :
    segments? text = some parts ↔ FallsInto text parts := by
  refine ⟨fun h => ?_, segments?_of_fallsInto⟩
  rcases exists_fallsInto text with
    ⟨others, hothers⟩ | ⟨before, front, after, hfront, rfl, hafter⟩
  · rw [segments?_of_fallsInto hothers] at h
    cases h
    exact hothers
  · rw [segments?_of_fallsInto_unclosed hfront hafter] at h
    cases h

/-! ## The only pieces -/

namespace Segment

/-- What stands in a text for a piece of it. -/
def written : Segment → List Char
  | .text chars => chars
  | .body chars => opening ++ (chars ++ ['}'])

def isText : Segment → Bool
  | .text _ => true
  | .body _ => false

/-- A text that is there and opens no reference, or a body without the mark
that would end it. -/
def Tidy : Segment → Prop
  | .text chars => chars ≠ [] ∧ ¬opening <:+: chars
  | .body chars => '}' ∉ chars

end Segment

/-- The pieces of a text.  Put together they are the text, and of two
neighbours one is a reference. -/
structure IsSplit (text : List Char) (parts : List Segment) : Prop where
  lossless : parts.flatMap Segment.written = text
  tidy : ∀ part ∈ parts, part.Tidy
  apart : parts.IsChain fun a b => a.isText = false ∨ b.isText = false

theorem isSplit_nil_iff : IsSplit text [] ↔ text = [] :=
  ⟨fun h => h.lossless.symm, fun h => ⟨h.symm, nofun, .nil⟩⟩

theorem isSplit_cons_iff :
    IsSplit text (part :: more) ↔ part.Tidy ∧
      (∀ next ∈ more.head?, part.isText = false ∨ next.isText = false) ∧
      ∃ rest, text = part.written ++ rest ∧ IsSplit rest more := by
  constructor
  · rintro ⟨rfl, htidy, hapart⟩
    obtain ⟨hpart, hmore⟩ := List.forall_mem_cons.1 htidy
    obtain ⟨hnext, hchain⟩ := List.isChain_cons.1 hapart
    exact ⟨hpart, hnext, _, rfl, rfl, hmore, hchain⟩
  · rintro ⟨hpart, hnext, rest, rfl, rfl, hmore, hchain⟩
    exact ⟨rfl, List.forall_mem_cons.2 ⟨hpart, hmore⟩,
      List.isChain_cons.2 ⟨hnext, hchain⟩⟩

theorem IsSplit.reference {body : List Char} (hend : '}' ∉ body)
    (h : IsSplit rest more) :
    IsSplit (opening ++ (body ++ '}' :: rest)) (.body body :: more) := by
  refine isSplit_cons_iff.2 ⟨hend, fun _ _ => Or.inl rfl, rest, ?_, h⟩
  simp [Segment.written]

/-- Text without an opening mark can be put in front of what begins with a
reference or is empty. -/
theorem IsSplit.withText {before : List Char} (hfirst : ¬opening <:+: before)
    (hnext : ∀ next ∈ more.head?, next.isText = false) (h : IsSplit rest more) :
    IsSplit (before ++ rest) (withText before more) := by
  rw [Template.withText]
  split
  · rename_i hempty
    rw [List.isEmpty_iff.1 hempty]
    exact h
  · rename_i hempty
    refine isSplit_cons_iff.2 ⟨⟨mt List.isEmpty_iff.2 hempty, hfirst⟩, ?_,
      rest, rfl, h⟩
    exact fun next hmem => Or.inr (hnext next hmem)

theorem FallsInto.isSplit (h : FallsInto text parts) : IsSplit text parts := by
  induction h with
  | plain text hplain =>
      have hnil := (isSplit_nil_iff.2 rfl).withText hplain (by simp)
      rwa [List.append_nil] at hnil
  | reference before body rest more hfirst hend _ ih =>
      rw [List.append_assoc]
      refine (ih.reference hend).withText hfirst ?_
      rintro next ⟨⟩
      rfl

theorem IsSplit.fallsInto : {parts : List Segment} → {text : List Char} →
    IsSplit text parts → FallsInto text parts
  | [], _, h => by
      cases isSplit_nil_iff.1 h
      exact .plain [] (by simp [opening])
  | .body body :: more, _, h => by
      obtain ⟨hend, -, rest, rfl, hrest⟩ := isSplit_cons_iff.1 h
      have hfalls := FallsInto.reference [] body rest more
        (by simp [opening]) hend hrest.fallsInto
      simpa [Template.withText, Segment.written] using hfalls
  | [.text chars], _, h => by
      obtain ⟨⟨hne, hplain⟩, -, rest, rfl, hrest⟩ := isSplit_cons_iff.1 h
      cases isSplit_nil_iff.1 hrest
      have hfalls := FallsInto.plain chars hplain
      simpa [Template.withText, hne, Segment.written] using hfalls
  | .text chars :: .body body :: more, _, h => by
      obtain ⟨⟨hne, hplain⟩, -, _, rfl, hbody⟩ := isSplit_cons_iff.1 h
      obtain ⟨hend, -, rest, rfl, hrest⟩ := isSplit_cons_iff.1 hbody
      have hfalls := FallsInto.reference chars body rest more hplain hend
        hrest.fallsInto
      simpa [Template.withText, hne, Segment.written] using hfalls
  | .text _ :: .text _ :: _, _, h => by
      obtain ⟨-, hnext, -⟩ := isSplit_cons_iff.1 h
      rcases hnext _ rfl with hfalse | hfalse <;> cases hfalse

theorem isSplit_iff_fallsInto : IsSplit text parts ↔ FallsInto text parts :=
  ⟨IsSplit.fallsInto, FallsInto.isSplit⟩

/-- Of two dollar signs the first is text, and so is the second of two closing
marks. -/
theorem segments?_eq_some_iff :
    segments? text = some parts ↔ IsSplit text parts :=
  segments?_eq_some_iff_fallsInto.trans isSplit_iff_fallsInto.symm

example : segments? ['$', '$', '{', 'a', '{', '}', '}'] =
    some [.text ['$'], .body ['a', '{'], .text ['}']] := by cbv

/-- Behind complete pieces there is an opening mark, and nothing closes it. -/
def LeftOpen (text : List Char) : Prop :=
  ∃ before parts after, IsSplit before parts ∧
    text = before ++ opening ++ after ∧ '}' ∉ after

theorem segments?_eq_none_iff : segments? text = none ↔ LeftOpen text := by
  simp only [LeftOpen, isSplit_iff_fallsInto]
  constructor
  · intro h
    refine (exists_fallsInto text).resolve_left ?_
    rintro ⟨parts, hparts⟩
    rw [segments?_of_fallsInto hparts] at h
    cases h
  · rintro ⟨before, parts, after, hparts, rfl, hafter⟩
    exact segments?_of_fallsInto_unclosed hparts hafter

end CallGate.Template
