import CallGate.Proofs.Text.Marks
import CallGate.Proofs.Workflow.Segments

/-!
# Cutting a string at offsets

The pieces of a string are found by a loop over its bytes that looks for the
marks and cuts at their offsets.  The loop ends, and what it cuts off are the
bytes of the only pieces that the string has; when it gives up, an opening mark
behind complete pieces is not closed.
-/

namespace CallGate.Template

/-- Bytes that are cut off, and whether they stood between the marks of a
reference. -/
abbrev Slice := Bool × List UInt8

/-- The bytes of a piece. -/
def Segment.slice : Segment → Slice
  | .text chars => (false, Text.utf8 chars)
  | .body chars => (true, Text.utf8 chars)

/-- A loop under way: what is cut off so far, and the bytes that are left. -/
structure Loop where
  found : List Slice
  left : List UInt8

namespace Loop

/-- What a pass of the loop comes to. -/
inductive Pass where
  /-- No reference is opened any more. -/
  | finished
  /-- A reference is opened and not closed. -/
  | unclosed
  /-- A reference is cut off, and the loop goes on. -/
  | next (l : Loop)

def pass (l : Loop) : Pass :=
  match Text.find? (Text.utf8 opening) l.left with
  | none => .finished
  | some start =>
    let after := l.left.drop (start + 2)
    match Text.find? (Text.utf8 ['}']) after with
    | none => .unclosed
    | some stop =>
      let text := if 0 < start then [(false, l.left.take start)] else []
      .next ⟨l.found ++ text ++ [(true, after.take stop)],
        after.drop (stop + 1)⟩

/-- What the loop ends with: the slices, with the bytes left at last unless
there are none, or nothing when a reference is not closed. -/
inductive Yields : Loop → Option (List Slice) → Prop where
  | finished (l : Loop) (h : l.pass = .finished) :
      Yields l (some (l.found ++
        if l.left.isEmpty then [] else [(false, l.left)]))
  | unclosed (l : Loop) (h : l.pass = .unclosed) : Yields l none
  | next (l l' : Loop) (slices : Option (List Slice))
      (h : l.pass = .next l') (hrest : Yields l' slices) : Yields l slices

variable {l : Loop} {found : List Slice}
  {text rest before after body : List Char} {parts : List Segment}

theorem Yields.unique {slices slices' : Option (List Slice)}
    (h : Yields l slices) (h' : Yields l slices') : slices = slices' := by
  induction h with
  | finished l hpass => cases h' <;> simp_all
  | unclosed l hpass => cases h' <;> simp_all
  | next l l' slices hpass _ ih =>
      cases h' with
      | finished _ hpass' => simp [hpass] at hpass'
      | unclosed _ hpass' => simp [hpass] at hpass'
      | next _ _ _ hpass' hrest' =>
          rw [hpass, Pass.next.injEq] at hpass'
          subst hpass'
          exact ih hrest'

theorem find?_opening (text : List Char) :
    Text.find? opening text = (cutAtOpening text).map (·.1.length) := by
  induction text using cutAtOpening.induct with
  | case1 after =>
      exact Text.find?_of_begins ⟨after, rfl⟩
  | case2 c rest hne ih =>
      have hbegins : ¬opening <+: c :: rest := by
        rintro ⟨after, hafter⟩
        cases hafter
        exact hne after rfl rfl
      rw [Text.find?_cons_of_not_begins hbegins, ih,
        cutAtOpening.eq_2 _ _ hne, Option.map_map, Option.map_map]
      rfl
  | case3 => rfl

theorem find?_singleton (mark : Char) (text : List Char) :
    Text.find? [mark] text = (Text.cutAtFirst mark text).map (·.1.length) := by
  induction text with
  | nil => rfl
  | cons c rest ih =>
      rw [Text.cutAtFirst]
      split
      · rename_i hc
        subst hc
        exact Text.find?_of_begins ⟨rest, rfl⟩
      · rename_i hc
        have hbegins : ¬[mark] <+: c :: rest := by
          rw [List.cons_prefix_cons]
          exact fun h => hc h.1.symm
        rw [Text.find?_cons_of_not_begins hbegins, ih, Option.map_map,
          Option.map_map]
        rfl

/-- The opening mark is found among the bytes behind those of the text before
it. -/
theorem find?_utf8_opening (text : List Char) :
    Text.find? (Text.utf8 opening) (Text.utf8 text) =
      (cutAtOpening text).map fun cut =>
        (Text.utf8 (text.take cut.1.length)).length := by
  have hascii : ∀ c ∈ opening, Text.IsAscii c := by
    intro c hc
    rcases List.mem_pair.1 hc with rfl | rfl <;> decide
  rw [Text.find?_utf8 (by decide) hascii, find?_opening, Option.map_map]
  rfl

theorem find?_utf8_closing (text : List Char) :
    Text.find? (Text.utf8 ['}']) (Text.utf8 text) =
      (Text.cutAtFirst '}' text).map fun cut =>
        (Text.utf8 (text.take cut.1.length)).length := by
  have hascii : ∀ c ∈ ['}'], Text.IsAscii c := by
    intro c hc
    rw [List.mem_singleton.1 hc]
    decide
  rw [Text.find?_utf8 (by decide) hascii, find?_singleton, Option.map_map]
  rfl

theorem find?_utf8_opening_of_append (hfirst : ¬opening <:+: before) :
    Text.find? (Text.utf8 opening)
      (Text.utf8 (before ++ opening ++ after)) =
        some (Text.utf8 before).length := by
  rw [find?_utf8_opening, cutAtOpening_append hfirst, Option.map_some,
    List.append_assoc, List.take_left]

theorem find?_utf8_closing_of_append (hend : '}' ∉ body) :
    Text.find? (Text.utf8 ['}']) (Text.utf8 (body ++ '}' :: rest)) =
      some (Text.utf8 body).length := by
  rw [find?_utf8_closing, Text.cutAtFirst_eq_some_iff.2 ⟨rfl, hend⟩,
    Option.map_some, List.take_left]

theorem drop_opening (before after : List Char) :
    (Text.utf8 (before ++ opening ++ after)).drop
      ((Text.utf8 before).length + 2) = Text.utf8 after := by
  have hdrop := Text.drop_utf8 (before ++ opening) after
  rwa [Text.utf8_append before, List.length_append] at hdrop

theorem drop_closing (body rest : List Char) :
    (Text.utf8 (body ++ '}' :: rest)).drop ((Text.utf8 body).length + 1) =
      Text.utf8 rest := by
  have hdrop := Text.drop_utf8 (body ++ ['}']) rest
  rwa [Text.utf8_append body, List.length_append, List.append_assoc] at hdrop

theorem slices_withText (before : List Char) (parts : List Segment) :
    (withText before parts).map Segment.slice =
      (if (Text.utf8 before).isEmpty then []
        else [(false, Text.utf8 before)]) ++ parts.map Segment.slice := by
  rw [withText]
  by_cases hbefore : before = []
  · simp [hbefore]
  · simp [hbefore, Text.utf8_eq_nil_iff, Segment.slice]

theorem pass_of_plain (h : ¬opening <:+: text) :
    (Loop.mk found (Text.utf8 text)).pass = .finished := by
  rw [pass, find?_utf8_opening, cutAtOpening_eq_none_iff.2 h]
  rfl

theorem pass_of_unclosed (hfirst : ¬opening <:+: before) (hend : '}' ∉ after) :
    (Loop.mk found (Text.utf8 (before ++ opening ++ after))).pass =
      .unclosed := by
  rw [pass, find?_utf8_opening_of_append hfirst]
  dsimp only
  rw [drop_opening, find?_utf8_closing, Text.cutAtFirst_eq_none_iff.2 hend]
  rfl

theorem pass_of_reference (hfirst : ¬opening <:+: before) (hend : '}' ∉ body) :
    (Loop.mk found (Text.utf8
        (before ++ opening ++ (body ++ '}' :: rest)))).pass =
      .next ⟨found ++ (withText before [.body body]).map Segment.slice,
        Text.utf8 rest⟩ := by
  have hbefore := Text.take_utf8 before (opening ++ (body ++ '}' :: rest))
  rw [← List.append_assoc] at hbefore
  have hpieces : (withText before [.body body]).map Segment.slice =
      (if 0 < (Text.utf8 before).length then [(false, Text.utf8 before)]
        else []) ++ [(true, Text.utf8 body)] := by
    rw [slices_withText]
    cases Text.utf8 before <;> rfl
  rw [pass, find?_utf8_opening_of_append hfirst]
  dsimp only
  rw [drop_opening, find?_utf8_closing_of_append hend]
  dsimp only
  rw [drop_closing, hbefore, Text.take_utf8, hpieces, List.append_assoc]

/-- The loop ends with the slices of the pieces, behind what was found
before. -/
theorem yields_of_fallsInto (h : FallsInto text parts) (found : List Slice) :
    (Loop.mk found (Text.utf8 text)).Yields
      (some (found ++ parts.map Segment.slice)) := by
  induction h generalizing found with
  | plain text hplain =>
      have hfinished := Yields.finished ⟨found, Text.utf8 text⟩
        (pass_of_plain hplain)
      rwa [slices_withText, List.map_nil, List.append_nil]
  | reference before body rest more hfirst hend _ ih =>
      refine .next _ _ _ (pass_of_reference hfirst hend) ?_
      have hrest := ih
        (found ++ (withText before [.body body]).map Segment.slice)
      simpa [slices_withText] using hrest

theorem yields_of_unclosed (h : FallsInto before parts) (hend : '}' ∉ after)
    (found : List Slice) :
    (Loop.mk found (Text.utf8 (before ++ opening ++ after))).Yields none := by
  induction h generalizing found with
  | plain before hplain => exact .unclosed _ (pass_of_unclosed hplain hend)
  | reference before body rest more hfirst hbody _ ih =>
      rw [reference_append]
      exact .next _ _ _ (pass_of_reference hfirst hbody) (ih _)

/-- The loop ends with the slices of the pieces, or with nothing when there
are none. -/
theorem yields_segments? (text : List Char) :
    (Loop.mk [] (Text.utf8 text)).Yields
      ((segments? text).map fun parts => parts.map Segment.slice) := by
  rcases exists_fallsInto text with
    ⟨parts, hparts⟩ | ⟨before, parts, after, hparts, rfl, hafter⟩
  · rw [segments?_of_fallsInto hparts]
    exact yields_of_fallsInto hparts []
  · rw [segments?_of_fallsInto_unclosed hparts hafter]
    exact yields_of_unclosed hparts hafter []

end Loop

/-! ## Cutting a string -/

/-- What becomes of a string that is cut into pieces. -/
structure CutsExactly (text : String) : Prop where
  /-- The loop over its bytes ends, and it ends with the pieces. -/
  yields_iff : ∀ slices, (Loop.mk [] (Text.bytes text)).Yields slices ↔
    slices = (segments text).toOption.map fun parts => parts.map Segment.slice
  pieces_iff : ∀ parts, segments text = .ok parts ↔ IsSplit text.toList parts
  unterminated_iff : ∀ e, segments text = .error e ↔
    e = .unterminated text ∧ LeftOpen text.toList

theorem toOption_segments (text : String) :
    (segments text).toOption = segments? text.toList := by
  rw [segments]
  cases segments? text.toList <;> rfl

/-- A string is cut into its pieces, and it has no others.  It is refused
exactly when an opening mark behind complete pieces is not closed. -/
theorem pieces_lossless_and_maximal (text : String) : CutsExactly text := by
  constructor
  · intro slices
    have hyields := Loop.yields_segments? text.toList
    rw [toOption_segments]
    constructor
    · exact fun h => h.unique hyields
    · rintro rfl
      exact hyields
  · intro parts
    rw [← segments?_eq_some_iff, segments]
    cases segments? text.toList <;> simp
  · intro e
    rw [← segments?_eq_none_iff, segments]
    cases segments? text.toList with
    | none => exact ⟨fun h => ⟨(Except.error.inj h).symm, rfl⟩,
        fun h => congrArg _ h.1.symm⟩
    | some parts => simp

end CallGate.Template
