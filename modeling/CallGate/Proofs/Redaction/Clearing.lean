import CallGate.Proofs.Redaction.Matching

/-!
# Texts with marks in place of matches

A pattern is guarded if its matches begin and end where words do, end in a word
and have no brackets in them.  If the matches of one guarded pattern are
replaced by a mark in brackets, then no match of a guarded pattern comes up
that was not there before, and none of the pattern itself is left.
-/

namespace CallGate.Redaction

namespace Pattern

/-- The matches of a pattern begin where a word begins or ends, end with the end
of a word, and have no brackets in them. -/
structure Guarded (pattern : Pattern) : Prop where
  starts {before stretch after : List Char}
    (h : pattern.Matches before stretch after) :
    wordFirst before ≠ wordFirst (stretch ++ after)
  ends {before stretch after : List Char}
    (h : pattern.Matches before stretch after) :
    wordFirst stretch.reverse = true
  stops {before stretch after : List Char}
    (h : pattern.Matches before stretch after) : wordFirst after = false
  avoids_opening : pattern.avoids '[' = true
  avoids_closing : pattern.avoids ']' = true

/-- A text in brackets. -/
def Bracketed (mark : List Char) : Prop :=
  mark.head? = some '[' ∧ mark.getLast? = some ']'

instance (mark : List Char) : Decidable (Bracketed mark) :=
  inferInstanceAs (Decidable (_ ∧ _))

/-- After the one text, in reverse, the next is gone over from left to right,
and the last is what comes of it: a character stays if the pattern does not
match where it stands, and a mark takes the place of a match. -/
inductive Replaced (pattern : Pattern) (mark : List Char) :
    List Char → List Char → List Char → Prop
  | nil (before : List Char) : Replaced pattern mark before [] []
  | keep {before text result : List Char} {c : Char}
    (hnone : ∀ stretch after, c :: text = stretch ++ after →
      ¬pattern.Matches before stretch after)
    (h : Replaced pattern mark (c :: before) text result) :
    Replaced pattern mark before (c :: text) (c :: result)
  | swap {before stretch after result : List Char}
    (hm : pattern.Matches before stretch after)
    (h : Replaced pattern mark (stretch.reverse ++ before) after result) :
    Replaced pattern mark before (stretch ++ after) (mark ++ result)

variable {pattern other : Pattern}
  {mark before before' stretch after after' text result : List Char}

theorem Guarded.ne_nil (hguarded : pattern.Guarded)
    (hm : pattern.Matches before stretch after) : stretch ≠ [] := by
  rintro rfl
  cases hguarded.ends hm

theorem Bracketed.wordFirst_append (hmark : Bracketed mark)
    (text : List Char) : wordFirst (mark ++ text) = false := by
  rw [wordFirst, List.head?_append, hmark.1]
  exact (by decide : Text.isWordChar '[' = false)

theorem Bracketed.wordFirst_reverse_append (hmark : Bracketed mark)
    (before : List Char) : wordFirst (mark.reverse ++ before) = false := by
  rw [wordFirst, List.head?_append, List.head?_reverse, hmark.2]
  exact (by decide : Text.isWordChar ']' = false)

/-! ## Going over a text -/

/-- What replacing makes of the rest of a text. -/
theorem exists_replaced (hguarded : pattern.Guarded) (mark done : List Char)
    (p : Place) : ∃ result, Replaced pattern mark p.before p.after result ∧
      replaceFrom pattern mark done p = done.reverse ++ result := by
  fun_induction replaceFrom pattern mark done p with
  | case1 done p hafter =>
      rw [hafter]
      exact ⟨[], .nil _, (List.append_nil _).symm⟩
  | case2 done p c rest hafter q hq ih =>
      obtain ⟨result, hresult, heq⟩ := ih
      obtain ⟨stretch, after, htext, hm, rfl⟩ :=
        matches_of_matchAt?_eq_some (Option.filter_eq_some_iff.1 hq).1
      refine ⟨mark ++ result, ?_, ?_⟩
      · rw [htext]
        exact .swap hm hresult
      · rw [List.unattach_reverse, List.unattach_attach] at heq
        rw [heq, List.reverse_append, List.reverse_reverse, List.append_assoc]
  | case3 done p c rest hafter hq ih =>
      obtain ⟨result, hresult, heq⟩ := ih
      refine ⟨c :: result, ?_, ?_⟩
      · rw [hafter]
        refine .keep (fun stretch after htext hm => ?_) hresult
        have hfound : matchAt? pattern p ≠ none := by
          intro hnone
          exact matchAt?_eq_none_iff.1 hnone stretch after
            (hafter.trans htext) hm
        obtain ⟨q, hat⟩ := Option.ne_none_iff_exists'.1 hfound
        obtain ⟨stretch', after', htext', hm', rfl⟩ :=
          matches_of_matchAt?_eq_some hat
        rw [matchEnd?, hat, Option.filter_some, if_pos] at hq
        · cases hq
        · have hpos := List.length_pos_iff.2 (hguarded.ne_nil hm')
          rw [htext', List.length_append, decide_eq_true_eq]
          exact Nat.lt_add_of_pos_left hpos
      · rw [heq, List.reverse_cons, List.append_assoc]
        rfl

theorem replaced_replaceAll (hguarded : pattern.Guarded)
    (mark text : List Char) :
    Replaced pattern mark [] text (pattern.replaceAll mark text) := by
  obtain ⟨result, hresult, heq⟩ :=
    exists_replaced hguarded mark [] (.start text)
  rw [replaceAll, heq]
  exact hresult

/-- Nothing is replaced in a text in which the pattern does not occur. -/
theorem Replaced.eq_of_forall_not (h : Replaced pattern mark before text result)
    (hnone : ∀ start stretch after, text = start ++ (stretch ++ after) →
      ¬pattern.Matches (start.reverse ++ before) stretch after) :
    result = text := by
  induction h with
  | nil before => rfl
  | @keep before text result c _ h ih =>
      rw [ih]
      intro start stretch after htext hm
      refine hnone (c :: start) stretch after (congrArg (c :: ·) htext) ?_
      rw [List.reverse_cons, List.append_assoc]
      exact hm
  | swap hm h ih => exact absurd hm (hnone [] _ _ rfl)

/-- A stretch of the result without brackets stands in the text as well, if it
ends in a word, and it ends at the end of a word here if it does there. -/
theorem Replaced.exists_of_append (hguarded : pattern.Guarded)
    (hmark : Bracketed mark)
    (h : Replaced pattern mark before text (stretch ++ after))
    (hopening : '[' ∉ stretch)
    (hends : wordFirst (stretch.reverse ++ before) = true) :
    ∃ rest, text = stretch ++ rest ∧ wordFirst rest = wordFirst after := by
  induction stretch generalizing before text with
  | nil =>
      refine ⟨text, rfl, ?_⟩
      rw [List.nil_append] at h
      cases h with
      | nil => rfl
      | keep _ h => rfl
      | swap hm h =>
          have hstarts := hguarded.starts hm
          rw [show wordFirst before = true from hends] at hstarts
          rw [hmark.wordFirst_append]
          exact Bool.eq_false_iff.2 hstarts.symm
  | cons c stretch ih =>
      obtain ⟨hc, hopening⟩ := not_or.1 (mt List.mem_cons.2 hopening)
      generalize hresult : c :: stretch ++ after = result at h
      cases h with
      | nil => cases hresult
      | keep _ h =>
          obtain ⟨rfl, rfl⟩ := List.cons.inj hresult
          rw [List.reverse_cons, List.append_assoc] at hends
          obtain ⟨rest, rfl, hrest⟩ := ih h hopening hends
          exact ⟨rest, rfl, hrest⟩
      | swap hm h =>
          have hhead : some c = (mark ++ _).head? :=
            congrArg List.head? hresult
          rw [List.head?_append, hmark.1] at hhead
          exact absurd (Option.some.inj hhead).symm hc

/-- What is split off from two texts in a row begins after the first of them or
in it. -/
theorem split_of_append_eq {start whole : List Char}
    (h : mark ++ result = start ++ whole) :
    (∃ tail, start = mark ++ tail ∧ result = tail ++ whole) ∨
      ∃ tail, tail ≠ [] ∧ mark = start ++ tail ∧ whole = tail ++ result := by
  rcases List.append_eq_append_iff.1 h with hlater | ⟨tail, hsplit, heq⟩
  · exact .inl hlater
  · by_cases htail : tail = []
    · subst htail
      exact .inl
        ⟨[], by rw [hsplit, List.append_nil, List.append_nil], heq.symm⟩
    · exact .inr ⟨tail, htail, hsplit, heq⟩

/-- A match that begins in a mark lies in the mark. -/
theorem occursIn_of_append_eq (hother : other.Guarded) (hmark : Bracketed mark)
    {start tail : List Char} (hsplit : mark = start ++ tail) (htail : tail ≠ [])
    (heq : stretch ++ after = tail ++ result)
    (hm : other.Matches (start.reverse ++ before) stretch after) :
    other.OccursIn mark := by
  have hopening := hm.not_mem hother.avoids_opening
  have hclosing := hm.not_mem hother.avoids_closing
  have hlast : tail.getLast? = some ']' := by
    rw [← hmark.2, hsplit, List.getLast?_append_of_ne_nil _ htail]
  obtain ⟨rest, rfl, rfl⟩ | ⟨rest, rfl, rfl⟩ := List.append_eq_append_iff.1 heq
  · have hrest : rest ≠ [] := by
      rintro rfl
      rw [List.append_nil] at hlast
      exact hclosing (List.mem_of_getLast? hlast)
    have hstart : start ≠ [] := by
      rintro rfl
      have hhead := hmark.1
      rw [hsplit, List.nil_append, List.head?_append_of_ne_nil _
        (hother.ne_nil hm)] at hhead
      exact hopening (List.mem_of_head? hhead)
    refine ⟨start, stretch, rest, hsplit, hm.of_wordFirst_eq ?_ ?_⟩
    · rw [wordFirst, List.head?_append_of_ne_nil _
        (List.reverse_ne_nil_iff.2 hstart)]
      rfl
    · rw [wordFirst, List.head?_append_of_ne_nil _ hrest]
      rfl
  · exact absurd (List.mem_append_left _ (List.mem_of_getLast? hlast)) hclosing

/-- A match at the front of the result, which keeps the first character of the
text, is one at the front of the text. -/
theorem Replaced.exists_matches_front (hguarded : pattern.Guarded)
    (hother : other.Guarded) (hmark : Bracketed mark)
    (h : Replaced pattern mark before text (stretch ++ after))
    (hfirst : wordFirst (stretch ++ after) = wordFirst text)
    (hbefore : wordFirst before' = wordFirst before ∨
      wordFirst before' = false ∧ wordFirst text = false)
    (hm : other.Matches before' stretch after) :
    ∃ rest, text = stretch ++ rest ∧ other.Matches before stretch rest := by
  obtain ⟨rest, htext, hrest⟩ := h.exists_of_append hguarded hmark
    (hm.not_mem hother.avoids_opening)
    (wordFirst_append (hother.ends hm) before)
  have hsame : wordFirst before' = wordFirst before := by
    refine hbefore.resolve_right ?_
    rintro ⟨hbefore', htext'⟩
    refine hother.starts hm ?_
    rw [hbefore', hfirst, htext']
  exact ⟨rest, htext, hm.of_wordFirst_eq hsame hrest.symm⟩

/-- Where a pattern matches in the result it matches in the text as well, and
not where a match of the pattern that is replaced begins. -/
theorem Replaced.exists_matches (hguarded : pattern.Guarded)
    (hother : other.Guarded) (hmark : Bracketed mark)
    (hclear : ¬other.OccursIn mark)
    (h : Replaced pattern mark before text result)
    (hbefore : wordFirst before' = wordFirst before ∨
      wordFirst before' = false ∧ wordFirst text = false)
    {start : List Char} (hresult : result = start ++ (stretch ++ after))
    (hm : other.Matches (start.reverse ++ before') stretch after) :
    ∃ front rest, text = front ++ (stretch ++ rest) ∧
      other.Matches (front.reverse ++ before) stretch rest ∧
      ∀ stretch' after', stretch ++ rest = stretch' ++ after' →
        ¬pattern.Matches (front.reverse ++ before) stretch' after' := by
  induction h generalizing before' start with
  | nil before =>
      have hnil := (List.append_eq_nil_iff.1 hresult.symm).2
      exact absurd (List.append_eq_nil_iff.1 hnil).1 (hother.ne_nil hm)
  | @keep before text result c hnone h ih =>
      cases start with
      | nil =>
          have hwhole := Replaced.keep hnone h
          have hfirst : wordFirst (c :: result) = wordFirst (c :: text) := rfl
          rw [hresult, List.nil_append] at hwhole hfirst
          obtain ⟨rest, htext, hmatch⟩ := hwhole.exists_matches_front hguarded
            hother hmark hfirst hbefore hm
          refine ⟨[], rest, htext, hmatch, ?_⟩
          intro stretch' after' heq
          exact hnone stretch' after' (htext.trans heq)
      | cons c' start =>
          obtain ⟨rfl, htail⟩ := List.cons.inj hresult
          rw [List.reverse_cons, List.append_assoc] at hm
          have hsame : wordFirst (c :: before') = wordFirst (c :: before) := rfl
          obtain ⟨front, rest, rfl, hmatch, hnot⟩ := ih (.inl hsame) htail hm
          refine ⟨c :: front, rest, rfl, ?_, ?_⟩
          · rw [List.reverse_cons, List.append_assoc]
            exact hmatch
          · rw [List.reverse_cons, List.append_assoc]
            exact hnot
  | @swap before taken text result hreplaced h ih =>
      obtain ⟨tail, hstart, hrest⟩ | ⟨tail, htail, hsplit, heq⟩ :=
        split_of_append_eq hresult
      · subst hstart
        rw [List.reverse_append, List.append_assoc] at hm
        obtain ⟨front, rest, rfl, hmatch, hnot⟩ :=
          ih (.inr ⟨hmark.wordFirst_reverse_append before',
            hguarded.stops hreplaced⟩) hrest hm
        have heq : (taken ++ front).reverse ++ before =
            front.reverse ++ (taken.reverse ++ before) := by
          rw [List.reverse_append, List.append_assoc]
        refine ⟨taken ++ front, rest, (List.append_assoc ..).symm, ?_, ?_⟩
        · rw [heq]
          exact hmatch
        · rw [heq]
          exact hnot
      · exact absurd (occursIn_of_append_eq hother hmark hsplit htail heq hm)
          hclear

/-! ## What is left of a text -/

/-- Replacing the matches of one pattern brings up no match of another. -/
theorem OccursIn.of_replaceAll (hguarded : pattern.Guarded)
    (hother : other.Guarded) (hmark : Bracketed mark)
    (hclear : ¬other.OccursIn mark)
    (h : other.OccursIn (pattern.replaceAll mark text)) :
    other.OccursIn text := by
  obtain ⟨start, stretch, after, hresult, hm⟩ := h
  rw [← List.append_nil start.reverse] at hm
  obtain ⟨front, rest, htext, hmatch, -⟩ :=
    (replaced_replaceAll hguarded mark text).exists_matches hguarded hother
      hmark hclear (.inl rfl) hresult hm
  rw [List.append_nil] at hmatch
  exact ⟨front, stretch, rest, htext, hmatch⟩

/-- No match is left when all are replaced. -/
theorem not_occursIn_replaceAll (hguarded : pattern.Guarded)
    (hmark : Bracketed mark) (hclear : ¬pattern.OccursIn mark)
    (text : List Char) : ¬pattern.OccursIn (pattern.replaceAll mark text) := by
  rintro ⟨start, stretch, after, hresult, hm⟩
  rw [← List.append_nil start.reverse] at hm
  obtain ⟨front, rest, -, hmatch, hnot⟩ :=
    (replaced_replaceAll hguarded mark text).exists_matches hguarded hguarded
      hmark hclear (.inl rfl) hresult hm
  exact hnot stretch rest rfl hmatch

theorem replaceAll_of_not_occursIn (hguarded : pattern.Guarded)
    (mark : List Char) (h : ¬pattern.OccursIn text) :
    pattern.replaceAll mark text = text := by
  apply (replaced_replaceAll hguarded mark text).eq_of_forall_not
  intro start stretch after htext hm
  rw [List.append_nil] at hm
  exact h ⟨start, stretch, after, htext, hm⟩

end Pattern

end CallGate.Redaction
