import CallGate.Redaction.Pattern
import Mathlib.Data.List.Infix
import Mathlib.Data.List.TakeWhile

/-!
# What a pattern matches

A pattern matches a stretch of a text between what stands before it and what
stands after it.  Matching at a place tries the ways in which the pattern
matches there, and finds nothing only if there are none.
-/

namespace CallGate.Redaction

namespace Pattern

/-- A pattern matches a stretch of a text that stands after the one text, in
reverse, and before the other. -/
def Matches : Pattern → List Char → List Char → List Char → Prop
  | .boundary, before, stretch, after =>
    stretch = [] ∧ Place.isBoundary ⟨before, after⟩ = true
  | .many kind least, _, stretch, _ =>
    least ≤ stretch.length ∧ ∀ c ∈ stretch, kind c = true
  | .exactly kind count, _, stretch, _ =>
    stretch.length = count ∧ ∀ c ∈ stretch, kind c = true
  | .either first second, before, stretch, after =>
    first.Matches before stretch after ∨ second.Matches before stretch after
  | .andThen first second, before, stretch, after =>
    ∃ start rest, stretch = start ++ rest ∧
      first.Matches before start (rest ++ after) ∧
      second.Matches (start.reverse ++ before) rest after

/-- The pattern matches some stretch of the text. -/
def OccursIn (pattern : Pattern) (text : List Char) : Prop :=
  ∃ before stretch after, text = before ++ (stretch ++ after) ∧
    pattern.Matches before.reverse stretch after

variable {kind : Char → Bool} {pattern first second : Pattern} {n count : ℕ}
  {before after before' after' stretch text : List Char} {p q : Place}
  {go : Place → Option Place}

/-! ## Going over characters of a kind -/

/-- Climbing stops before the first character of another kind. -/
theorem climb_eq (kind : Char → Bool) (count : ℕ) (before after : List Char) :
    climb kind count before after =
      (count + (after.takeWhile kind).length,
        ⟨(after.takeWhile kind).reverse ++ before, after.dropWhile kind⟩) := by
  induction after generalizing count before with
  | nil => rfl
  | cons c after ih =>
      rw [climb]
      by_cases hc : kind c = true
      · rw [if_pos hc, ih, List.takeWhile_cons_of_pos hc,
          List.dropWhile_cons_of_pos hc, List.length_cons, List.reverse_cons,
          List.append_assoc, List.singleton_append]
        congr 1
        omega
      · rw [if_neg hc, List.takeWhile_cons_of_neg hc,
          List.dropWhile_cons_of_neg hc]
        rfl

theorem skip?_eq_some_iff :
    skip? kind n p = some q ↔ ∃ stretch, stretch.length = n ∧
      (∀ c ∈ stretch, kind c = true) ∧ p.after = stretch ++ q.after ∧
      q.before = stretch.reverse ++ p.before := by
  induction n generalizing p with
  | zero =>
      rw [skip?, Option.some_inj]
      constructor
      · intro hpq
        subst hpq
        exact ⟨[], rfl, nofun, rfl, rfl⟩
      · rintro ⟨stretch, hlength, -, hafter, hbefore⟩
        obtain rfl := List.length_eq_zero_iff.1 hlength
        obtain ⟨before, after⟩ := p
        obtain ⟨before', after'⟩ := q
        simp only [List.nil_append, List.reverse_nil] at hafter hbefore
        rw [hafter, hbefore]
  | succ n ih =>
      obtain ⟨before, after⟩ := p
      rw [skip?]
      constructor
      · intro h
        cases after with
        | nil => cases h
        | cons c after =>
            dsimp only at h
            split_ifs at h with hc
            obtain ⟨stretch, hlength, hkind, hafter, hbefore⟩ := ih.1 h
            refine ⟨c :: stretch, by rw [List.length_cons, hlength], ?_, ?_, ?_⟩
            · exact List.forall_mem_cons.2 ⟨hc, hkind⟩
            · exact congrArg (c :: ·) hafter
            · rw [hbefore, List.reverse_cons, List.append_assoc]
              rfl
      · rintro ⟨stretch, hlength, hkind, hafter, hbefore⟩
        cases stretch with
        | nil => cases hlength
        | cons c stretch =>
            obtain ⟨hc, hkind⟩ := List.forall_mem_cons.1 hkind
            dsimp only at hafter hbefore
            subst hafter
            dsimp only [List.cons_append]
            rw [if_pos hc]
            refine ih.2 ⟨stretch, Nat.succ_inj.1 hlength, hkind, rfl, ?_⟩
            rw [hbefore, List.reverse_cons, List.append_assoc]
            rfl

/-- Stepping back over the end of a stretch. -/
theorem stepBack_iterate (start rest : List Char) :
    stepBack^[rest.length] ⟨(start ++ rest).reverse ++ before, after⟩ =
      ⟨start.reverse ++ before, rest ++ after⟩ := by
  induction rest using List.reverseRecOn generalizing after with
  | nil => rw [List.append_nil]; rfl
  | append_singleton rest c ih =>
      have hstep :
          stepBack ⟨(start ++ (rest ++ [c])).reverse ++ before, after⟩ =
            ⟨(start ++ rest).reverse ++ before, c :: after⟩ := by
        rw [← List.append_assoc, List.reverse_concat]
        rfl
      rw [List.length_append, List.length_singleton,
        Function.iterate_succ_apply, hstep, ih, List.append_assoc]
      rfl

/-- Stepping back over some of the longest stretch of a kind leads to the end
of a shorter one. -/
theorem exists_of_stepBack_iterate (kind : Char → Bool)
    (before text : List Char) {k : ℕ} (hk : k ≤ (text.takeWhile kind).length) :
    ∃ stretch after, text = stretch ++ after ∧
      stretch.length + k = (text.takeWhile kind).length ∧
      (∀ c ∈ stretch, kind c = true) ∧
      stepBack^[k]
          ⟨(text.takeWhile kind).reverse ++ before, text.dropWhile kind⟩ =
        ⟨stretch.reverse ++ before, after⟩ := by
  generalize hlongest : text.takeWhile kind = longest at hk ⊢
  obtain ⟨stretch, rest, rfl, rfl⟩ :
      ∃ stretch rest, longest = stretch ++ rest ∧ rest.length = k := by
    refine ⟨longest.take (longest.length - k),
      longest.drop (longest.length - k), (List.take_append_drop _ _).symm, ?_⟩
    rw [List.length_drop, Nat.sub_sub_self hk]
  refine ⟨stretch, rest ++ text.dropWhile kind, ?_, ?_, ?_, ?_⟩
  · rw [← List.append_assoc, ← hlongest, List.takeWhile_append_dropWhile]
  · rw [List.length_append]
  · intro c hc
    have hmem : c ∈ text.takeWhile kind := by
      rw [hlongest]
      exact List.mem_append_left rest hc
    exact List.mem_takeWhile_imp hmem
  · exact stepBack_iterate stretch rest

theorem backOff_eq_none_iff :
    backOff go n p = none ↔ ∀ k ≤ n, go (stepBack^[k] p) = none := by
  induction n generalizing p with
  | zero =>
      rw [backOff]
      constructor
      · intro h k hk
        rw [Nat.le_zero.1 hk]
        exact h
      · intro h
        exact h 0 le_rfl
  | succ n ih =>
      rw [backOff]
      constructor
      · intro h k hk
        cases hgo : go p with
        | some q => rw [hgo] at h; cases h
        | none =>
            rw [hgo] at h
            cases k with
            | zero => exact hgo
            | succ k => exact ih.1 h k (Nat.succ_le_succ_iff.1 hk)
      · intro h
        have hgo : go p = none := h 0 (Nat.zero_le _)
        rw [hgo]
        exact ih.2 fun k hk => h (k + 1) (Nat.succ_le_succ hk)

theorem exists_of_backOff_eq_some (h : backOff go n p = some q) :
    ∃ k ≤ n, go (stepBack^[k] p) = some q := by
  induction n generalizing p with
  | zero => exact ⟨0, le_rfl, h⟩
  | succ n ih =>
      rw [backOff] at h
      cases hgo : go p with
      | some q' =>
          rw [hgo] at h
          exact ⟨0, Nat.zero_le _, hgo.trans h⟩
      | none =>
          rw [hgo] at h
          obtain ⟨k, hk, hq⟩ := ih h
          exact ⟨k + 1, Nat.succ_le_succ hk, hq⟩

/-! ## Matching at a place -/

/-- What is found is reached by a match from which going on leads there. -/
theorem exists_of_matchThen_eq_some
    (h : matchThen pattern p go = some q) :
    ∃ stretch after, p.after = stretch ++ after ∧
      pattern.Matches p.before stretch after ∧
      go ⟨stretch.reverse ++ p.before, after⟩ = some q := by
  induction pattern generalizing p go with
  | boundary =>
      rw [matchThen] at h
      split_ifs at h with hp
      exact ⟨[], p.after, rfl, ⟨rfl, hp⟩, h⟩
  | many kind least =>
      rw [matchThen, climb_eq] at h
      dsimp only at h
      split_ifs at h with hleast
      obtain ⟨k, hk, hq⟩ := exists_of_backOff_eq_some h
      obtain ⟨stretch, after, hafter, hlength, hkind, hback⟩ :=
        exists_of_stepBack_iterate kind p.before p.after (k := k) (by omega)
      rw [hback] at hq
      exact ⟨stretch, after, hafter, ⟨by omega, hkind⟩, hq⟩
  | exactly kind count =>
      rw [matchThen] at h
      cases hskip : skip? kind count p with
      | none => rw [hskip] at h; cases h
      | some r =>
          rw [hskip] at h
          obtain ⟨stretch, hlength, hkind, hafter, hbefore⟩ :=
            skip?_eq_some_iff.1 hskip
          refine ⟨stretch, r.after, hafter, ⟨hlength, hkind⟩, ?_⟩
          rw [← hbefore]
          exact h
  | either first second ihfirst ihsecond =>
      rw [matchThen] at h
      cases hfirst : matchThen first p go with
      | some r =>
          rw [hfirst] at h
          obtain ⟨stretch, after, hafter, hm, hgo⟩ := ihfirst (hfirst.trans h)
          exact ⟨stretch, after, hafter, .inl hm, hgo⟩
      | none =>
          rw [hfirst] at h
          obtain ⟨stretch, after, hafter, hm, hgo⟩ := ihsecond h
          exact ⟨stretch, after, hafter, .inr hm, hgo⟩
  | andThen first second ihfirst ihsecond =>
      rw [matchThen] at h
      obtain ⟨start, between, hafter, hstart, hgo⟩ := ihfirst h
      obtain ⟨rest, after, rfl, hrest, hgo⟩ := ihsecond hgo
      refine ⟨start ++ rest, after, by rw [hafter, List.append_assoc],
        ⟨start, rest, rfl, hstart, hrest⟩, ?_⟩
      rw [List.reverse_append, List.append_assoc]
      exact hgo

/-- Nothing is found only if going on fails from the end of every match. -/
theorem eq_none_of_matchThen_eq_none (h : matchThen pattern p go = none)
    (hafter : p.after = stretch ++ after)
    (hm : pattern.Matches p.before stretch after) :
    go ⟨stretch.reverse ++ p.before, after⟩ = none := by
  induction pattern generalizing p go stretch after with
  | boundary =>
      obtain ⟨rfl, hp⟩ := hm
      obtain ⟨before, after'⟩ := p
      obtain rfl : after' = after := hafter
      rw [matchThen, if_pos hp] at h
      exact h
  | many kind least =>
      obtain ⟨hleast, hkind⟩ := hm
      rw [matchThen, climb_eq, hafter, List.takeWhile_append_of_pos hkind,
        List.dropWhile_append_of_pos hkind, List.length_append] at h
      dsimp only at h
      rw [if_neg (by omega), backOff_eq_none_iff] at h
      have hgo := h (after.takeWhile kind).length (by omega)
      rw [stepBack_iterate, List.takeWhile_append_dropWhile] at hgo
      exact hgo
  | exactly kind count =>
      have hskip : skip? kind count p =
          some ⟨stretch.reverse ++ p.before, after⟩ :=
        skip?_eq_some_iff.2 ⟨stretch, hm.1, hm.2, hafter, rfl⟩
      rw [matchThen, hskip] at h
      exact h
  | either first second ihfirst ihsecond =>
      rw [matchThen] at h
      cases hfirst : matchThen first p go with
      | some q => rw [hfirst] at h; cases h
      | none =>
          rw [hfirst] at h
          exact hm.elim (ihfirst hfirst hafter) (ihsecond h hafter)
  | andThen first second ihfirst ihsecond =>
      obtain ⟨start, rest, rfl, hstart, hrest⟩ := hm
      rw [matchThen] at h
      rw [List.append_assoc] at hafter
      rw [List.reverse_append, List.append_assoc]
      exact ihsecond (ihfirst h hafter hstart) rfl hrest

/-- At a place a match is found unless there is none. -/
theorem matchAt?_eq_none_iff :
    matchAt? pattern ⟨before, text⟩ = none ↔ ∀ stretch after,
      text = stretch ++ after → ¬pattern.Matches before stretch after := by
  constructor
  · intro h stretch after htext hm
    cases eq_none_of_matchThen_eq_none h htext hm
  · intro h
    rw [Option.eq_none_iff_forall_ne_some]
    intro q hq
    obtain ⟨stretch, after, htext, hm, -⟩ := exists_of_matchThen_eq_some hq
    exact h stretch after htext hm

theorem matches_of_matchAt?_eq_some
    (h : matchAt? pattern ⟨before, text⟩ = some q) :
    ∃ stretch after, text = stretch ++ after ∧
      pattern.Matches before stretch after ∧
      q = ⟨stretch.reverse ++ before, after⟩ := by
  obtain ⟨stretch, after, htext, hm, hq⟩ := exists_of_matchThen_eq_some h
  exact ⟨stretch, after, htext, hm, (Option.some.inj hq).symm⟩

/-- Whether a pattern occurs in a text is found by trying each place of it. -/
theorem occursIn_iff :
    pattern.OccursIn text ↔ ∃ split ∈ List.range (text.length + 1),
      (matchAt? pattern
        ⟨(text.take split).reverse, text.drop split⟩).isSome = true := by
  constructor
  · rintro ⟨before, stretch, after, rfl, hm⟩
    refine ⟨before.length, ?_, ?_⟩
    · rw [List.mem_range, List.length_append]
      omega
    rw [List.take_left, List.drop_left, Option.isSome_iff_ne_none]
    intro hnone
    exact matchAt?_eq_none_iff.1 hnone stretch after rfl hm
  · rintro ⟨split, -, hfound⟩
    obtain ⟨q, hq⟩ := Option.isSome_iff_exists.1 hfound
    obtain ⟨stretch, after, htext, hm, -⟩ := matches_of_matchAt?_eq_some hq
    exact ⟨text.take split, stretch, after,
      by rw [← htext, List.take_append_drop], hm⟩

instance (pattern : Pattern) (text : List Char) :
    Decidable (pattern.OccursIn text) :=
  decidable_of_iff' _ occursIn_iff

/-! ## What a match depends on -/

/-- Whether the first character belongs to a word. -/
def wordFirst (cs : List Char) : Bool := cs.head?.any Text.isWordChar

theorem isBoundary_iff :
    Place.isBoundary ⟨before, after⟩ = true ↔
      wordFirst before ≠ wordFirst after :=
  bne_iff_ne

theorem wordFirst_append_congr (cs : List Char)
    (h : wordFirst before = wordFirst before') :
    wordFirst (cs ++ before) = wordFirst (cs ++ before') := by
  cases cs with
  | nil => exact h
  | cons c cs => rfl

theorem wordFirst_append (h : wordFirst text = true) (rest : List Char) :
    wordFirst (text ++ rest) = true := by
  cases text with
  | nil => cases h
  | cons c cs => exact h

/-- Of the text around a stretch it only matters whether word characters are
next to it. -/
theorem Matches.of_wordFirst_eq (h : pattern.Matches before stretch after)
    (hbefore : wordFirst before = wordFirst before')
    (hafter : wordFirst after = wordFirst after') :
    pattern.Matches before' stretch after' := by
  induction pattern generalizing before before' stretch after after' with
  | boundary =>
      refine ⟨h.1, ?_⟩
      rw [isBoundary_iff, ← hbefore, ← hafter, ← isBoundary_iff]
      exact h.2
  | many kind least => exact h
  | exactly kind count => exact h
  | either first second ihfirst ihsecond =>
      exact h.imp (ihfirst · hbefore hafter) (ihsecond · hbefore hafter)
  | andThen first second ihfirst ihsecond =>
      obtain ⟨start, rest, rfl, hstart, hrest⟩ := h
      exact ⟨start, rest, rfl,
        ihfirst hstart hbefore (wordFirst_append_congr rest hafter),
        ihsecond hrest (wordFirst_append_congr _ hbefore) hafter⟩

/-- Whether no kind of character in a pattern has the character. -/
def avoids (c : Char) : Pattern → Bool
  | .boundary => true
  | .many kind _ => !kind c
  | .exactly kind _ => !kind c
  | .either first second => first.avoids c && second.avoids c
  | .andThen first second => first.avoids c && second.avoids c

theorem Matches.not_mem {c : Char} (h : pattern.Matches before stretch after)
    (havoids : pattern.avoids c = true) : c ∉ stretch := by
  induction pattern generalizing before stretch after with
  | boundary => rw [h.1]; exact List.not_mem_nil
  | many kind least =>
      intro hc
      rw [avoids, h.2 c hc] at havoids
      cases havoids
  | exactly kind count =>
      intro hc
      rw [avoids, h.2 c hc] at havoids
      cases havoids
  | either first second ihfirst ihsecond =>
      rw [avoids, Bool.and_eq_true] at havoids
      exact h.elim (ihfirst · havoids.1) (ihsecond · havoids.2)
  | andThen first second ihfirst ihsecond =>
      rw [avoids, Bool.and_eq_true] at havoids
      obtain ⟨start, rest, rfl, hstart, hrest⟩ := h
      rw [List.mem_append]
      exact not_or.2
        ⟨ihfirst hstart havoids.1, ihsecond hrest havoids.2⟩

/-- The last of several patterns in order matches the end of the stretch. -/
theorem matches_inOrder_concat {ps : List Pattern} (last : Pattern)
    (h : (inOrder (ps ++ [last])).Matches before stretch after) :
    ∃ start rest, stretch = start ++ rest ∧
      (inOrder ps).Matches before start (rest ++ after) ∧
      last.Matches (start.reverse ++ before) rest after := by
  induction ps generalizing before stretch with
  | nil =>
      obtain ⟨start, rest, rfl, hstart, hrest, -⟩ := h
      obtain rfl := List.length_eq_zero_iff.1 hrest
      rw [List.append_nil]
      exact ⟨[], start, rfl, ⟨rfl, nofun⟩, hstart⟩
  | cons q ps ih =>
      obtain ⟨start, between, rfl, hstart, hbetween⟩ := h
      obtain ⟨middle, rest, rfl, hmiddle, hrest⟩ := ih hbetween
      refine ⟨start ++ middle, rest, (List.append_assoc ..).symm,
        ⟨start, middle, rfl, ?_, hmiddle⟩, ?_⟩
      · rw [← List.append_assoc]
        exact hstart
      · rw [List.reverse_append, List.append_assoc]
        exact hrest

end Pattern

end CallGate.Redaction
