import CallGate.Proofs.Json.Parts
import CallGate.Proofs.Redaction.Clearing
import CallGate.Redaction.Value
import Mathlib.Data.List.Forall2

/-!
# Redaction is complete

The patterns for addresses, phone numbers and keys are guarded, and none of
them occurs in a mark.  So a redacted text has no match of any of the three,
although each is searched for in what the ones before it have left, and
redacting it again changes nothing.
-/

namespace CallGate.Redaction

/-! ## The characters of words -/

theorem isWordChar_of_isAlphanum {c : Char} (h : c.isAlphanum = true) :
    Text.isWordChar c = true := by
  have hascii : c.toNat < 0x80 := by
    change (decide ('A'.val ≤ c.val ∧ c.val ≤ 'Z'.val) ||
      ('a'.val ≤ c.val && c.val ≤ 'z'.val) ||
      ('0'.val ≤ c.val && c.val ≤ '9'.val)) = true at h
    simp only [Bool.or_eq_true, Bool.and_eq_true, decide_eq_true_eq,
      UInt32.le_iff_toNat_le, Char.toNat_val] at h
    have hbounds : 'Z'.toNat < 0x80 ∧ 'z'.toNat < 0x80 ∧ '9'.toNat < 0x80 := by
      decide
    omega
  rw [Text.isWordChar, if_pos hascii, h, Bool.true_or]

theorem isWordChar_of_isAlphanumeric {c : Char} (h : isAlphanumeric c = true) :
    Text.isWordChar c = true := by
  simp only [isAlphanumeric, isLetter, Bool.or_eq_true, decide_eq_true_eq] at h
  rcases h with ((halpha | rfl) | rfl) | hdigit
  · exact isWordChar_of_isAlphanum (by rw [Char.isAlphanum, halpha]; rfl)
  · decide +kernel
  · decide +kernel
  · exact isWordChar_of_isAlphanum
      (by rw [Char.isAlphanum, hdigit, Bool.or_true])

theorem isWordChar_of_isLetter {c : Char} (h : isLetter c = true) :
    Text.isWordChar c = true :=
  isWordChar_of_isAlphanumeric (by rw [isAlphanumeric, h, Bool.true_or])

/-- If nothing is left after each of some tests has dropped what it holds of
from the front, then every item passes a test. -/
theorem exists_of_foldl_dropWhile_eq_nil {α β : Type} {test : β → α → Bool}
    {xs : List α} {ys : List β} {x : α}
    (h : ys.foldl (fun left y => left.dropWhile (test y)) xs = [])
    (hx : x ∈ xs) : ∃ y ∈ ys, test y x = true := by
  induction ys generalizing xs with
  | nil =>
      rw [List.foldl_nil] at h
      rw [h] at hx
      cases hx
  | cons y ys ih =>
      by_cases hy : test y x = true
      · exact ⟨y, List.mem_cons_self, hy⟩
      · have hleft : x ∈ xs.dropWhile (test y) := by
          rw [← List.takeWhile_append_dropWhile (p := test y) (l := xs)] at hx
          exact (List.mem_append.1 hx).resolve_left
            fun hmem => hy (List.mem_takeWhile_imp hmem)
        obtain ⟨y', hy', htest⟩ := ih h hleft
        exact ⟨y', List.mem_cons_of_mem y hy', htest⟩

/-- The run of ten digits is the one in ASCII or lies in the range. -/
def runWithin (range : Nat × Nat) (start : Nat) : Bool :=
  start == 0x30 ||
    (0x80 ≤ start && range.1 ≤ start && start + 10 ≤ range.2 + 1)

/-- Both tables are ascending, so that one pass over the ranges finds the
range of each run of digits. -/
theorem exists_runWithin {start : Nat} (h : start ∈ Text.decimalZeros) :
    ∃ range ∈ Text.wordRanges, runWithin range start = true := by
  have hpass : Text.wordRanges.foldl
      (fun left range => left.dropWhile (runWithin range))
      Text.decimalZeros = [] := by decide +kernel
  exact exists_of_foldl_dropWhile_eq_nil hpass h

theorem isWordChar_of_isDecimalDigit {c : Char}
    (h : Text.isDecimalDigit c = true) : Text.isWordChar c = true := by
  rw [Text.isDecimalDigit, List.any_eq_true] at h
  obtain ⟨start, hstart, hrange⟩ := h
  rw [Bool.and_eq_true, decide_eq_true_eq, decide_eq_true_eq] at hrange
  obtain ⟨range, hmem, hwithin⟩ := exists_runWithin hstart
  simp only [runWithin, Bool.or_eq_true, Bool.and_eq_true, beq_iff_eq,
    decide_eq_true_eq] at hwithin
  rcases hwithin with rfl | ⟨⟨hbeyond, hlower⟩, hupper⟩
  · have hdigit : c.isDigit = true := by
      simp only [Char.isDigit, Bool.and_eq_true, decide_eq_true_eq,
        UInt32.le_iff_toNat_le, Char.toNat_val, ge_iff_le]
      exact ⟨hrange.1, Nat.le_of_lt_succ hrange.2⟩
    exact isWordChar_of_isAlphanum
      (by rw [Char.isAlphanum, hdigit, Bool.or_true])
  · rw [Text.isWordChar, if_neg (by omega), List.any_eq_true]
    refine ⟨range, hmem, ?_⟩
    rw [Bool.and_eq_true, decide_eq_true_eq, decide_eq_true_eq]
    omega

/-! ## The patterns are guarded -/

namespace Pattern

variable {stretch : List Char}

/-- Characters of words that are not none end in a word. -/
theorem wordFirst_reverse_of_forall (hlength : 0 < stretch.length)
    (h : ∀ c ∈ stretch, Text.isWordChar c = true) :
    wordFirst stretch.reverse = true := by
  have hne : stretch ≠ [] := List.length_pos_iff.1 hlength
  rw [wordFirst, List.head?_reverse, List.getLast?_eq_some_getLast hne]
  exact h _ (List.getLast_mem hne)

/-- A pattern for what begins at a boundary and ends with a word at one. -/
theorem guarded_inOrder (ps : List Pattern) (last : Pattern)
    (hlast : ∀ before stretch after, last.Matches before stretch after →
      0 < stretch.length ∧ ∀ c ∈ stretch, Text.isWordChar c = true)
    (hopening :
      (inOrder ((boundary :: ps ++ [last]) ++ [boundary])).avoids '[' = true)
    (hclosing :
      (inOrder ((boundary :: ps ++ [last]) ++ [boundary])).avoids ']' = true) :
    (inOrder ((boundary :: ps ++ [last]) ++ [boundary])).Guarded := by
  have hends {before stretch after : List Char}
      (h : (inOrder ((boundary :: ps ++ [last]) ++ [boundary])).Matches
        before stretch after) :
      wordFirst stretch.reverse = true ∧
        wordFirst (stretch.reverse ++ before) ≠ wordFirst after := by
    obtain ⟨whole, none, rfl, hwhole, rfl, hboundary⟩ :=
      matches_inOrder_concat boundary h
    obtain ⟨start, rest, rfl, -, hrest⟩ := matches_inOrder_concat last hwhole
    obtain ⟨hlength, hword⟩ := hlast _ _ _ hrest
    rw [List.append_nil]
    refine ⟨?_, isBoundary_iff.1 hboundary⟩
    rw [List.reverse_append]
    exact wordFirst_append (wordFirst_reverse_of_forall hlength hword) _
  constructor
  · intro before stretch after h
    obtain ⟨start, rest, rfl, ⟨rfl, hboundary⟩, -⟩ := h
    exact isBoundary_iff.1 hboundary
  · intro before stretch after h
    exact (hends h).1
  · intro before stretch after h
    obtain ⟨hword, hboundary⟩ := hends h
    rw [wordFirst_append hword] at hboundary
    exact Bool.eq_false_iff.2 hboundary.symm
  · exact hopening
  · exact hclosing

theorem guarded_address : address.Guarded := by
  apply guarded_inOrder
    [many (fun c => isAlphanumeric c || isOneOf ['.', '_', '%', '+', '-'] c) 1,
      one (isOneOf ['@']),
      many (fun c => isAlphanumeric c || isOneOf ['.', '-'] c) 1,
      one (isOneOf ['.'])] (many isLetter 2)
  · rintro before stretch after ⟨hleast, hkind⟩
    exact ⟨by omega, fun c hc => isWordChar_of_isLetter (hkind c hc)⟩
  · decide +kernel
  · decide +kernel

theorem guarded_phone : phone.Guarded := by
  apply guarded_inOrder
    [maybe (inOrder
        [maybe (one (isOneOf ['+'])), one (isOneOf ['1']), separator]),
      maybe (one (isOneOf ['('])), exactly Text.isDecimalDigit 3,
      maybe (one (isOneOf [')'])), separator, exactly Text.isDecimalDigit 3,
      separator] (exactly Text.isDecimalDigit 4)
  · rintro before stretch after ⟨hcount, hkind⟩
    exact ⟨by omega, fun c hc => isWordChar_of_isDecimalDigit (hkind c hc)⟩
  · decide +kernel
  · decide +kernel

theorem guarded_key : key.Guarded := by
  apply guarded_inOrder
    [firstOf (word ['s', 'k']) [word ['p', 'k'], word ['a', 'p', 'i'],
        word ['t', 'o', 'k', 'e', 'n']],
      maybe (one (isOneOf ['_', '-']))] (many isAlphanumeric 8)
  · rintro before stretch after ⟨hleast, hkind⟩
    exact ⟨by omega, fun c hc => isWordChar_of_isAlphanumeric (hkind c hc)⟩
  · decide +kernel
  · decide +kernel

end Pattern

/-! ## Redacted texts -/

/-- The patterns for what is taken out. -/
def personal : List Pattern := [.address, .phone, .key]

/-- The marks that are put for it. -/
def marks : List String := [addressMark, phoneMark, keyMark]

/-- A text in which nothing is found that would be taken out. -/
def IsClear (text : String) : Prop :=
  ∀ pattern ∈ personal, ¬pattern.OccursIn text.toList

instance (text : String) : Decidable (IsClear text) :=
  inferInstanceAs (Decidable (∀ _ ∈ _, _))

theorem guarded_of_mem_personal {pattern : Pattern} (h : pattern ∈ personal) :
    pattern.Guarded := by
  have hall : ∀ pattern ∈ personal, pattern.Guarded :=
    List.forall_mem_cons.2 ⟨Pattern.guarded_address,
      List.forall_mem_cons.2 ⟨Pattern.guarded_phone,
        List.forall_mem_cons.2 ⟨Pattern.guarded_key, nofun⟩⟩⟩
  exact hall pattern h

/-- A mark stands in brackets, and nothing is found in it. -/
theorem marks_clear : ∀ mark ∈ marks,
    Pattern.Bracketed mark.toList ∧ IsClear mark := by
  decide +kernel

/-- What is found in a text with marks was found before the marks were put. -/
theorem occursIn_of_marked {pattern other : Pattern} {mark : String}
    {text : List Char} (hpattern : pattern ∈ personal)
    (hother : other ∈ personal) (hmark : mark ∈ marks)
    (h : other.OccursIn (pattern.replaceAll mark.toList text)) :
    other.OccursIn text :=
  h.of_replaceAll (guarded_of_mem_personal hpattern)
    (guarded_of_mem_personal hother) (marks_clear mark hmark).1
    ((marks_clear mark hmark).2 other hother)

theorem not_occursIn_marked {pattern : Pattern} {mark : String}
    (hpattern : pattern ∈ personal)
    (hmark : mark ∈ marks) (text : List Char) :
    ¬pattern.OccursIn (pattern.replaceAll mark.toList text) :=
  Pattern.not_occursIn_replaceAll (guarded_of_mem_personal hpattern)
    (marks_clear mark hmark).1 ((marks_clear mark hmark).2 pattern hpattern)
    text

/-- A redacted text is clear: each pattern is gone once its matches are
replaced, and the replacements after that do not bring it back. -/
theorem isClear_redactText (text : String) : IsClear (redactText text) := by
  have hphone : Pattern.phone ∈ personal := by simp [personal]
  have hkey : Pattern.key ∈ personal := by simp [personal]
  have hphoneMark : phoneMark ∈ marks := by simp [marks]
  have hkeyMark : keyMark ∈ marks := by simp [marks]
  intro pattern hpattern hoccurs
  rw [redactText, String.toList_ofList, redactChars] at hoccurs
  have hbefore := occursIn_of_marked hkey hpattern hkeyMark hoccurs
  have hfirst := occursIn_of_marked hphone hpattern hphoneMark hbefore
  rcases List.mem_cons.1 hpattern with rfl | htail
  · exact not_occursIn_marked hpattern (by simp [marks]) _ hfirst
  · rcases List.mem_cons.1 htail with rfl | hlast
    · exact not_occursIn_marked hpattern hphoneMark _ hbefore
    · obtain rfl := List.mem_singleton.1 hlast
      exact not_occursIn_marked hpattern hkeyMark _ hoccurs

/-- Redacting changes a text just when something is found in it. -/
theorem redactText_eq_self_iff {text : String} :
    redactText text = text ↔ IsClear text := by
  constructor
  · intro h
    rw [← h]
    exact isClear_redactText text
  · intro hclear
    have hsame {pattern : Pattern} (hpattern : pattern ∈ personal)
        (mark : List Char) :
        pattern.replaceAll mark text.toList = text.toList :=
      Pattern.replaceAll_of_not_occursIn (guarded_of_mem_personal hpattern) mark
        (hclear pattern hpattern)
    rw [redactText, redactChars, hsame (by simp [personal]),
      hsame (by simp [personal]), hsame (by simp [personal]),
      String.ofList_toList]

/-! ## Redacted values -/

/-- The second value is the first one redacted: it has the same shape, names,
numbers and truth values, a clear text for each text, and a mark for all that
is not null and stands under the name of a secret. -/
inductive Redacted : Json → Json → Prop where
  | null : Redacted .null .null
  | bool (b : Bool) : Redacted (.bool b) (.bool b)
  | num (n : Number) : Redacted (.num n) (.num n)
  | str (s : String) {t : String} (hclear : IsClear t) :
      Redacted (.str s) (.str t)
  | arr {items others : List Json} (length : items.length = others.length)
      (redacted : ∀ p ∈ items.zip others, Redacted p.1 p.2) :
      Redacted (.arr items) (.arr others)
  | obj {members others : List (String × Json)}
      (length : members.length = others.length)
      (names : ∀ p ∈ members.zip others, p.2.1 = p.1.1)
      (secret : ∀ p ∈ members.zip others, isSecretName p.1.1 = true →
        p.1.2 ≠ .null → p.2.2 = .str secretMark)
      (redacted : ∀ p ∈ members.zip others,
        isSecretName p.1.1 = false ∨ p.1.2 = .null → Redacted p.1.2 p.2.2) :
      Redacted (.obj members) (.obj others)

variable {v w : Json} {m : String × Json} {text : String}

theorem redactItems_eq_map (items : List Json) :
    redactItems items = items.map redact := by
  induction items with
  | nil => rfl
  | cons v rest ih => rw [redactItems, ih, List.map_cons]

/-- The redacted member. -/
def redactMember (m : String × Json) : String × Json :=
  (m.1, if isSecretName m.1 && !m.2.isNull then .str secretMark else redact m.2)

theorem redactMembers_eq_map (members : List (String × Json)) :
    redactMembers members = members.map redactMember := by
  induction members with
  | nil => rfl
  | cons m rest ih =>
      obtain ⟨name, v⟩ := m
      rw [redactMembers, ih, List.map_cons]
      rfl

theorem isNull_eq_false_iff : v.isNull = false ↔ v ≠ .null := by
  cases v <;> simp [Json.isNull]

theorem redactMember_of_secret (hsecret : isSecretName m.1 = true)
    (hvalue : m.2 ≠ .null) : redactMember m = (m.1, .str secretMark) := by
  rw [redactMember, hsecret, isNull_eq_false_iff.2 hvalue]
  rfl

theorem redactMember_of_open (hopen : isSecretName m.1 = false ∨ m.2 = .null) :
    redactMember m = (m.1, redact m.2) := by
  rw [redactMember, if_neg]
  rw [Bool.and_eq_true, Bool.not_eq_true', isNull_eq_false_iff, not_and_or,
    not_ne_iff, Bool.not_eq_true]
  exact hopen

/-- Redacting a value redacts it. -/
theorem redacted_redact (v : Json) : Redacted v (redact v) := by
  induction v using Json.induct with
  | null => exact .null
  | bool b => exact .bool b
  | num n => exact .num n
  | str s => exact .str s (isClear_redactText s)
  | arr items ih =>
      rw [redact, redactItems_eq_map]
      refine .arr (List.length_map _).symm ?_
      rw [← List.map_prod_left_eq_zip, List.forall_mem_map]
      exact ih
  | obj members ih =>
      rw [redact, redactMembers_eq_map]
      refine .obj (List.length_map _).symm ?_ ?_ ?_ <;>
        rw [← List.map_prod_left_eq_zip, List.forall_mem_map]
      · intro m _
        rfl
      · intro m _ hsecret hvalue
        rw [redactMember_of_secret hsecret hvalue]
      · intro m hm hopen
        rw [redactMember_of_open hopen]
        exact ih m hm

/-- Of lists of one length each item of the second has a partner. -/
theorem map_snd_zip_of_length {α β : Type} {xs : List α} {ys : List β}
    (h : xs.length = ys.length) : (xs.zip ys).map Prod.snd = ys :=
  List.map_snd_zip h.ge

/-- All texts of what is redacted are clear. -/
theorem Redacted.isClear (h : Redacted v w) (htext : w.HasText text) :
    IsClear text := by
  induction h generalizing text with
  | null => cases htext
  | bool b => cases htext
  | num n => cases htext
  | str s hclear =>
      cases htext with
      | self => exact hclear
  | @arr items others length redacted ih =>
      cases htext with
      | item hv hinner =>
          rw [← map_snd_zip_of_length length, List.mem_map] at hv
          obtain ⟨p, hp, rfl⟩ := hv
          exact ih p hp hinner
  | @obj members others length names secret redacted ih =>
      cases htext with
      | member hm hinner =>
          rw [← map_snd_zip_of_length length, List.mem_map] at hm
          obtain ⟨p, hp, rfl⟩ := hm
          by_cases hopen : isSecretName p.1.1 = false ∨ p.1.2 = .null
          · exact ih p hp hopen hinner
          · rw [not_or, Bool.not_eq_false] at hopen
            rw [secret p hp hopen.1 hopen.2] at hinner
            cases hinner
            decide +kernel

/-- Redacting leaves as it is what is redacted. -/
theorem Redacted.redact_eq (h : Redacted v w) : redact w = w := by
  induction h with
  | null => rfl
  | bool b => rfl
  | num n => rfl
  | str s hclear => rw [redact, redactText_eq_self_iff.2 hclear]
  | @arr items others length redacted ih =>
      rw [redact, redactItems_eq_map, ← map_snd_zip_of_length length,
        List.map_map]
      exact congrArg Json.arr (List.map_congr_left ih)
  | @obj members others length names secret redacted ih =>
      rw [redact, redactMembers_eq_map, ← map_snd_zip_of_length length,
        List.map_map]
      refine congrArg Json.obj (List.map_congr_left fun p hp => ?_)
      obtain ⟨⟨name, v⟩, name', w⟩ := p
      obtain rfl : name' = name := names _ hp
      change redactMember (name', w) = (name', w)
      by_cases hsecret : isSecretName name' = true
      · by_cases hvalue : v = .null
        · subst hvalue
          have hw := redacted _ hp (.inr rfl)
          generalize hv : Json.null = v at hw
          cases hw <;> cases hv
          exact redactMember_of_open (.inr rfl)
        · obtain rfl : w = .str secretMark := secret _ hp hsecret hvalue
          exact redactMember_of_secret hsecret nofun
      · have hopen : isSecretName name' = false := Bool.eq_false_iff.2 hsecret
        have hw : redact w = w := ih ((name', v), (name', w)) hp (.inl hopen)
        calc redactMember (name', w)
            = (name', redact w) := redactMember_of_open (.inl hopen)
          _ = (name', w) := by rw [hw]

/-- Redaction is complete: no text that it leaves has an address, a phone
number or a key in it, and what it leaves is a redaction of the value that
redacting again does not change. -/
theorem redaction_is_complete :
    (∀ text, IsClear (redactText text) ∧
      (redactText text = text ↔ IsClear text)) ∧
    ∀ v, (∀ text, (redact v).HasText text → IsClear text) ∧
      Redacted v (redact v) ∧ redact (redact v) = redact v := by
  constructor
  · intro text
    exact ⟨isClear_redactText text, redactText_eq_self_iff⟩
  · intro v
    have hredacted := redacted_redact v
    refine ⟨?_, hredacted, hredacted.redact_eq⟩
    intro text htext
    exact hredacted.isClear htext

/-- The opening bracket of the phone number stood at the end of a word, and
after the mark it does not any more. -/
theorem contact_cleared :
    (redact (.obj [("contact",
        .arr [.str "ops@example.com(415) 555-0100 sk_live1234abcd"])])).HasText
      "[REDACTED_EMAIL]([REDACTED_PHONE] [REDACTED_KEY]" ∧
    IsClear "[REDACTED_EMAIL]([REDACTED_PHONE] [REDACTED_KEY]" := by
  have hvalue :
      redact (.obj [("contact",
        .arr [.str "ops@example.com(415) 555-0100 sk_live1234abcd"])]) =
      .obj [("contact",
        .arr [.str "[REDACTED_EMAIL]([REDACTED_PHONE] [REDACTED_KEY]"])] := by
    decide +kernel
  have htext :
      (redact (.obj [("contact",
        .arr [.str "ops@example.com(415) 555-0100 sk_live1234abcd"])])).HasText
      "[REDACTED_EMAIL]([REDACTED_PHONE] [REDACTED_KEY]" := by
    rw [hvalue]
    exact .member (List.mem_singleton.2 rfl)
      (.item (List.mem_singleton.2 rfl) (.self _))
  exact ⟨htext, (redaction_is_complete.2 _).1 _ htext⟩

end CallGate.Redaction
