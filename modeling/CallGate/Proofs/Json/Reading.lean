import CallGate.Json.Reader
import CallGate.Json.Written
import CallGate.Proofs.Json.Quoted
import CallGate.Proofs.Number.Notation

/-!
# Reading what was put together

The reader takes the text of an array or an object apart into the texts of
its parts: when each part is read as a tree, the whole is read as the tree of
those trees, unless too many arrays and objects are open around it.
-/

namespace CallGate.Json

variable {depth fuel : ℕ} {text rest : List Char} {stack : List Frame}

/-- An array or object with a number of others open around it. -/
def insideAt (depth : ℕ) (t : Tree) : Tree :=
  if depth < maxDepth then t else .illegible true

theorem inside_eq_insideAt (stack : List Frame) (t : Tree) :
    inside stack t = insideAt stack.length t := by
  have hiff : (stack.take maxDepth).length < maxDepth ↔
      stack.length < maxDepth := by
    rw [List.length_take]
    omega
  rw [inside, insideAt]
  simp only [hiff]

/-- What may come next is a value. -/
def Expected.IsValue : Expected → Prop
  | .value | .firstItem => True
  | _ => False

theorem takeWord_of_isValue (stack : List Frame) {e : Expected} {word : Word}
    (he : e.IsValue) (hword : word ≠ .closeBracket) :
    takeWord stack e word = openValue stack word := by
  cases e with
  | value => rw [takeWord]
  | firstItem =>
      rw [takeWord]
      intro before more hclose
      exact absurd hclose hword
  | firstName => exact he.elim
  | name => exact he.elim
  | colon => exact he.elim
  | next t => exact he.elim

/-- One word is taken. -/
theorem readOn_word {c : Char} {e e' : Expected} {word : Word}
    {stack' : List Frame} (hc : isSpace c = false)
    (hscan : scanWord (c :: text) = some (word, rest))
    (htake : takeWord stack e word = some (stack', e')) :
    readOn (fuel + 1) stack e (c :: text) = readOn fuel stack' e' rest := by
  have hdrop : (c :: text).dropWhile isSpace = c :: text :=
    List.dropWhile_cons_of_neg (by simp [hc])
  rw [readOn]
  · rw [hdrop, hscan]
    simp only [htake]
  · intro t hnil
    rw [hdrop] at hnil
    cases hnil

/-- The text of a value, with a number of arrays and objects open around it,
is read as a tree. -/
def ReadsAs (depth : ℕ) (text : List Char) (t : Tree) : Prop :=
  ∃ words ≤ text.length, ∀ stack : List Frame, stack.length = depth →
    ∀ e : Expected, e.IsValue → ∀ fuel rest, EndsNumber rest →
      readOn (fuel + words) stack e (text ++ rest) =
        readOn fuel stack (.next t) rest

/-- A text that is read as a tree is read on its own. -/
theorem ReadsAs.readChars_eq {t : Tree} (h : ReadsAs 0 text t) :
    readChars text = .whole t := by
  obtain ⟨words, hwords, hread⟩ := h
  have hwhole := hread [] rfl .value trivial (text.length - words + 1) [] nofun
  have hfuel : text.length - words + 1 + words = text.length + 1 := by omega
  rw [hfuel, List.append_nil] at hwhole
  rw [readChars, hwhole, readOn]
  rfl

/-! ## Words -/

theorem readsAs_of_scanWord (word : Word) {c : Char} {t : Tree}
    (hc : isSpace c = false) (hword : word ≠ .closeBracket)
    (hopen : ∀ stack, openValue stack word = some (stack, .next t))
    (hscan : ∀ rest, EndsNumber rest →
      scanWord (c :: text ++ rest) = some (word, rest)) :
    ReadsAs depth (c :: text) t := by
  refine ⟨1, by simp, ?_⟩
  intro stack _ e he fuel rest hrest
  have htake := takeWord_of_isValue stack he hword
  rw [hopen] at htake
  exact readOn_word hc (hscan rest hrest) htake

theorem readsAs_null : ReadsAs depth nullText .null :=
  readsAs_of_scanWord (.atom .null) rfl nofun (fun _ => rfl)
    fun _ _ => rfl

theorem readsAs_bool (b : Bool) : ReadsAs depth (boolText b) (.bool b) := by
  cases b with
  | true =>
      exact readsAs_of_scanWord (.atom (.bool true)) rfl nofun
        (fun _ => rfl) fun _ _ => rfl
  | false =>
      exact readsAs_of_scanWord (.atom (.bool false)) rfl nofun
        (fun _ => rfl) fun _ _ => rfl

theorem readsAs_quoted (s : String) : ReadsAs depth (quoted s) (.str s) :=
  readsAs_of_scanWord (.text (some s)) rfl nofun (fun _ => rfl)
    fun _ _ => scanWord_quoted s

/-- What is read as a number starts with a minus sign or a digit. -/
theorem head_of_scanNumber {c : Char} {result : Tree × List Char}
    (h : scanNumber (c :: text) = some result) :
    c = '-' ∨ c.isDigit = true := by
  by_contra hneither
  rw [not_or] at hneither
  obtain ⟨hminus, hdigit⟩ := hneither
  rw [scanNumber] at h
  · rw [List.takeWhile_cons_of_neg hdigit] at h
    cases h
  · intro more heq
    cases heq
    exact hminus rfl

/-- A word that starts like a number is one. -/
theorem scanWord_number {c : Char} (hc : c = '-' ∨ c.isDigit = true) :
    scanWord (c :: text) =
      (scanNumber (c :: text)).map fun (t, rest) => (.atom t, rest) := by
  rw [scanWord]
  · exact List.cons_ne_nil c text
  all_goals
    rintro more ⟨⟩
    revert hc
    decide

theorem readsAs_number {n : Number} (hn : n.IsValid) :
    ReadsAs depth (n.written .canonical) (.num n.settled) := by
  have hscan : ∀ rest, EndsNumber rest →
      scanNumber (n.written .canonical ++ rest) =
        some (.num n.settled, rest) :=
    fun rest hrest => scanNumber_written hn hrest
  cases hwritten : n.written .canonical with
  | nil =>
      have hnil := hscan [] nofun
      rw [hwritten] at hnil
      cases hnil
  | cons c more =>
      rw [hwritten] at hscan
      have hhead := head_of_scanNumber (hscan [] nofun)
      have hspace : isSpace c = false := by
        rw [isSpace]
        rcases hhead with rfl | hdigit
        · rfl
        · have hne : ∀ d : Char, d.isDigit = false → c ≠ d := by
            rintro d hd rfl
            rw [hdigit] at hd
            cases hd
          simp [hne ' ' rfl, hne '\t' rfl, hne '\n' rfl, hne '\r' rfl]
      apply readsAs_of_scanWord (.atom (.num n.settled)) hspace nofun
        fun _ => rfl
      intro rest hrest
      rw [List.cons_append, scanWord_number hhead, ← List.cons_append,
        hscan rest hrest]
      rfl

/-! ## Arrays -/

theorem endsNumber_of_head {c : Char} (h : c = ',' ∨ c = ']' ∨ c = '}') :
    EndsNumber (c :: rest) := by
  rintro d ⟨⟩
  rcases h with rfl | rfl | rfl <;> decide

theorem commaSeparated_cons (part next : List Char) (parts : List (List Char)) :
    commaSeparated (part :: next :: parts) =
      part ++ ',' :: commaSeparated (next :: parts) := by
  simp [commaSeparated, List.intercalate]

/-- The items of an array are read one after the other. -/
theorem readOn_items {part : List Char} {t : Tree}
    {parts : List (List Char)} {ts : List Tree}
    (hpart : ReadsAs (depth + 1) part t)
    (hparts : List.Forall₂ (ReadsAs (depth + 1)) parts ts) :
    ∃ words ≤ (commaSeparated (part :: parts)).length + 1,
      ∀ stack : List Frame, stack.length = depth → ∀ before,
        ∀ e : Expected, e.IsValue → ∀ fuel rest,
          readOn (fuel + words) (.items before :: stack) e
              (commaSeparated (part :: parts) ++ ']' :: rest) =
            readOn fuel stack
              (.next (insideAt depth (.arr (before.reverse ++ t :: ts))))
              rest := by
  induction hparts generalizing part t with
  | nil =>
      obtain ⟨words, hwords, hread⟩ := hpart
      refine ⟨words + 1, by simpa [commaSeparated] using hwords, ?_⟩
      intro stack hstack before e he fuel rest
      have hlast : readOn (fuel + 1) (.items before :: stack) (.next t)
          (']' :: rest) = _ :=
        readOn_word rfl rfl rfl
      rw [← Nat.add_assoc, Nat.add_right_comm, commaSeparated,
        List.intercalate_singleton,
        hread _ (by simp [hstack]) e he _ _ (endsNumber_of_head (by simp)),
        hlast, inside_eq_insideAt, hstack, List.reverse_cons]
  | @cons next u parts ts hnext _ ih =>
      obtain ⟨words, hwords, hread⟩ := hpart
      obtain ⟨more, hmore, hreadMore⟩ := ih hnext
      refine ⟨words + 1 + more, ?_, ?_⟩
      · rw [commaSeparated_cons, List.length_append, List.length_cons]
        omega
      intro stack hstack before e he fuel rest
      have hcomma : readOn (fuel + more + 1) (.items before :: stack) (.next t)
          (',' :: (commaSeparated (next :: parts) ++ ']' :: rest)) = _ :=
        readOn_word rfl rfl rfl
      have hfuel : fuel + (words + 1 + more) = fuel + more + 1 + words := by
        omega
      rw [commaSeparated_cons, List.append_assoc, List.cons_append, hfuel,
        hread _ (by simp [hstack]) e he _ _ (endsNumber_of_head (by simp)),
        hcomma, hreadMore stack hstack (t :: before) .value trivial,
        List.reverse_cons, List.append_assoc, List.singleton_append]

theorem readsAs_bracketed {parts : List (List Char)} {ts : List Tree}
    (h : List.Forall₂ (ReadsAs (depth + 1)) parts ts) :
    ReadsAs depth (bracketed parts) (insideAt depth (.arr ts)) := by
  cases h with
  | nil =>
      refine ⟨2, by simp [bracketed], ?_⟩
      intro stack hstack e he fuel rest _
      have hopen : readOn (fuel + 2) stack e ('[' :: ']' :: rest) = _ :=
        readOn_word rfl rfl (takeWord_of_isValue _ he nofun)
      have hclose : readOn (fuel + 1) (.items [] :: stack) .firstItem
          (']' :: rest) = _ :=
        readOn_word rfl rfl rfl
      rw [bracketed, commaSeparated, List.intercalate_nil, List.nil_append,
        List.cons_append, List.singleton_append, hopen, hclose,
        inside_eq_insideAt, hstack]
  | @cons part t parts ts hpart hparts =>
      obtain ⟨words, hwords, hread⟩ := readOn_items hpart hparts
      refine ⟨words + 1, ?_, ?_⟩
      · rw [bracketed, List.length_cons, List.length_append,
          List.length_singleton]
        omega
      intro stack hstack e he fuel rest _
      have hopen : readOn (fuel + words + 1) stack e
          ('[' :: (commaSeparated (part :: parts) ++ ']' :: rest)) = _ :=
        readOn_word rfl rfl (takeWord_of_isValue _ he nofun)
      rw [bracketed, List.cons_append, List.append_assoc,
        List.singleton_append, ← Nat.add_assoc, hopen,
        hread stack hstack [] .firstItem trivial, List.reverse_nil,
        List.nil_append]

/-! ## Objects -/

/-- A member, its name quoted, is read as a tree under a name. -/
def MemberReadsAs (depth : ℕ) (part : List Char × List Char)
    (member : String × Tree) : Prop :=
  part.1 = quoted member.1 ∧ ReadsAs depth part.2 member.2

/-- Members of an object as they are spelled. -/
def spelledMembers (members : List (String × Tree)) :
    List (Option String × Tree) :=
  members.map fun m => (some m.1, m.2)

/-- A name and the colon behind it are read before the value. -/
theorem readOn_name {name : String} {before : List (Option String × Tree)}
    {e : Expected} (he : e = .firstName ∨ e = .name) :
    readOn (fuel + 2) (.members before :: stack) e
        (quoted name ++ ':' :: rest) =
      readOn fuel (.member before (some name) :: stack) .value rest := by
  have hname : readOn (fuel + 2) (.members before :: stack) e
      (quoted name ++ ':' :: rest) =
        readOn (fuel + 1) (.member before (some name) :: stack) .colon
          (':' :: rest) := by
    rw [quoted, List.cons_append]
    apply readOn_word rfl
    · exact scanWord_quoted name
    · rcases he with rfl | rfl <;> rfl
  have hcolon : readOn (fuel + 1) (.member before (some name) :: stack) .colon
      (':' :: rest) = _ :=
    readOn_word rfl rfl rfl
  rw [hname, hcolon]

/-- The members of an object are read one after the other. -/
theorem readOn_members {part : List Char × List Char} {member : String × Tree}
    {parts : List (List Char × List Char)} {members : List (String × Tree)}
    (hpart : MemberReadsAs (depth + 1) part member)
    (hparts : List.Forall₂ (MemberReadsAs (depth + 1)) parts members) :
    ∃ words ≤ (commaSeparated ((part :: parts).map memberText)).length + 1,
      ∀ stack : List Frame, stack.length = depth → ∀ before,
        ∀ e : Expected, (e = .firstName ∨ e = .name) → ∀ fuel rest,
          readOn (fuel + words) (.members before :: stack) e
              (commaSeparated ((part :: parts).map memberText) ++
                '}' :: rest) =
            readOn fuel stack
              (.next (insideAt depth (.obj (before.reverse ++
                spelledMembers (member :: members))))) rest := by
  induction hparts generalizing part member with
  | nil =>
      obtain ⟨hname, words, hwords, hread⟩ := hpart
      have hquoted : 1 ≤ part.1.length := by simp [hname, quoted]
      refine ⟨words + 1 + 2, ?_, ?_⟩
      · simp [commaSeparated, memberText]
        omega
      intro stack hstack before e he fuel rest
      have hlast : readOn (fuel + 1) (.member before (some member.1) :: stack)
          (.next member.2) ('}' :: rest) = _ :=
        readOn_word rfl rfl rfl
      rw [← Nat.add_assoc, List.map_singleton, commaSeparated,
        List.intercalate_singleton, memberText, List.append_assoc,
        List.cons_append, hname, readOn_name he, ← Nat.add_assoc,
        Nat.add_right_comm, hread _ (by simp [hstack]) .value trivial _ _
          (endsNumber_of_head (by simp)), hlast, inside_eq_insideAt, hstack,
        List.reverse_cons]
      rfl
  | @cons next u parts members hnext _ ih =>
      obtain ⟨hname, words, hwords, hread⟩ := hpart
      obtain ⟨more, hmore, hreadMore⟩ := ih hnext
      have hquoted : 1 ≤ part.1.length := by simp [hname, quoted]
      rw [List.map_cons, List.map_cons] at *
      refine ⟨words + 1 + more + 2, ?_, ?_⟩
      · rw [commaSeparated_cons, List.length_append, List.length_cons,
          memberText, List.length_append, List.length_cons]
        omega
      intro stack hstack before e he fuel rest
      have hcomma : readOn (fuel + more + 1)
          (.member before (some member.1) :: stack) (.next member.2)
          (',' :: (commaSeparated (memberText next :: parts.map memberText) ++
            '}' :: rest)) = _ :=
        readOn_word rfl rfl rfl
      have hfuel : fuel + (words + 1 + more) = fuel + more + 1 + words := by
        omega
      rw [← Nat.add_assoc, commaSeparated_cons, List.append_assoc,
        List.cons_append]
      nth_rewrite 1 [memberText]
      rw [List.append_assoc, List.cons_append, hname, readOn_name he, hfuel,
        hread _ (by simp [hstack]) .value trivial _ _
          (endsNumber_of_head (by simp)), hcomma,
        hreadMore stack hstack _ .name (Or.inr rfl), List.reverse_cons,
        List.append_assoc]
      rfl

theorem readsAs_braced {parts : List (List Char × List Char)}
    {members : List (String × Tree)}
    (h : List.Forall₂ (MemberReadsAs (depth + 1)) parts members) :
    ReadsAs depth (braced parts)
      (insideAt depth (.obj (spelledMembers members))) := by
  cases h with
  | nil =>
      refine ⟨2, by simp [braced], ?_⟩
      intro stack hstack e he fuel rest _
      have hopen : readOn (fuel + 2) stack e ('{' :: '}' :: rest) = _ :=
        readOn_word rfl rfl (takeWord_of_isValue _ he nofun)
      have hclose : readOn (fuel + 1) (.members [] :: stack) .firstName
          ('}' :: rest) = _ :=
        readOn_word rfl rfl rfl
      rw [braced, List.map_nil, commaSeparated, List.intercalate_nil,
        List.nil_append, List.cons_append, List.singleton_append, hopen,
        hclose, inside_eq_insideAt, hstack]
      rfl
  | @cons part member parts members hpart hparts =>
      obtain ⟨words, hwords, hread⟩ := readOn_members hpart hparts
      refine ⟨words + 1, ?_, ?_⟩
      · rw [braced, List.length_cons, List.length_append,
          List.length_singleton]
        omega
      intro stack hstack e he fuel rest _
      have hopen : readOn (fuel + words + 1) stack e
          ('{' :: (commaSeparated ((part :: parts).map memberText) ++
            '}' :: rest)) = _ :=
        readOn_word rfl rfl (takeWord_of_isValue _ he nofun)
      rw [braced, List.cons_append, List.append_assoc, List.singleton_append,
        ← Nat.add_assoc, hopen, hread stack hstack [] .firstName (Or.inl rfl),
        List.reverse_nil, List.nil_append]

end CallGate.Json
