import CallGate.Archive.Shelf
import CallGate.Proofs.Archive.RoundTrip
import CallGate.Proofs.Archive.Table

/-!
# Archives and their ledgers

The ledger of an archive is the list of what it accepted, and a rule that
reads nothing but the ledger says what is accepted next.  Whatever is done at
a shelf, each archive accepts what its ledger admits and keeps the rows of
what the ledger lists, however often it is closed and opened again and
whatever is done to other archives in between.
-/

namespace CallGate

/-! ## What a ledger admits -/

/-- A ledger admits a receipt that is small, has a number that fits the table,
and comes after all receipts of its session; and it admits a set of small
outcomes under a name that can be given. -/
def Admits (done : List ArchiveAction) : ArchiveAction → Prop
  | .append session r =>
    ArchiveRecord.IsSmall r.encode ∧ r.sequence < 2 ^ 63 ∧
      ∀ q ∈ receiptsOf session done, q.sequence < r.sequence
  | .save name fixtures =>
    Text.isBlankText name = false ∧
      name.utf8ByteSize ≤ Archive.maxSetNameBytes ∧
      ∀ e ∈ fixtures.entries, ArchiveRecord.IsSmall e.2.encode

instance (v : Json) : Decidable (ArchiveRecord.IsSmall v) :=
  inferInstanceAs (Decidable (_ ≤ _))

instance (done : List ArchiveAction) :
    (action : ArchiveAction) → Decidable (Admits done action)
  | .append _ _ => inferInstanceAs (Decidable (_ ∧ _ ∧ _))
  | .save _ _ => inferInstanceAs (Decidable (_ ∧ _ ∧ _))

namespace Archive

variable {a b : Archive} {done : List ArchiveAction} {action : ArchiveAction}

theorem checkSetName_eq_ok_iff {name : String} :
    checkSetName name = .ok () ↔
      Text.isBlankText name = false ∧ name.utf8ByteSize ≤ maxSetNameBytes := by
  rw [checkSetName]
  cases Text.isBlankText name <;> simp

/-- An archive keeps its ledger: the rows are those of what it lists, and there
is no set that it does not list. -/
structure Kept (a : Archive) (done : List ArchiveAction) : Prop
    extends Holds a done where
  version : a.version = currentVersion
  unsaved : ∀ name, fixturesOf? name done = none →
    a.setSizes.get? name = none ∧ a.setRows name = []

theorem kept_empty : Kept empty [] where
  toHolds := holds_empty
  version := rfl
  unsaved _ _ := ⟨rfl, rfl⟩

/-- The last number of a session is below another one when all of them are. -/
theorem Holds.last_lt_iff (h : Holds a done) {session : String} {r : Receipt} :
    (∀ last, a.last? session = some last → last < r.sequence) ↔
      ∀ q ∈ receiptsOf session done, q.sequence < r.sequence := by
  constructor
  · intro hlast q hq
    have hrow : receiptRow q ∈ (a.session session).entries := by
      rw [h.receipts session]
      exact List.mem_map_of_mem hq
    have hlt := Int.compare_eq_lt.1 (lt_of_last_lt hlast _ hrow)
    exact Int.ofNat_lt.1 hlt
  · intro hall last hlast
    have hmem := List.mem_of_getLast? hlast
    rw [KeyMap.keys, h.receipts session, List.map_map] at hmem
    obtain ⟨q, hq, rfl⟩ := List.mem_map.1 hmem
    exact Int.ofNat_lt.2 (hall q hq)

/-- An archive accepts what its ledger admits. -/
theorem Holds.exists_act_eq_ok_iff (h : Holds a done) :
    (∃ b, a.act action = .ok b) ↔ Admits done action := by
  cases action with
  | append session r =>
      simp only [Archive.act, append_eq_ok_iff, Admits, h.last_lt_iff,
        exists_and_left, exists_eq', and_true]
      rfl
  | save name fixtures =>
      simp only [Archive.act, saveFixtures_eq_ok_iff, checkSetName_eq_ok_iff,
        Admits, exists_and_left, exists_eq', and_true, and_assoc]

theorem version_of_act (hact : a.act action = .ok b) :
    b.version = a.version := by
  cases action with
  | append session r =>
      obtain ⟨-, -, -, rfl⟩ := append_eq_ok_iff.1 hact
      rfl
  | save name fixtures =>
      obtain ⟨-, -, rfl⟩ := saveFixtures_eq_ok_iff.1 hact
      rfl

/-- What is accepted leaves the sets under other names as they are. -/
theorem set_of_act (hact : a.act action = .ok b) {name : String}
    (hother : action.fixtures? name = none) :
    b.setSizes.get? name = a.setSizes.get? name ∧
      b.setRows name = a.setRows name := by
  cases action with
  | append session r =>
      obtain ⟨-, -, -, rfl⟩ := append_eq_ok_iff.1 hact
      exact ⟨rfl, rfl⟩
  | save saved fixtures =>
      have hne : name ≠ saved := by
        rintro rfl
        simp [ArchiveAction.fixtures?] at hother
      exact (replaces_of_saveFixtures hact).others name hne

theorem Kept.act (h : Kept a done) (hact : a.act action = .ok b) :
    Kept b (done ++ [action]) where
  toHolds := h.toHolds.act hact
  version := (version_of_act hact).trans h.version
  unsaved name hname := by
    rw [fixturesOf?_append_singleton, Option.or_eq_none_iff] at hname
    obtain ⟨hsize, hrows⟩ := set_of_act hact hname.1
    rw [hsize, hrows]
    exact h.unsaved name hname.2

end Archive

/-! ## Shelves -/

/-- What is done at a shelf. -/
inductive ShelfAction where
  | opening (path : String)
  | closing
  | acting (action : ArchiveAction)

/-- The state after actions, and which of them were accepted. -/
def runActions {σ : Type} (next : σ → ShelfAction → σ × Bool) (s : σ) :
    List ShelfAction → σ × List Bool
  | [] => (s, [])
  | action :: rest =>
    let after := runActions next (next s action).1 rest
    (after.1, (next s action).2 :: after.2)

/-- States that stay related under each action, which both accept or both
refuse, are related after all actions. -/
theorem runActions_related {σ τ : Type} {next : σ → ShelfAction → σ × Bool}
    {next' : τ → ShelfAction → τ × Bool} {R : σ → τ → Prop}
    (hnext : ∀ s t action, R s t → (next s action).2 = (next' t action).2 ∧
      R (next s action).1 (next' t action).1)
    {s : σ} {t : τ} (h : R s t) (actions : List ShelfAction) :
    (runActions next s actions).2 = (runActions next' t actions).2 ∧
      R (runActions next s actions).1 (runActions next' t actions).1 := by
  induction actions generalizing s t with
  | nil => exact ⟨rfl, h⟩
  | cons action rest ih =>
      obtain ⟨hanswer, hrelated⟩ := hnext s t action h
      obtain ⟨hanswers, hend⟩ := ih hrelated
      exact ⟨congrArg₂ List.cons hanswer hanswers, hend⟩

/-- The path of what is open. -/
def OpenArchive.path : OpenArchive → String
  | .at path => path
  | .transient _ => Shelf.transientPath

namespace Shelf

/-- One action at a shelf, and whether it is accepted.  What is refused leaves
the archive that is open as it is. -/
def next (isDirectory : String → Bool) (s : Shelf) :
    ShelfAction → Shelf × Bool
  | .opening path =>
    match s.close.openAt isDirectory path with
    | .error _ => (s.close, false)
    | .ok opened => (opened, true)
  | .closing => (s.close, true)
  | .acting action =>
    match s.current? with
    | none => (s, false)
    | some a =>
      match a.act action with
      | .error _ => (s, false)
      | .ok b => (s.setCurrent b, true)

/-- The archive at a path.  One that is not there is empty. -/
def archiveAt (s : Shelf) (path : String) : Archive :=
  if path = transientPath then
    match s.opened with
    | some (.transient a) => a
    | _ => .empty
  else (s.archives.get? path).getD .empty

end Shelf

/-- The ledgers of the archives by their paths, and which archive is open. -/
structure Ledgers where
  opened : Option String
  done : String → List ArchiveAction

namespace Ledgers

def empty : Ledgers := ⟨none, fun _ => []⟩

/-- Closes what is open.  The ledger of an archive without a path ends. -/
def close (t : Ledgers) : Ledgers :=
  ⟨none, Function.update t.done Shelf.transientPath []⟩

/-- One action as the ledgers have it, and whether they admit it. -/
def next (isDirectory : String → Bool) (t : Ledgers) :
    ShelfAction → Ledgers × Bool
  | .opening path =>
    match Archive.checkOpening isDirectory path with
    | .error _ => (t.close, false)
    | .ok () => ({ t.close with opened := some path }, true)
  | .closing => (t.close, true)
  | .acting action =>
    match t.opened with
    | none => (t, false)
    | some path =>
      if Admits (t.done path) action then
        ({ t with
          done := Function.update t.done path (t.done path ++ [action]) }, true)
      else (t, false)

end Ledgers

/-- The archives of a shelf keep the ledgers, and the same one is open. -/
structure KeepsLedgers (s : Shelf) (t : Ledgers) : Prop where
  opened : s.opened.map OpenArchive.path = t.opened
  /-- An archive without a path is not taken from the shelf. -/
  apart : s.opened ≠ some (.at Shelf.transientPath)
  current : ∀ path, t.opened = some path → s.current? = some (s.archiveAt path)
  kept : ∀ path, (s.archiveAt path).Kept (t.done path)

namespace KeepsLedgers

variable {s : Shelf} {t : Ledgers} {isDirectory : String → Bool}

theorem empty : KeepsLedgers .empty .empty where
  opened := rfl
  apart := nofun
  current := nofun
  kept path := by
    have hempty : Shelf.empty.archiveAt path = .empty := by
      rw [Shelf.archiveAt]
      split <;> rfl
    rw [hempty]
    exact Archive.kept_empty

theorem archiveAt_close (s : Shelf) (path : String) :
    s.close.archiveAt path =
      if path = Shelf.transientPath then .empty else s.archiveAt path := by
  rw [Shelf.archiveAt, Shelf.archiveAt]
  split <;> rfl

theorem close (h : KeepsLedgers s t) : KeepsLedgers s.close t.close where
  opened := rfl
  apart := nofun
  current := nofun
  kept path := by
    rw [archiveAt_close, Ledgers.close]
    dsimp only
    rw [Function.update_apply]
    split
    · exact Archive.kept_empty
    · exact h.kept path

/-- Another archive is open, and no archive changes. -/
theorem reopened (h : KeepsLedgers s t) {s' : Shelf} {path : String}
    (hopened : s'.opened.map OpenArchive.path = some path)
    (hapart : s'.opened ≠ some (.at Shelf.transientPath))
    (hcurrent : s'.current? = some (s.archiveAt path))
    (hsame : ∀ other, s'.archiveAt other = s.archiveAt other) :
    KeepsLedgers s' { t with opened := some path } where
  opened := hopened
  apart := hapart
  current := by
    rintro _ ⟨⟩
    rw [hcurrent, hsame]
  kept other := by
    rw [hsame]
    exact h.kept other

theorem archiveAt_of_ne (s : Shelf) {path : String}
    (hne : path ≠ Shelf.transientPath) :
    s.archiveAt path = (s.archives.get? path).getD .empty := if_neg hne

theorem archiveAt_eq_of_get? {s s' : Shelf}
    (htransient : s'.archiveAt Shelf.transientPath =
      s.archiveAt Shelf.transientPath)
    (hget : ∀ path, (s'.archives.get? path).getD .empty =
      (s.archives.get? path).getD .empty) (path : String) :
    s'.archiveAt path = s.archiveAt path := by
  by_cases heq : path = Shelf.transientPath
  · rw [heq, htransient]
  · rw [archiveAt_of_ne _ heq, archiveAt_of_ne _ heq, hget]

/-- An archive that can be opened is open then, and no archive changes.  No
action changes the version of an archive, so it is not refused for that. -/
theorem openAt (h : KeepsLedgers s t) (hclosed : s.opened = none)
    {path : String} (hcheck : Archive.checkOpening isDirectory path = .ok ()) :
    ∃ s', s.openAt isDirectory path = .ok s' ∧
    KeepsLedgers s' { t with opened := some path } := by
  have htransientEmpty : s.archiveAt Shelf.transientPath = .empty := by
    rw [Shelf.archiveAt, if_pos rfl, hclosed]
  rw [Shelf.openAt, hcheck]
  dsimp only
  by_cases htransient : path = Shelf.transientPath
  · refine ⟨_, if_pos htransient, ?_⟩
    subst htransient
    refine h.reopened rfl nofun (congrArg some htransientEmpty.symm) ?_
    exact archiveAt_eq_of_get? htransientEmpty.symm fun _ => rfl
  have hapart : some (OpenArchive.at path) ≠
      some (.at Shelf.transientPath) := by
    rintro ⟨⟩
    exact htransient rfl
  rw [if_neg htransient]
  cases harchive : s.archives.get? path with
  | none =>
      have hempty : s.archiveAt path = .empty := by
        rw [archiveAt_of_ne s htransient, harchive, Option.getD_none]
      refine ⟨_, rfl, h.reopened rfl hapart ?_ ?_⟩
      · rw [hempty]
        exact KeyMap.get?_insert_self _ _ _
      · refine archiveAt_eq_of_get? htransientEmpty.symm fun other => ?_
        rw [KeyMap.get?_insert]
        split
        · rename_i heq
          rw [heq, harchive]
          rfl
        · rfl
  | some a =>
      have ha : s.archiveAt path = a := by
        rw [archiveAt_of_ne s htransient, harchive, Option.getD_some]
      have hversion : a.checkVersion = .ok () := by
        rw [Archive.checkVersion, if_pos]
        rw [← ha]
        exact (h.kept path).version
      refine ⟨⟨s.archives, some (.at path)⟩, ?_, h.reopened rfl hapart ?_ ?_⟩
      · dsimp only
        rw [hversion]
        rfl
      · rw [ha]
        exact harchive
      · exact archiveAt_eq_of_get? htransientEmpty.symm fun _ => rfl

/-- An archive that is open changes with what it accepts, and no other one. -/
theorem archiveAt_setCurrent (h : KeepsLedgers s t) {path : String}
    (hopened : t.opened = some path) (b : Archive) (other : String) :
    (s.setCurrent b).archiveAt other =
      if other = path then b else s.archiveAt other := by
  have hpath := h.opened
  have hapart := h.apart
  rw [hopened] at hpath
  rw [Shelf.archiveAt, Shelf.archiveAt, Shelf.setCurrent]
  cases hs : s.opened with
  | none =>
      rw [hs] at hpath
      cases hpath
  | some what =>
      rw [hs] at hpath hapart
      cases what with
      | «at» p =>
          have hp : p = path := Option.some.inj hpath
          subst hp
          have hne : p ≠ Shelf.transientPath := by
            rintro rfl
            exact hapart rfl
          dsimp only
          rw [KeyMap.get?_insert]
          by_cases hother : other = p
          · rw [if_pos hother, if_pos hother, if_neg (hother ▸ hne)]
            rfl
          · rw [if_neg hother, if_neg hother]
      | transient a =>
          have hp : Shelf.transientPath = path := Option.some.inj hpath
          subst hp
          dsimp only
          split <;> rfl

theorem setCurrent (h : KeepsLedgers s t) {path : String}
    (hopened : t.opened = some path) {b : Archive} {done : List ArchiveAction}
    (hb : b.Kept done) :
    KeepsLedgers (s.setCurrent b)
      { t with done := Function.update t.done path done } where
  opened := by
    rw [← h.opened, Shelf.setCurrent]
    cases hs : s.opened with
    | none => exact congrArg _ hs
    | some what => cases what <;> simp [OpenArchive.path]
  apart := by
    have hapart := h.apart
    rw [Shelf.setCurrent]
    cases hs : s.opened with
    | none => simp [hs]
    | some what => cases what <;> simp_all
  current := by
    intro other hother
    have hsame : other = path := Option.some.inj (hother.symm.trans hopened)
    have hpath := h.opened
    rw [h.archiveAt_setCurrent hopened, if_pos hsame, Shelf.setCurrent,
      Shelf.current?]
    cases hs : s.opened with
    | none =>
        rw [hs, hopened] at hpath
        cases hpath
    | some what =>
        cases what with
        | «at» p => simp
        | transient a => rfl
  kept other := by
    rw [h.archiveAt_setCurrent hopened]
    dsimp only
    rw [Function.update_apply]
    split
    · exact hb
    · exact h.kept other

theorem next (s : Shelf) (t : Ledgers) (action : ShelfAction)
    (h : KeepsLedgers s t) :
    (s.next isDirectory action).2 = (t.next isDirectory action).2 ∧
      KeepsLedgers (s.next isDirectory action).1
        (t.next isDirectory action).1 := by
  cases action with
  | opening path =>
      rw [Shelf.next, Ledgers.next]
      cases hcheck : Archive.checkOpening isDirectory path with
      | error e =>
          have herror : s.close.openAt isDirectory path = .error e := by
            rw [Shelf.openAt, hcheck]
          rw [herror]
          exact ⟨rfl, h.close⟩
      | ok _ =>
          obtain ⟨s', hopen, hkeeps⟩ := h.close.openAt rfl hcheck
          rw [hopen]
          exact ⟨rfl, hkeeps⟩
  | closing => exact ⟨rfl, h.close⟩
  | acting action =>
      rw [Shelf.next, Ledgers.next]
      cases hopened : t.opened with
      | none =>
          have hcurrent : s.current? = none := by
            have hnone := h.opened
            rw [hopened, Option.map_eq_none_iff] at hnone
            rw [Shelf.current?, hnone]
          rw [hcurrent]
          exact ⟨rfl, h⟩
      | some path =>
          have hkept := h.kept path
          rw [h.current path hopened]
          dsimp only
          by_cases hadmits : Admits (t.done path) action
          · obtain ⟨b, hact⟩ := hkept.exists_act_eq_ok_iff.2 hadmits
            have hkeeps := h.setCurrent hopened (hkept.act hact)
            rw [hact, if_pos hadmits]
            rw [hopened] at hkeeps
            exact ⟨rfl, hkeeps⟩
          · rw [if_neg hadmits]
            cases hact : (s.archiveAt path).act action with
            | error e => exact ⟨rfl, h⟩
            | ok b =>
                exact absurd (hkept.exists_act_eq_ok_iff.1 ⟨b, hact⟩) hadmits

/-- What is done to the archive that is open is accepted when its ledger admits
it. -/
theorem accepted_iff (h : KeepsLedgers s t) {path : String}
    (hopened : t.opened = some path) {action : ArchiveAction} :
    (s.next isDirectory (.acting action)).2 = true ↔
      Admits (t.done path) action := by
  rw [(next s t (.acting action) h).1, Ledgers.next, hopened]
  by_cases hadmits : Admits (t.done path) action <;> simp [hadmits]

/-- The archive that is open becomes what the action makes of it. -/
theorem act_eq_ok_iff (h : KeepsLedgers s t) {path : String}
    (hopened : t.opened = some path) {action : ArchiveAction} {b : Archive} :
    (s.archiveAt path).act action = .ok b ↔
      (s.next isDirectory (.acting action)).2 = true ∧
        (s.next isDirectory (.acting action)).1.archiveAt path = b := by
  rw [Shelf.next, h.current path hopened]
  dsimp only
  cases (s.archiveAt path).act action with
  | error e => exact ⟨nofun, nofun⟩
  | ok c =>
      have hc := h.archiveAt_setCurrent hopened c path
      rw [if_pos rfl] at hc
      dsimp only
      rw [hc, and_iff_right rfl, Except.ok.injEq]

/-- No other archive changes. -/
theorem archiveAt_next_of_ne (h : KeepsLedgers s t) {path : String}
    (hopened : t.opened = some path) {action : ArchiveAction} {other : String}
    (hne : other ≠ path) :
    (s.next isDirectory (.acting action)).1.archiveAt other =
      s.archiveAt other := by
  rw [Shelf.next, h.current path hopened]
  dsimp only
  cases (s.archiveAt path).act action with
  | error e => rfl
  | ok c => exact (h.archiveAt_setCurrent hopened c other).trans (if_neg hne)

/-- Archives keep their ledgers, and accept what these admit, whatever is
done. -/
theorem run (isDirectory : String → Bool) (actions : List ShelfAction) :
    let s := runActions (Shelf.next isDirectory) .empty actions
    let t := runActions (Ledgers.next isDirectory) .empty actions
    s.2 = t.2 ∧ KeepsLedgers s.1 t.1 :=
  runActions_related next empty actions

end KeepsLedgers

/-- What is refused leaves the archive that is open as it is. -/
theorem Shelf.next_of_refused {isDirectory : String → Bool} {s : Shelf}
    {action : ArchiveAction}
    (h : (s.next isDirectory (.acting action)).2 = false) :
    (s.next isDirectory (.acting action)).1 = s := by
  rw [next] at h ⊢
  cases hcurrent : s.current? with
  | none => rfl
  | some a =>
      rw [hcurrent] at h
      dsimp only at h ⊢
      cases hact : a.act action with
      | error e => rfl
      | ok b =>
          rw [hact] at h
          cases h

end CallGate
