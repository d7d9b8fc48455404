import CallGate.Proofs.Archive.Sets

/-!
# The sets that an archive keeps

A set is kept by statements that are carried out one after the other: the old
rows go, the size is written, and then each row is put in.  None of them is
refused once all outcomes are known to be small, so a set takes the place of
the old one as a whole or not at all, and no other set changes.
-/

namespace CallGate

/-- A statement about the rows of a set. -/
inductive SetStatement where
  | clear (name : String)
  | putSize (name : String) (size : ℕ)
  | putRow (name fingerprint : String) (record : ArchiveRecord)

namespace Archive

variable {a b : Archive} {done : List ArchiveAction} {name : String}

/-! ## Statements -/

/-- The archive after a statement.  A row is refused when its set has no size,
and when its fingerprint has a row already. -/
def execute (a : Archive) : SetStatement → Except ArchiveError Archive
  | .clear name =>
    .ok { a with fixtures := a.fixtures.insert name KeyMap.empty }
  | .putSize name size =>
    .ok { a with setSizes := a.setSizes.insert name size }
  | .putRow name fingerprint record =>
    if a.setSizes.contains name then a.insertFixture name fingerprint record
    else .error .unopenable

/-- The archive after all of the statements, unless one of them is refused. -/
def transact (a : Archive) : List SetStatement → Except ArchiveError Archive
  | [] => .ok a
  | statement :: rest =>
    match a.execute statement with
    | .error e => .error e
    | .ok b => b.transact rest

/-- The statements that put rows in the place of a set. -/
def replacing (name : String) (records : List (String × ArchiveRecord)) :
    List SetStatement :=
  .clear name :: .putSize name records.length ::
    records.map fun r => .putRow name r.1 r.2

/-- Rows with different fingerprints that are new to a set are put in. -/
theorem transact_putRow {rows : KeyMap String ArchiveRecord}
    {records : List (String × ArchiveRecord)}
    (hsize : a.setSizes.contains name = true)
    (hrows : a.fixtures.get? name = some rows)
    (hnew : ∀ r ∈ records, rows.get? r.1 = none)
    (hdistinct : (records.map (·.1)).Nodup) :
    a.transact (records.map fun r => .putRow name r.1 r.2) =
      .ok { a with
        fixtures := a.fixtures.insert name (rows.insertAll records) } := by
  induction records generalizing a rows with
  | nil =>
      have hsame : a.fixtures.insert name rows = a.fixtures :=
        KeyMap.insert_of_get? hrows
      exact congrArg (fun m => Except.ok { a with fixtures := m }) hsame.symm
  | cons r rest ih =>
      obtain ⟨hfirst, hrest⟩ := List.forall_mem_cons.1 hnew
      obtain ⟨hapart, hdistinct⟩ := List.nodup_cons.1 hdistinct
      have habsent : rows.contains r.1 = false := by
        rw [KeyMap.contains_eq_isSome, hfirst, Option.isSome_none]
      have hput : a.execute (.putRow name r.1 r.2) = .ok { a with
          fixtures := a.fixtures.insert name (rows.insert r.1 r.2) } := by
        rw [execute, if_pos hsize, insertFixture, hrows]
        exact if_neg (by simp [habsent])
      have hlater : ∀ q ∈ rest, (rows.insert r.1 r.2).get? q.1 = none := by
        intro q hq
        have hne : q.1 ≠ r.1 :=
          fun heq => hapart (List.mem_map.2 ⟨q, hq, heq⟩)
        rw [KeyMap.get?_insert_of_ne rows hne]
        exact hrest q hq
      rw [List.map_cons, transact, hput]
      dsimp only
      rw [ih (by exact hsize) (by exact KeyMap.get?_insert_self _ _ _) hlater
        hdistinct]
      dsimp only
      rw [KeyMap.insert_insert]
      rfl

/-- The statements leave the whole of the rows, and their number. -/
theorem transact_replacing (a : Archive) (name : String)
    {records : List (String × ArchiveRecord)}
    (hdistinct : (records.map (·.1)).Nodup) :
    a.transact (replacing name records) = .ok { a with
      setSizes := a.setSizes.insert name records.length
      fixtures := a.fixtures.insert name (KeyMap.ofList records) } := by
  have hsize : (a.setSizes.insert name records.length).contains name =
      true := by
    rw [KeyMap.contains_eq_isSome, KeyMap.get?_insert_self, Option.isSome_some]
  have hrows : (a.fixtures.insert name KeyMap.empty).get? name =
      some KeyMap.empty :=
    KeyMap.get?_insert_self _ _ _
  rw [replacing, transact, execute]
  dsimp only
  rw [transact, execute]
  dsimp only
  rw [transact_putRow (by exact hsize) (by exact hrows) (fun _ _ => rfl)
    hdistinct]
  dsimp only
  rw [KeyMap.insert_insert]
  rfl

/-- Keeps a set by statements, once its name and its outcomes are checked. -/
def replaceSet (a : Archive) (name : String) (fixtures : Fixtures) :
    Except ArchiveError Archive :=
  match checkSetName name with
  | .error e => .error e
  | .ok () =>
    match recordsOf fixtures.entries with
    | .error e => .error e
    | .ok records => a.transact (replacing name records)

theorem replaceSet_eq_saveFixtures (a : Archive) (name : String)
    (fixtures : Fixtures) :
    a.replaceSet name fixtures = a.saveFixtures name fixtures := by
  rw [replaceSet, saveFixtures]
  cases checkSetName name with
  | error e => rfl
  | ok _ =>
      dsimp only
      cases hrecords : recordsOf fixtures.entries with
      | error e => rfl
      | ok records =>
          obtain ⟨-, rfl⟩ := recordsOf_eq_ok_iff.1 hrecords
          exact transact_replacing a name (ascending_outcomeRows fixtures).nodup

end Archive

open Archive

/-- Whatever is done at a shelf, all of it is accepted that the ledgers admit,
and what is refused changes nothing.  A set under a name that can be given is
accepted when its outcomes are small.  It takes the place of the set under its
name, in its archive and nowhere else, and its statements come to the same.
Each name has the rows of the last set that was accepted under it.  When a
name that can be given has none, and only then, loading finds no set; and the
number of rows is always right. -/
theorem sets_replaced_as_a_whole (isDirectory : String → Bool)
    (actions : List ShelfAction) :
    let s := runActions (Shelf.next isDirectory) .empty actions
    let t := runActions (Ledgers.next isDirectory) .empty actions
    s.2 = t.2 ∧
    (∀ action, (s.1.next isDirectory (.acting action)).2 = false →
      (s.1.next isDirectory (.acting action)).1 = s.1) ∧
    (∀ path, t.1.opened = some path → ∀ name fixtures,
      let before := s.1.archiveAt path
      let saved := s.1.next isDirectory (.acting (.save name fixtures))
      let after := saved.1.archiveAt path
      (saved.2 = true ↔ Text.isBlankText name = false ∧
        name.utf8ByteSize ≤ maxSetNameBytes ∧
        ∀ e ∈ fixtures.entries, ArchiveRecord.IsSmall e.2.encode) ∧
      (∀ b, before.replaceSet name fixtures = .ok b ↔
        saved.2 = true ∧ after = b) ∧
      (saved.2 = true → Replaces before after name fixtures) ∧
      ∀ other, other ≠ path →
        saved.1.archiveAt other = s.1.archiveAt other) ∧
    ∀ path name,
      let a := s.1.archiveAt path
      let last := fixturesOf? name (t.1.done path)
      (∀ fixtures, last = some fixtures →
        a.setSizes.get? name = some fixtures.entries.length ∧
        a.setRows name = fixtures.entries.map outcomeRow) ∧
      (a.loadFixtures name = .ok none ↔
        (Text.isBlankText name = false ∧
          name.utf8ByteSize ≤ maxSetNameBytes) ∧ last = none) ∧
      ∀ set expected found,
        a.loadFixtures name ≠ .error (.entryCount set expected found) := by
  intro s t
  obtain ⟨hanswers, hkeeps⟩ : s.2 = t.2 ∧ KeepsLedgers s.1 t.1 :=
    KeepsLedgers.run isDirectory actions
  refine ⟨hanswers, fun _ => Shelf.next_of_refused, ?_, ?_⟩
  · intro path hopened name fixtures before saved after
    have hsave (b : Archive) : before.act (.save name fixtures) = .ok b ↔
        saved.2 = true ∧ after = b :=
      hkeeps.act_eq_ok_iff hopened
    refine ⟨hkeeps.accepted_iff hopened, ?_, ?_, ?_⟩
    · rw [replaceSet_eq_saveFixtures]
      exact hsave
    · intro hsaved
      exact replaces_of_saveFixtures ((hsave after).2 ⟨hsaved, rfl⟩)
    · exact fun _ => hkeeps.archiveAt_next_of_ne hopened
  · intro path name a last
    have hkept : a.Kept (t.1.done path) := hkeeps.kept path
    refine ⟨fun fixtures hlast => (hkept.sets name fixtures hlast).2, ?_,
      hkept.loadFixtures_ne_entryCount name⟩
    rw [hkept.loadFixtures_eq_none_iff, checkSetName_eq_ok_iff]

end CallGate
