import CallGate.Proofs.Archive.Sets

/-!
# Sets that were edited underneath

Of a set that was kept, one row or one column of a row is changed without
going through the archive.  A payload has to agree with its digest and the
number of rows with the size that is kept beside them, so a change of these is
refused when the set is loaded, or was none.  Nothing is kept that the
fingerprint of a row would have to agree with: a row with another fingerprint
is given out under that one.
-/

namespace CallGate

/-- An edit of a column that goes with the payload of a row. -/
inductive ColumnEdit where
  | payload (bytes : ByteArray)
  | hash (digest : String)
  | algorithm (name : String)

/-- An edit of one column of a row, or of one row. -/
inductive SetEdit where
  | rename (row target : String)
  | column (row : String) (edit : ColumnEdit)
  | delete (row : String)
  | insert (row : String) (record : ArchiveRecord)

namespace ColumnEdit

/-- What the edit puts into the row. -/
def toRecordEdit : ColumnEdit → RecordEdit
  | .payload bytes => { payload := some bytes }
  | .hash digest => { hash := some digest }
  | .algorithm name => { algorithm := some name }

end ColumnEdit

/-- A record that is read is of the algorithm that is understood, and agrees
with its digest. -/
theorem ArchiveRecord.of_read_eq_ok {α : Type} {decode : Decoder α}
    {label : String} {record : ArchiveRecord} {value : α}
    (h : record.read decode label = .ok value) :
    record.algorithm = ContentDigest.algorithm ∧
      Sha256.hex record.payload = record.hash := by
  rw [read] at h
  split at h
  · cases h
  split at h
  · cases h
  rename_i halgorithm
  split at h
  · cases h
  rename_i hhash
  exact ⟨not_not.1 halgorithm, not_not.1 hhash⟩

/-- A record with another column is not read, unless the new payload has the
digest of the old one. -/
theorem ColumnEdit.apply_eq_of_read {α : Type} {decode : Decoder α}
    {label : String} {edit : ColumnEdit} {v : Json} {value : α}
    (hread : (edit.toRecordEdit.apply (.ofValue v)).read decode label =
      .ok value)
    (hcollision : ∀ bytes, edit = .payload bytes →
      Sha256.hex bytes = (ArchiveRecord.ofValue v).hash →
        bytes = (ArchiveRecord.ofValue v).payload) :
    edit.toRecordEdit.apply (.ofValue v) = .ofValue v := by
  obtain ⟨halgorithm, hhash⟩ := ArchiveRecord.of_read_eq_ok hread
  cases edit with
  | payload bytes =>
      have hbytes := hcollision bytes rfl hhash
      rw [hbytes]
      rfl
  | hash digest =>
      have hdigest : Sha256.hex (ArchiveRecord.ofValue v).payload = digest :=
        hhash
      rw [← hdigest]
      rfl
  | algorithm name =>
      have hname : name = ContentDigest.algorithm := halgorithm
      rw [hname]
      rfl

namespace Archive

/-- The archive after an edit of the rows of a set. -/
def editSet (a : Archive) (name : String) :
    SetEdit → Except ArchiveError Archive
  | .rename row target => a.moveFixture name row target
  | .column row edit => .ok (a.editFixture name row edit.toRecordEdit)
  | .delete row => .ok (a.deleteFixture name row).2
  | .insert row record => a.insertFixture name row record

/-- The archive with other rows for a set. -/
def withRows (a : Archive) (name : String)
    (rows : KeyMap String ArchiveRecord) : Archive :=
  { a with fixtures := a.fixtures.insert name rows }

theorem setRows_withRows (a : Archive) (name : String)
    (rows : KeyMap String ArchiveRecord) :
    (a.withRows name rows).setRows name = rows.entries := by
  rw [setRows, withRows, KeyMap.get?_insert_self, Option.getD_some]

/-- A set in which all rows are read has each of them read. -/
theorem read_of_mem_of_loadOutcomes {name : String}
    {rows : List (String × ArchiveRecord)}
    {outcomes : List (String × Outcome)}
    (hload : loadOutcomes name rows = .ok outcomes)
    {row : String × ArchiveRecord} (hmem : row ∈ rows) :
    ∃ outcome, row.2.read Outcome.decode
      ("fixture " ++ row.1 ++ " in set " ++ name) = .ok outcome := by
  induction rows generalizing outcomes with
  | nil => cases hmem
  | cons first rest ih =>
      rw [loadOutcomes] at hload
      split at hload
      · cases hload
      · rename_i outcome hread
        cases hrest : loadOutcomes name rest with
        | error e =>
            rw [hrest] at hload
            cases hload
        | ok more =>
            rcases List.mem_cons.1 hmem with rfl | hmem
            · exact ⟨outcome, hread⟩
            · exact ih hrest hmem

end Archive

/-! ## Sets with other rows -/

namespace Fixtures

variable {fixtures : Fixtures} {row target : String}

/-- A set with another fingerprint for a row is given as it is. -/
theorem given_rename
    (hnew : target = row ∨ fixtures.get? target = none) :
    given (fixtures.rename row target) =
      fixtures.given.map (Option.map fun set => set.rename row target) := by
  have hsame := KeyMap.forall_rename hnew
    fun outcome => outcome.readBack?.isSome = true
  rw [given, given, KeyMap.mapValues_rename]
  by_cases hread : ∀ e ∈ fixtures.entries, e.2.readBack?.isSome = true
  · rw [if_pos hread, if_pos (hsame.2 hread)]
    rfl
  · rw [if_neg hread, if_neg fun h => hread (hsame.1 h)]
    rfl

end Fixtures

namespace Archive

/-- After a change of an archive, loading a set fails or gives what it gave
before. -/
def LoadsSafely (a c : Archive) (name : String) : Prop :=
  c.loadFixtures name = a.loadFixtures name ∨
    ∃ e, c.loadFixtures name = .error e

variable {a c : Archive} {name : String} {fixtures : Fixtures}

theorem LoadsSafely.of_eq (h : c = a) : LoadsSafely a c name :=
  Or.inl (congrArg (fun c => c.loadFixtures name) h)

namespace HasSet

/-- Other rows are loaded when there are as many of them. -/
theorem loadFixtures_withRows (h : HasSet a name fixtures)
    (rows : KeyMap String ArchiveRecord) :
    (a.withRows name rows).loadFixtures name =
      if rows.entries.length ≠ fixtures.entries.length then
        .error (.entryCount name fixtures.entries.length rows.entries.length)
      else (loadOutcomes name rows.entries).map
        fun outcomes => some (KeyMap.ofList outcomes) := by
  have hsize : (a.withRows name rows).setSizes.get? name = _ := h.size
  rw [Archive.loadFixtures, h.valid, hsize, setRows_withRows]

theorem length_records (fixtures : Fixtures) :
    fixtures.records.entries.length = fixtures.entries.length :=
  List.length_map _

/-- Rows that are more or less are refused. -/
theorem refuses_length (h : HasSet a name fixtures)
    {rows : KeyMap String ArchiveRecord}
    (hlength : rows.entries.length ≠ fixtures.records.entries.length) :
    ∃ e, (a.withRows name rows).loadFixtures name = .error e := by
  rw [length_records] at hlength
  exact ⟨_, (h.loadFixtures_withRows rows).trans (if_pos hlength)⟩

/-- Rows with another record in one of them are refused when it is not read. -/
theorem refuses_record (h : HasSet a name fixtures) {row : String}
    {record : ArchiveRecord}
    (hread : ∀ label outcome, record.read Outcome.decode label ≠ .ok outcome) :
    ∃ e, (a.withRows name (fixtures.records.insert row record)).loadFixtures
      name = .error e := by
  rw [h.loadFixtures_withRows]
  split
  · exact ⟨_, rfl⟩
  · cases hload : loadOutcomes name
      (fixtures.records.insert row record).entries with
    | error e => exact ⟨e, rfl⟩
    | ok outcomes =>
        have hmem : (row, record) ∈
            (fixtures.records.insert row record).entries :=
          KeyMap.mem_entries_iff.2 (KeyMap.get?_insert_self _ _ _)
        obtain ⟨outcome, hok⟩ := read_of_mem_of_loadOutcomes hload hmem
        exact absurd hok (hread _ outcome)

/-- The same rows are the same set. -/
theorem withRows_records (h : HasSet a name fixtures) :
    HasSet (a.withRows name fixtures.records) name fixtures where
  valid := h.valid
  size := h.size
  rows := by rw [withRows, KeyMap.get?_insert_self, Option.getD_some]
  small := h.small

/-- After an edit of one column of a row the record is the old one, or it is
refused. -/
theorem column_safe (h : HasSet a name fixtures) {row : String}
    {edit : ColumnEdit}
    (hcollision : ∀ bytes outcome, edit = .payload bytes →
      fixtures.get? row = some outcome →
        Sha256.hex bytes = (ArchiveRecord.ofValue outcome.encode).hash →
          bytes = (ArchiveRecord.ofValue outcome.encode).payload) :
    LoadsSafely a (a.editFixture name row edit.toRecordEdit) name := by
  have hrow := fixtures.get?_records row
  cases houtcome : fixtures.get? row with
  | none =>
      rw [houtcome, Option.map_none] at hrow
      apply LoadsSafely.of_eq
      rw [editFixture, h.rows, hrow]
  | some outcome =>
      rw [houtcome, Option.map_some] at hrow
      have hedit : a.editFixture name row edit.toRecordEdit =
          a.withRows name (fixtures.records.insert row
            (edit.toRecordEdit.apply (.ofValue outcome.encode))) := by
        rw [editFixture, h.rows, hrow]
        rfl
      rw [hedit]
      by_cases hread : ∃ label value, (edit.toRecordEdit.apply
          (.ofValue outcome.encode)).read Outcome.decode label = .ok value
      · obtain ⟨label, value, hread⟩ := hread
        have hsame := ColumnEdit.apply_eq_of_read hread
          fun bytes hbytes => hcollision bytes outcome hbytes houtcome
        left
        rw [hsame, KeyMap.insert_of_get? hrow,
          h.withRows_records.loadFixtures, h.loadFixtures]
      · right
        refine h.refuses_record fun label value hok => ?_
        exact hread ⟨label, value, hok⟩

theorem delete_safe (h : HasSet a name fixtures) (row : String) :
    LoadsSafely a (a.deleteFixture name row).2 name := by
  cases hrow : fixtures.records.get? row with
  | none =>
      apply LoadsSafely.of_eq
      rw [deleteFixture, h.rows, KeyMap.contains_eq_isSome, hrow]
      rfl
  | some record =>
      have hdelete : (a.deleteFixture name row).2 =
          a.withRows name (without fixtures.records row) := by
        rw [deleteFixture, h.rows, KeyMap.contains_eq_isSome, hrow]
        rfl
      have hlength := length_without hrow
      rw [hdelete]
      exact Or.inr (h.refuses_length (by omega))

theorem insert_safe (h : HasSet a name fixtures) {row : String}
    {record : ArchiveRecord}
    (hedit : a.insertFixture name row record = .ok c) :
    LoadsSafely a c name := by
  rw [insertFixture, h.rows, KeyMap.contains_eq_isSome] at hedit
  cases hrow : fixtures.records.get? row with
  | some old =>
      rw [hrow] at hedit
      cases hedit
  | none =>
      rw [hrow] at hedit
      cases hedit
      have hlength := KeyMap.length_insert hrow record
      exact Or.inr (h.refuses_length (by omega))

/-- A row gets a fingerprint that no other row has. -/
theorem moveFixture_eq_ok_iff (h : HasSet a name fixtures) {row target : String}
    {outcome : Outcome} (hrow : fixtures.get? row = some outcome) :
    a.moveFixture name row target = .ok c ↔
    (target = row ∨ fixtures.get? target = none) ∧
    a.withRows name (Fixtures.records (fixtures.rename row target)) = c := by
  have hrecord : fixtures.records.get? row =
      some (.ofValue outcome.encode) := by
    rw [fixtures.get?_records, hrow, Option.map_some]
  have hrecords : Fixtures.records (fixtures.rename row target) =
      (without fixtures.records row).insert target
        (.ofValue outcome.encode) := by
    rw [Fixtures.records, KeyMap.mapValues_rename, ← Fixtures.records,
      KeyMap.rename, hrecord]
  have htaken : (decide (target ≠ row) &&
      fixtures.records.contains target) = true ↔
        ¬(target = row ∨ fixtures.get? target = none) := by
    rw [KeyMap.contains_eq_isSome, fixtures.get?_records, Option.isSome_map]
    simp [Option.isSome_iff_ne_none]
  rw [moveFixture, h.rows, hrecord, hrecords]
  dsimp only
  by_cases hnew : target = row ∨ fixtures.get? target = none
  · rw [if_neg fun htrue => htaken.1 htrue hnew, and_iff_right hnew,
      Except.ok.injEq]
    rfl
  · rw [if_pos (htaken.2 hnew)]
    constructor
    · intro herror
      cases herror
    · intro hc
      exact absurd hc.1 hnew

/-- A row with another fingerprint makes of the set one that has it under that
fingerprint, and that could have been kept so. -/
theorem rename (h : HasSet a name fixtures) {row target : String}
    (hnew : target = row ∨ fixtures.get? target = none) :
    let b := a.withRows name (Fixtures.records (fixtures.rename row target))
    HasSet b name (fixtures.rename row target) ∧
      a.saveFixtures name (fixtures.rename row target) = .ok b := by
  have hlength : (fixtures.rename row target).entries.length =
      fixtures.entries.length := KeyMap.length_rename hnew
  have hsmall : ∀ e ∈ (fixtures.rename row target).entries,
      ArchiveRecord.IsSmall e.2.encode :=
    (KeyMap.forall_rename hnew fun o => ArchiveRecord.IsSmall o.encode).2
      h.small
  refine ⟨⟨h.valid, ?_, ?_, hsmall⟩, ?_⟩
  · rw [hlength]
    exact h.size
  · rw [withRows, KeyMap.get?_insert_self, Option.getD_some]
  · have hsize : a.setSizes.insert name fixtures.entries.length = a.setSizes :=
      KeyMap.insert_of_get? h.size
    have hrows : KeyMap.ofList
        ((fixtures.rename row target).entries.map outcomeRow) =
          Fixtures.records (fixtures.rename row target) :=
      KeyMap.ofList_entries (Fixtures.records (fixtures.rename row target))
    refine saveFixtures_eq_ok_iff.2 ⟨h.valid, hsmall, ?_⟩
    rw [hlength, hsize, hrows]
    rfl

/-- Without the row there is nothing to rename. -/
theorem rename_of_none (h : HasSet a name fixtures) {row target : String}
    (hrow : fixtures.get? row = none)
    (hedit : a.moveFixture name row target = .ok c) : c = a := by
  have hrecord : fixtures.records.get? row = none := by
    rw [fixtures.get?_records, hrow, Option.map_none]
  rw [moveFixture, h.rows, hrecord] at hedit
  exact (Except.ok.inj hedit).symm

theorem loadFixtures_rename (h : HasSet a name fixtures) {row target : String}
    (hedit : a.moveFixture name row target = .ok c) :
    c.loadFixtures name = (a.loadFixtures name).map
      (Option.map fun set => set.rename row target) := by
  cases hrow : fixtures.get? row with
  | none =>
      have hread : (fixtures.mapValues Outcome.readBack).get? row = none := by
        rw [KeyMap.get?_mapValues, hrow, Option.map_none]
      rw [h.rename_of_none hrow hedit, h.loadFixtures, Fixtures.given]
      split
      · exact congrArg (fun set => Except.ok (some set))
          (KeyMap.rename_of_none hread target).symm
      · rfl
  | some outcome =>
      obtain ⟨hnew, rfl⟩ := (h.moveFixture_eq_ok_iff hrow).1 hedit
      rw [(h.rename hnew).1.loadFixtures, h.loadFixtures,
        Fixtures.given_rename hnew]

/-- A row that gets another fingerprint does no harm only in a set that is not
given before. -/
theorem rename_safe_iff (h : HasSet a name fixtures) {row target : String}
    (hedit : a.moveFixture name row target = .ok c) :
    LoadsSafely a c name ↔ fixtures.get? row = none ∨ target = row ∨
      ∃ e, a.loadFixtures name = .error e := by
  have hload := h.loadFixtures_rename hedit
  constructor
  · intro hsafe
    by_contra! hcontra
    obtain ⟨hrow, htarget, hgiven⟩ := hcontra
    obtain ⟨outcome, houtcome⟩ := Option.ne_none_iff_exists'.1 hrow
    have hread : (fixtures.mapValues Outcome.readBack).get? row =
        some outcome.readBack := by
      rw [KeyMap.get?_mapValues, houtcome, Option.map_some]
    rw [LoadsSafely, hload, h.loadFixtures, Fixtures.given] at hsafe
    rw [h.loadFixtures, Fixtures.given] at hgiven
    split at hgiven
    · rename_i hreadable
      rw [if_pos hreadable] at hsafe
      rcases hsafe with hsame | ⟨e, herror⟩
      · exact KeyMap.rename_ne hread htarget
          (Option.some.inj (Except.ok.inj hsame))
      · cases herror
    · exact hgiven .malformed rfl
  · rintro (hrow | rfl | ⟨e, herror⟩)
    · exact LoadsSafely.of_eq (h.rename_of_none hrow hedit)
    · left
      rw [hload]
      cases a.loadFixtures name with
      | error e => rfl
      | ok set => cases set with
        | none => rfl
        | some set =>
            exact congrArg (fun set => Except.ok (some set))
              (KeyMap.rename_self set target)
    · right
      rw [hload, herror]
      exact ⟨e, rfl⟩

end HasSet

end Archive

open Archive

/-- After an edit underneath a set that was kept, loading the set fails or gives
what it gave before, unless the edit gives a row another fingerprint.  Then the
set is given with that fingerprint for the row, and the archive is the one in
which it was kept so. -/
theorem edits_load_safely_unless_renaming (isDirectory : String → Bool)
    (actions : List ShelfAction) (path name : String) {fixtures : Fixtures}
    (hset : fixturesOf? name
      ((runActions (Ledgers.next isDirectory) .empty actions).1.done path) =
        some fixtures)
    {edit : SetEdit} {c : Archive}
    (hedit : ((runActions (Shelf.next isDirectory) .empty actions).1.archiveAt
      path).editSet name edit = .ok c)
    (hcollision : ∀ row bytes outcome, edit = .column row (.payload bytes) →
      fixtures.get? row = some outcome →
        Sha256.hex bytes = (ArchiveRecord.ofValue outcome.encode).hash →
          bytes = (ArchiveRecord.ofValue outcome.encode).payload) :
    let a := (runActions (Shelf.next isDirectory) .empty actions).1.archiveAt
      path
    ((∀ row target, edit ≠ .rename row target) → LoadsSafely a c name) ∧
    ∀ row target, edit = .rename row target →
      c.loadFixtures name = (a.loadFixtures name).map
        (Option.map fun set => set.rename row target) ∧
      (LoadsSafely a c name ↔ fixtures.get? row = none ∨ target = row ∨
        ∃ e, a.loadFixtures name = .error e) ∧
      (fixtures.get? row ≠ none →
        a.saveFixtures name (fixtures.rename row target) = .ok c) := by
  intro a
  have hkeeps := (KeepsLedgers.run isDirectory actions).2
  have h : HasSet a name fixtures := (hkeeps.kept path).toHolds.hasSet hset
  constructor
  · intro hrename
    cases edit with
    | rename row target => exact absurd rfl (hrename row target)
    | column row edit =>
        cases hedit
        exact h.column_safe fun bytes outcome hbytes =>
          hcollision row bytes outcome (hbytes ▸ rfl)
    | delete row =>
        cases hedit
        exact h.delete_safe row
    | insert row record => exact h.insert_safe hedit
  · rintro row target rfl
    refine ⟨h.loadFixtures_rename hedit, h.rename_safe_iff hedit, ?_⟩
    intro hrow
    obtain ⟨outcome, houtcome⟩ := Option.ne_none_iff_exists'.1 hrow
    obtain ⟨hnew, rfl⟩ := (h.moveFixture_eq_ok_iff houtcome).1 hedit
    exact (h.rename hnew).2

/-- A set of one outcome is kept. -/
def powerActions : List ShelfAction :=
  [.opening "store", .acting (.save "set" powerFixtures)]

/-- The archive in which it is kept. -/
def powerArchive : Archive :=
  (runActions (Shelf.next fun _ => false) .empty powerActions).1.archiveAt
    "store"

theorem powerFixtures_kept :
    fixturesOf? "set" ((runActions (Ledgers.next fun _ => false) .empty
      powerActions).1.done "store") = some powerFixtures := by
  have hopening : checkOpening (fun _ => false) "store" = .ok () := by
    decide +kernel
  have hadmits : Admits [] (.save "set" powerFixtures) := by
    refine ⟨by decide +kernel, by decide +kernel, fun e he => ?_⟩
    rw [List.mem_singleton.1 he]
    exact powerOutcome_isSmall
  rw [powerActions, runActions, runActions, runActions, Ledgers.next, hopening]
  dsimp only
  rw [Ledgers.next]
  simp [Ledgers.empty, Ledgers.close, hadmits, fixturesOf?,
    ArchiveAction.fixtures?]

theorem powerOutcome_readBack? : powerOutcome.readBack? =
    some (.ok ⟨.num (.int 1152921504606847000), .null⟩) := by
  rw [Outcome.readBack?, powerOutcome_canonicalText]
  decide +kernel

/-- The outcome of the call `f1` is given as that of `f2`. -/
theorem power_given_under_other_fingerprint :
    fixturesOf? "set" ((runActions (Ledgers.next fun _ => false) .empty
      powerActions).1.done "store") = some powerFixtures ∧
    ∃ c, powerArchive.editSet "set" (.rename "f1" "f2") = .ok c ∧
      powerArchive.saveFixtures "set" (powerFixtures.rename "f1" "f2") =
        .ok c ∧
      powerArchive.loadFixtures "set" = .ok (some (KeyMap.empty.insert "f1"
        (.ok ⟨.num (.int 1152921504606847000), .null⟩))) ∧
      c.loadFixtures "set" = .ok (some (KeyMap.empty.insert "f2"
        (.ok ⟨.num (.int 1152921504606847000), .null⟩))) := by
  have hpower : HasSet powerArchive "set" powerFixtures :=
    ((KeepsLedgers.run _ powerActions).2.kept "store").toHolds.hasSet
      powerFixtures_kept
  have hrow : powerFixtures.get? "f1" = some powerOutcome := rfl
  obtain ⟨c, hedit⟩ :
      ∃ c, powerArchive.editSet "set" (.rename "f1" "f2") = .ok c :=
    ⟨_, (hpower.moveFixture_eq_ok_iff hrow).2 ⟨Or.inr rfl, rfl⟩⟩
  have hbefore : powerArchive.loadFixtures "set" = .ok (some
      (KeyMap.empty.insert "f1"
        (.ok ⟨.num (.int 1152921504606847000), .null⟩))) := by
    rw [hpower.loadFixtures, Fixtures.given, if_pos]
    · refine congrArg (fun set => Except.ok (some set)) (KeyMap.ext ?_)
      change [("f1", powerOutcome.readBack)] = _
      rw [Outcome.readBack, powerOutcome_readBack?]
      rfl
    · intro e he
      rw [List.mem_singleton.1 he]
      exact congrArg Option.isSome powerOutcome_readBack?
  obtain ⟨-, hrename⟩ := edits_load_safely_unless_renaming (fun _ => false)
    powerActions "store" "set" powerFixtures_kept hedit
    (by rintro _ _ _ ⟨⟩)
  obtain ⟨hafter, -, hsave⟩ := hrename "f1" "f2" rfl
  refine ⟨powerFixtures_kept, c, hedit, hsave (by simp [hrow]), hbefore, ?_⟩
  rw [hafter]
  refine (congrArg _ hbefore).trans ?_
  decide +kernel

end CallGate
