import CallGate.Proofs.Archive.Ledger

/-!
# What is given of a set

A set that was kept is given when it is loaded: with what each of its outcomes
is read as, or not at all when one of them is not read.  Where no set was kept
none is given.
-/

namespace CallGate

/-- The outcome that is read from the record of an outcome, if there is one. -/
def Outcome.readBack? (outcome : Outcome) : Option Outcome :=
  (Decoder.fromText decode outcome.encode.canonicalText).toOption

/-- The outcome that is read, or this one. -/
def Outcome.readBack (outcome : Outcome) : Outcome :=
  outcome.readBack?.getD outcome

theorem Outcome.read_eq_readBack {outcome : Outcome}
    (hsmall : ArchiveRecord.IsSmall outcome.encode) (label : String) :
    (ArchiveRecord.ofValue outcome.encode).read decode label =
      if outcome.readBack?.isSome = true then .ok outcome.readBack
      else .error .malformed := by
  rw [ArchiveRecord.read_eq_fromText decode hsmall, readBack, readBack?]
  cases Decoder.fromText decode outcome.encode.canonicalText <;> rfl

namespace Fixtures

/-- The rows of a set. -/
def records (fixtures : Fixtures) : KeyMap String ArchiveRecord :=
  fixtures.mapValues fun outcome => .ofValue outcome.encode

/-- What is given when the set is loaded. -/
def given (fixtures : Fixtures) : Except ArchiveError (Option Fixtures) :=
  if ∀ e ∈ fixtures.entries, e.2.readBack?.isSome = true then
    .ok (some (fixtures.mapValues Outcome.readBack))
  else .error .malformed

theorem get?_records (fixtures : Fixtures) (row : String) :
    fixtures.records.get? row =
      (fixtures.get? row).map fun outcome => .ofValue outcome.encode :=
  KeyMap.get?_mapValues _ _ _

end Fixtures

namespace Archive

variable {a : Archive} {done : List ArchiveAction} {name : String}
  {fixtures : Fixtures}

/-- A set is kept under a name. -/
structure HasSet (a : Archive) (name : String) (fixtures : Fixtures) :
    Prop where
  valid : checkSetName name = .ok ()
  size : a.setSizes.get? name = some fixtures.entries.length
  rows : (a.fixtures.get? name).getD KeyMap.empty = fixtures.records
  small : ∀ e ∈ fixtures.entries, ArchiveRecord.IsSmall e.2.encode

theorem Holds.hasSet (h : Holds a done)
    (hset : fixturesOf? name done = some fixtures) :
    HasSet a name fixtures := by
  obtain ⟨hvalid, hsize, hrows⟩ := h.sets name fixtures hset
  refine ⟨hvalid, hsize, KeyMap.ext hrows, fun e he => ?_⟩
  exact h.small _ (save_mem_of_fixturesOf? hset) _ (List.mem_map_of_mem he)

/-- A set is given when it is loaded. -/
theorem HasSet.loadFixtures (h : HasSet a name fixtures) :
    a.loadFixtures name = fixtures.given := by
  have hload : loadOutcomes name fixtures.records.entries =
      if ∀ e ∈ fixtures.entries, e.2.readBack?.isSome = true then
        .ok (fixtures.mapValues Outcome.readBack).entries
      else .error .malformed :=
    loadOutcomes_of_read name (fun outcome => outcome.readBack?.isSome = true)
      Outcome.readBack fun e he => Outcome.read_eq_readBack (h.small e he)
  rw [Archive.loadFixtures, h.valid, h.size, setRows, h.rows]
  dsimp only
  rw [if_neg (by simp [Fixtures.records, KeyMap.mapValues]), hload,
    Fixtures.given]
  split
  · exact congrArg (fun set => Except.ok (some set))
      (KeyMap.ofList_entries (fixtures.mapValues Outcome.readBack))
  · rfl

theorem Kept.loadFixtures (h : Kept a done) (name : String) :
    a.loadFixtures name =
      match checkSetName name with
      | .error e => .error e
      | .ok () =>
        match fixturesOf? name done with
        | none => .ok none
        | some fixtures => fixtures.given := by
  cases hname : checkSetName name with
  | error e => rw [Archive.loadFixtures, hname]
  | ok _ =>
      cases hset : fixturesOf? name done with
      | none => rw [Archive.loadFixtures, hname, (h.unsaved name hset).1]
      | some fixtures => exact (h.toHolds.hasSet hset).loadFixtures

/-- Nothing is given where no set was kept, and only there. -/
theorem Kept.loadFixtures_eq_none_iff (h : Kept a done) :
    a.loadFixtures name = .ok none ↔
      checkSetName name = .ok () ∧ fixturesOf? name done = none := by
  rw [h.loadFixtures]
  cases checkSetName name with
  | error e => simp
  | ok _ =>
      cases fixturesOf? name done with
      | none => simp
      | some fixtures =>
          dsimp only
          rw [Fixtures.given]
          split <;> simp

/-- A set that was kept has as many rows as it should. -/
theorem Kept.loadFixtures_ne_entryCount (h : Kept a done)
    (name set : String) (expected found : ℕ) :
    a.loadFixtures name ≠ .error (.entryCount set expected found) := by
  rw [h.loadFixtures, checkSetName]
  split
  · rename_i e hname
    rintro ⟨⟩
    split at hname
    · cases hname
    · split at hname <;> cases hname
  · cases fixturesOf? name done with
    | none => simp
    | some fixtures =>
        dsimp only
        rw [Fixtures.given]
        split <;> simp

end Archive

end CallGate
