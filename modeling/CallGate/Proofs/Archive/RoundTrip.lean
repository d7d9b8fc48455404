import CallGate.Archive.Basic
import CallGate.Proofs.Call.ReadBack
import CallGate.Proofs.KeyMap

/-!
# What an archive gives back

An archive to which receipts were added and in which sets of outcomes were
kept gives back each of them with its values settled, and refuses those with
a value that is too deep.  Settling changes numbers only: a real number that
is written as an integer within 64 bits becomes that integer.
-/

namespace CallGate

/-! ## Records -/

namespace ArchiveRecord

/-- The canonical form of the value is not too large. -/
def IsSmall (v : Json) : Prop :=
  (ofValue v).payload.size ≤ ArchiveError.maxPayloadBytes

theorem ofValue?_eq_ok_iff {v : Json} {record : ArchiveRecord} :
    ofValue? v = .ok record ↔ IsSmall v ∧ ofValue v = record := by
  rw [ofValue?, IsSmall, checkSize]
  split
  · rename_i hlarge
    simp [Except.map, -Prod.forall, hlarge]
  · rename_i hsmall
    rw [not_lt] at hsmall
    simp [Except.map, hsmall]

theorem fromUTF8?_toUTF8 (s : String) : String.fromUTF8? s.toUTF8 = some s :=
  dif_pos s.isValidUTF8

/-- The record of a small value is what its canonical text is. -/
theorem read_eq_fromText {α : Type} (decode : Decoder α) {v : Json}
    (hsmall : IsSmall v) (label : String) :
    (ofValue v).read decode label =
      (Decoder.fromText decode v.canonicalText).mapError
        fun _ => .malformed := by
  have hsize : checkSize (ofValue v).payload.size = .ok () := by
    rw [checkSize, if_neg (not_lt.2 hsmall)]
  have hpayload : String.fromUTF8? (ofValue v).payload = some v.canonicalText :=
    fromUTF8?_toUTF8 v.canonicalText
  rw [read, hsize]
  dsimp only
  rw [if_neg (by simp [ofValue]), if_neg (by simp [ofValue]), hpayload]

/-- The record of a value is read back as what the value is. -/
theorem read_ofValue {α : Type} {decode : Decoder α} {v : Json} {room : Prop}
    [Decidable room] {a : α} (hread : decode.ReadsBack v room a)
    (hsmall : IsSmall v) (label : String) :
    (ofValue v).read decode label =
      if room then .ok a else .error .malformed := by
  obtain ⟨t, ht, hdecode⟩ := hread
  have htree : Json.read v.canonicalText = .whole t := by
    rw [Json.read, Json.canonicalText, String.toList_ofList]
    exact ht.readChars_eq
  have htext : Decoder.fromText decode v.canonicalText = decode .json t := by
    rw [Decoder.fromText, htree]
  rw [read_eq_fromText decode hsmall, htext]
  by_cases hroom : room
  · rw [if_pos hroom, (hdecode a).2 ⟨hroom, rfl⟩]
    rfl
  · rw [if_neg hroom]
    cases hresult : decode .json t with
    | error e => rfl
    | ok b => exact absurd ((hdecode b).1 hresult).1 hroom

end ArchiveRecord

/-! ## Actions -/

/-- What keeps something in an archive. -/
inductive ArchiveAction where
  | append (session : String) (receipt : Receipt)
  | save (name : String) (fixtures : Fixtures)

namespace ArchiveAction

/-- The receipts and outcomes of the action are valid. -/
def IsValid : ArchiveAction → Prop
  | .append _ receipt => receipt.IsValid
  | .save _ fixtures => ∀ e ∈ fixtures.entries, e.2.IsValid

/-- The receipt that the action adds to a session. -/
def receipt? (session : String) : ArchiveAction → Option Receipt
  | .append other receipt => if other = session then some receipt else none
  | .save _ _ => none

/-- The set that the action keeps under a name. -/
def fixtures? (name : String) : ArchiveAction → Option Fixtures
  | .append _ _ => none
  | .save other fixtures => if other = name then some fixtures else none

/-- The values that the action puts into records. -/
def values : ArchiveAction → List Json
  | .append _ receipt => [receipt.encode]
  | .save _ fixtures => fixtures.entries.map fun e => e.2.encode

end ArchiveAction

/-- The receipts that actions added to a session. -/
def receiptsOf (session : String) (done : List ArchiveAction) : List Receipt :=
  done.filterMap (ArchiveAction.receipt? session)

/-- The set that actions left under a name. -/
def fixturesOf? (name : String) (done : List ArchiveAction) : Option Fixtures :=
  (done.filterMap (ArchiveAction.fixtures? name)).getLast?

namespace Archive

/-- The archive after one action. -/
def act (a : Archive) : ArchiveAction → Except ArchiveError Archive
  | .append session receipt => a.append session receipt
  | .save name fixtures => a.saveFixtures name fixtures

/-- The archive after actions, and those of them that it accepted.  An action
that is refused leaves the archive as it is. -/
def run (a : Archive) : List ArchiveAction → Archive × List ArchiveAction
  | [] => (a, [])
  | action :: rest =>
    match a.act action with
    | .error _ => run a rest
    | .ok b => ((run b rest).1, action :: (run b rest).2)

/-! ## What the rows hold -/

/-- The row of a receipt. -/
def receiptRow (r : Receipt) : ℤ × ArchiveRecord :=
  (r.sequence, .ofValue r.encode)

/-- The row of an outcome. -/
def outcomeRow (e : String × Outcome) : String × ArchiveRecord :=
  (e.1, .ofValue e.2.encode)

/-- The rows of the archive are those of the actions that it accepted. -/
structure Holds (a : Archive) (done : List ArchiveAction) : Prop where
  receipts : ∀ session, (a.session session).entries =
    (receiptsOf session done).map receiptRow
  sets : ∀ name fixtures, fixturesOf? name done = some fixtures →
    checkSetName name = .ok () ∧
      a.setSizes.get? name = some fixtures.entries.length ∧
      a.setRows name = fixtures.entries.map outcomeRow
  small : ∀ action ∈ done, ∀ v ∈ action.values, ArchiveRecord.IsSmall v

theorem holds_empty : Holds empty [] where
  receipts _ := rfl
  sets name fixtures h := by simp [fixturesOf?] at h
  small := by simp

variable {a b : Archive} {done : List ArchiveAction}

theorem session_put (a : Archive) (session other : String) (sequence : ℤ)
    (record : ArchiveRecord) :
    (a.put session sequence record).session other =
      if session = other then (a.session session).insert sequence record
      else a.session other := by
  by_cases heq : session = other
  · subst heq
    rw [if_pos rfl, Archive.session, put, KeyMap.get?_insert_self,
      Option.getD_some]
  · rw [if_neg heq, Archive.session, put,
      KeyMap.get?_insert_of_ne _ (Ne.symm heq)]
    rfl

/-- A receipt is accepted when it is small, its number fits the table, and it
follows the others. -/
theorem append_eq_ok_iff {session : String} {r : Receipt} :
    a.append session r = .ok b ↔
      ArchiveRecord.IsSmall r.encode ∧ r.sequence < sequenceBound ∧
      (∀ last, a.last? session = some last → last < r.sequence) ∧
      a.put session r.sequence (.ofValue r.encode) = b := by
  rw [append]
  cases hrecord : ArchiveRecord.ofValue? r.encode with
  | error e =>
      have hlarge : ¬ArchiveRecord.IsSmall r.encode := by
        intro hsmall
        rw [ArchiveRecord.ofValue?_eq_ok_iff.2 ⟨hsmall, rfl⟩] at hrecord
        cases hrecord
      simp [hlarge]
  | ok record =>
      obtain ⟨hsmall, rfl⟩ := ArchiveRecord.ofValue?_eq_ok_iff.1 hrecord
      rw [and_iff_right hsmall]
      dsimp only
      by_cases hbound : sequenceBound ≤ r.sequence
      · simp [hbound, not_lt.2 hbound]
      rw [if_neg hbound, and_iff_right (not_le.1 hbound)]
      cases hlast : a.last? session with
      | none => simp
      | some last =>
          by_cases horder : (r.sequence : ℤ) ≤ last
          · simp [horder, not_lt.2 horder]
          · simp [horder, not_le.1 horder]

/-- A number above the last of ascending ones is above all of them. -/
theorem lt_of_last_lt {m : KeyMap ℤ ArchiveRecord} {key : ℤ}
    (h : ∀ last, m.keys.getLast? = some last → last < key) :
    ∀ e ∈ m.entries, compare e.1 key = .lt := by
  intro e he
  rcases List.eq_nil_or_concat m.entries with hnil | ⟨front, last, hentries⟩
  · rw [hnil] at he
    cases he
  · have hlast : compare last.1 key = .lt := by
      apply Int.compare_eq_lt.2
      apply h
      rw [KeyMap.keys, hentries, List.concat_eq_append, List.map_append]
      simp
    have hascending := m.ascending
    rw [hentries, List.concat_eq_append] at he hascending
    rcases List.mem_append.1 he with hfront | hend
    · have hbelow := (List.pairwise_append.1 hascending).2.2 e hfront last
        List.mem_cons_self
      exact Std.TransCmp.lt_trans hbelow hlast
    · rw [List.mem_singleton.1 hend]
      exact hlast

theorem append_mem_of_mem_receiptsOf {session : String} {r : Receipt}
    (h : r ∈ receiptsOf session done) : .append session r ∈ done := by
  obtain ⟨action, haction, hreceipt⟩ := List.mem_filterMap.1 h
  cases action with
  | append other receipt =>
      rw [ArchiveAction.receipt?] at hreceipt
      split at hreceipt
      · rename_i heq
        cases hreceipt
        rwa [← heq]
      · cases hreceipt
  | save name fixtures => cases hreceipt

theorem save_mem_of_fixturesOf? {name : String} {fixtures : Fixtures}
    (h : fixturesOf? name done = some fixtures) :
    .save name fixtures ∈ done := by
  obtain ⟨action, haction, hfixtures⟩ :=
    List.mem_filterMap.1 (List.mem_of_getLast? h)
  cases action with
  | append session receipt => cases hfixtures
  | save other kept =>
      rw [ArchiveAction.fixtures?] at hfixtures
      split at hfixtures
      · rename_i heq
        cases hfixtures
        rwa [← heq]
      · cases hfixtures

theorem receiptsOf_append_singleton (session : String)
    (done : List ArchiveAction) (action : ArchiveAction) :
    receiptsOf session (done ++ [action]) =
      receiptsOf session done ++ (action.receipt? session).toList := by
  rw [receiptsOf, List.filterMap_append, receiptsOf]
  cases h : action.receipt? session <;> simp [h]

theorem fixturesOf?_append_singleton (name : String)
    (done : List ArchiveAction) (action : ArchiveAction) :
    fixturesOf? name (done ++ [action]) =
      (action.fixtures? name).or (fixturesOf? name done) := by
  rw [fixturesOf?, List.filterMap_append]
  cases h : action.fixtures? name <;> simp [h, fixturesOf?]

theorem Holds.small_append (h : Holds a done) {action : ArchiveAction}
    (hsmall : ∀ v ∈ action.values, ArchiveRecord.IsSmall v) :
    ∀ other ∈ done ++ [action], ∀ v ∈ other.values,
      ArchiveRecord.IsSmall v := by
  intro other hother
  rcases List.mem_append.1 hother with hdone | hlast
  · exact h.small other hdone
  · rw [List.mem_singleton.1 hlast]
    exact hsmall

/-- An accepted receipt gets the row behind the others of its session. -/
theorem Holds.append (h : Holds a done) {session : String} {r : Receipt}
    (hact : a.append session r = .ok b) :
    Holds b (done ++ [.append session r]) := by
  obtain ⟨hsmall, -, hfollows, rfl⟩ := append_eq_ok_iff.1 hact
  constructor
  · intro other
    rw [session_put, receiptsOf_append_singleton, ArchiveAction.receipt?]
    by_cases heq : session = other
    · subst heq
      have hinsert : Entries.insert (r.sequence : ℤ)
          (ArchiveRecord.ofValue r.encode) (a.session session).entries = _ :=
        Entries.insert_of_above (lt_of_last_lt hfollows)
      rw [if_pos rfl, if_pos rfl, Option.toList_some, List.map_append,
        ← h.receipts session]
      exact hinsert
    · rw [if_neg heq, if_neg heq, Option.toList_none, List.append_nil]
      exact h.receipts other
  · intro name fixtures hfixtures
    rw [fixturesOf?_append_singleton] at hfixtures
    exact h.sets name fixtures hfixtures
  · apply h.small_append
    intro v hv
    rw [List.mem_singleton.1 hv]
    exact hsmall

theorem recordsOf_eq_ok_iff {outcomes : List (String × Outcome)}
    {rows : List (String × ArchiveRecord)} :
    recordsOf outcomes = .ok rows ↔
      (∀ e ∈ outcomes, ArchiveRecord.IsSmall e.2.encode) ∧
        outcomes.map outcomeRow = rows := by
  induction outcomes generalizing rows with
  | nil => simp [recordsOf]
  | cons e rest ih =>
      rw [recordsOf, List.forall_mem_cons]
      cases hrecord : ArchiveRecord.ofValue? e.2.encode with
      | error error =>
          have hlarge : ¬ArchiveRecord.IsSmall e.2.encode := by
            intro hsmall
            rw [ArchiveRecord.ofValue?_eq_ok_iff.2 ⟨hsmall, rfl⟩] at hrecord
            cases hrecord
          simp [hlarge]
      | ok record =>
          obtain ⟨hsmall, rfl⟩ := ArchiveRecord.ofValue?_eq_ok_iff.1 hrecord
          cases hmore : recordsOf rest with
          | error error =>
              have hlarge : ¬∀ f ∈ rest, ArchiveRecord.IsSmall f.2.encode := by
                intro h
                rw [ih.2 ⟨h, rfl⟩] at hmore
                cases hmore
              simp [Except.map, -Prod.forall, hlarge]
          | ok more =>
              obtain ⟨hsmallRest, rfl⟩ := ih.1 hmore
              rw [and_iff_right ⟨hsmall, hsmallRest⟩]
              simp [Except.map, outcomeRow]

/-- A set is accepted under a name that can be given when each of its
outcomes is small. -/
theorem saveFixtures_eq_ok_iff {name : String} {fixtures : Fixtures} :
    a.saveFixtures name fixtures = .ok b ↔
      checkSetName name = .ok () ∧
      (∀ e ∈ fixtures.entries, ArchiveRecord.IsSmall e.2.encode) ∧
      { a with
        setSizes := a.setSizes.insert name fixtures.entries.length
        fixtures := a.fixtures.insert name
          (KeyMap.ofList (fixtures.entries.map outcomeRow)) } = b := by
  rw [saveFixtures]
  cases checkSetName name with
  | error e => simp
  | ok _ =>
      cases hrecords : recordsOf fixtures.entries with
      | error e =>
          have hlarge : ¬∀ e ∈ fixtures.entries,
              ArchiveRecord.IsSmall e.2.encode := by
            intro h
            rw [recordsOf_eq_ok_iff.2 ⟨h, rfl⟩] at hrecords
            cases hrecords
          simp [Except.map, -Prod.forall, hlarge]
      | ok rows =>
          obtain ⟨hsmall, rfl⟩ := recordsOf_eq_ok_iff.1 hrecords
          rw [and_iff_right hsmall]
          simp [Except.map]

/-- The rows of a set are in the order of the set. -/
theorem ascending_outcomeRows (fixtures : Fixtures) :
    Entries.Ascending (fixtures.entries.map outcomeRow) :=
  fixtures.ascending.map fun e => ArchiveRecord.ofValue e.2.encode

/-- The set under a name is the given one, and each other set is as it was. -/
structure Replaces (a b : Archive) (name : String) (fixtures : Fixtures) :
    Prop where
  size : b.setSizes.get? name = some fixtures.entries.length
  rows : b.setRows name = fixtures.entries.map outcomeRow
  others : ∀ other, other ≠ name →
    b.setSizes.get? other = a.setSizes.get? other ∧
      b.setRows other = a.setRows other

theorem replaces_of_saveFixtures {name : String} {fixtures : Fixtures}
    (hact : a.saveFixtures name fixtures = .ok b) :
    Replaces a b name fixtures := by
  obtain ⟨-, -, rfl⟩ := saveFixtures_eq_ok_iff.1 hact
  constructor
  · exact KeyMap.get?_insert_self _ _ _
  · rw [setRows, KeyMap.get?_insert_self, Option.getD_some,
      KeyMap.entries_ofList_of_ascending (ascending_outcomeRows fixtures)]
  · intro other hother
    rw [setRows, setRows, KeyMap.get?_insert_of_ne _ hother,
      KeyMap.get?_insert_of_ne _ hother]
    exact ⟨rfl, rfl⟩

/-- An accepted set takes the place of the one under its name. -/
theorem Holds.saveFixtures (h : Holds a done) {name : String}
    {fixtures : Fixtures} (hact : a.saveFixtures name fixtures = .ok b) :
    Holds b (done ++ [.save name fixtures]) := by
  have hset := replaces_of_saveFixtures hact
  obtain ⟨hname, hsmall, rfl⟩ := saveFixtures_eq_ok_iff.1 hact
  constructor
  · intro session
    rw [receiptsOf_append_singleton, ArchiveAction.receipt?,
      Option.toList_none, List.append_nil]
    exact h.receipts session
  · intro other kept hkept
    rw [fixturesOf?_append_singleton, ArchiveAction.fixtures?] at hkept
    by_cases heq : name = other
    · subst heq
      rw [if_pos rfl] at hkept
      cases hkept
      exact ⟨hname, hset.size, hset.rows⟩
    · rw [if_neg heq] at hkept
      obtain ⟨hsize, hrows⟩ := hset.others other (Ne.symm heq)
      rw [hsize, hrows]
      exact h.sets other kept hkept
  · apply h.small_append
    intro v hv
    obtain ⟨e, he, rfl⟩ := List.mem_map.1 hv
    exact hsmall e he

theorem Holds.act (h : Holds a done) {action : ArchiveAction}
    (hact : a.act action = .ok b) : Holds b (done ++ [action]) := by
  cases action with
  | append session r => exact h.append hact
  | save name fixtures => exact h.saveFixtures hact

theorem Holds.run (h : Holds a done) (actions : List ArchiveAction) :
    Holds (a.run actions).1 (done ++ (a.run actions).2) := by
  induction actions generalizing a done with
  | nil => rwa [Archive.run, List.append_nil]
  | cons action rest ih =>
      rw [Archive.run]
      cases hact : a.act action with
      | error e => exact ih h
      | ok b =>
          have hrest := ih (h.act hact)
          rwa [List.append_assoc, List.singleton_append] at hrest

theorem mem_of_mem_run {action : ArchiveAction} {actions : List ArchiveAction}
    (h : action ∈ (a.run actions).2) : action ∈ actions := by
  induction actions generalizing a with
  | nil => exact h
  | cons first rest ih =>
      rw [Archive.run] at h
      cases hact : a.act first with
      | error e =>
          rw [hact] at h
          exact List.mem_cons_of_mem first (ih h)
      | ok b =>
          rw [hact] at h
          rcases List.mem_cons.1 h with rfl | hrest
          · exact List.mem_cons_self
          · exact List.mem_cons_of_mem first (ih hrest)

/-! ## What is given back -/

/-- The rows of receipts are given back up to the first that has no room. -/
theorem loadRows_receiptRow (session : String) {receipts : List Receipt}
    (hvalid : ∀ r ∈ receipts, r.IsValid)
    (hsmall : ∀ r ∈ receipts, ArchiveRecord.IsSmall r.encode) :
    loadRows session (receipts.map receiptRow) =
      if ∀ r ∈ receipts, r.Fits then .ok (receipts.map Receipt.settled)
      else .error .malformed := by
  induction receipts with
  | nil => rfl
  | cons r rest ih =>
      rw [List.forall_mem_cons] at hvalid hsmall
      have hread := ArchiveRecord.read_ofValue
        (Receipt.decode_readsBack hvalid.1) hsmall.1
        (receiptLabel session r.sequence)
      have hrest := ih hvalid.2 hsmall.2
      rw [List.map_cons, loadRows, loadRow, receiptRow, hread, hrest]
      simp only [List.forall_mem_cons]
      by_cases hfits : r.Fits
      · have hkey : (r.settled.sequence : ℤ) = r.sequence := rfl
        rw [if_pos hfits]
        simp only [if_pos hkey, hfits, true_and]
        split <;> rfl
      · have hnot : ¬(r.Fits ∧ ∀ q ∈ rest, q.Fits) := fun h => hfits h.1
        rw [if_neg hfits, if_neg hnot]

/-- The rows of outcomes are given back as what each of them is read as, up to
the first that is refused. -/
theorem loadOutcomes_of_read (name : String) (readable : Outcome → Prop)
    [DecidablePred readable] (f : Outcome → Outcome)
    {outcomes : List (String × Outcome)}
    (hread : ∀ e ∈ outcomes, ∀ label,
      (ArchiveRecord.ofValue e.2.encode).read Outcome.decode label =
        if readable e.2 then .ok (f e.2) else .error .malformed) :
    loadOutcomes name (outcomes.map outcomeRow) =
      if ∀ e ∈ outcomes, readable e.2 then
        .ok (outcomes.map fun e => (e.1, f e.2))
      else .error .malformed := by
  induction outcomes with
  | nil => rfl
  | cons e rest ih =>
      rw [List.forall_mem_cons] at hread
      rw [List.map_cons, outcomeRow, loadOutcomes, hread.1, ih hread.2]
      simp only [List.forall_mem_cons]
      by_cases he : readable e.2
      · rw [if_pos he]
        simp only [he, true_and]
        split <;> rfl
      · have hnot : ¬(readable e.2 ∧ ∀ q ∈ rest, readable q.2) :=
          fun h => he h.1
        rw [if_neg he, if_neg hnot]

theorem loadOutcomes_outcomeRow (name : String)
    {outcomes : List (String × Outcome)}
    (hvalid : ∀ e ∈ outcomes, e.2.IsValid)
    (hsmall : ∀ e ∈ outcomes, ArchiveRecord.IsSmall e.2.encode) :
    loadOutcomes name (outcomes.map outcomeRow) =
      if ∀ e ∈ outcomes, e.2.Fits then
        .ok (outcomes.map fun e => (e.1, e.2.settled))
      else .error .malformed :=
  loadOutcomes_of_read name Outcome.Fits Outcome.settled fun e he =>
    ArchiveRecord.read_ofValue (Outcome.decode_readsBack (hvalid e he))
      (hsmall e he)

end Archive

/-- The outcomes with their values settled. -/
def Fixtures.settled (fixtures : Fixtures) : Fixtures where
  entries := fixtures.entries.map fun e => (e.1, e.2.settled)
  ascending := fixtures.ascending.map fun e => e.2.settled

namespace Archive

/-- Receipts and sets come back settled, and not at all when one of them has a
value that is too deep. -/
theorem run_gives_back (actions : List ArchiveAction)
    (hvalid : ∀ action ∈ actions, action.IsValid) :
    let archive := (empty.run actions).1
    let done := (empty.run actions).2
    (∀ session, archive.load session =
      if ∀ r ∈ receiptsOf session done, r.Fits then
        .ok ((receiptsOf session done).map Receipt.settled)
      else .error .malformed) ∧
    ∀ name fixtures, fixturesOf? name done = some fixtures →
      archive.loadFixtures name =
        if ∀ e ∈ fixtures.entries, e.2.Fits then .ok (some fixtures.settled)
        else .error .malformed := by
  intro archive done
  have hholds : Holds archive done := holds_empty.run actions
  have hdone : ∀ action ∈ done, action.IsValid :=
    fun action haction => hvalid action (mem_of_mem_run haction)
  constructor
  · intro session
    have hreceipts : ∀ r ∈ receiptsOf session done,
        .append session r ∈ done :=
      fun r hr => append_mem_of_mem_receiptsOf hr
    rw [load, hholds.receipts session]
    apply loadRows_receiptRow
    · exact fun r hr => hdone _ (hreceipts r hr)
    · exact fun r hr => hholds.small _ (hreceipts r hr) _ List.mem_cons_self
  · intro name fixtures hfixtures
    have hsave : .save name fixtures ∈ done := save_mem_of_fixturesOf? hfixtures
    obtain ⟨hname, hsize, hrows⟩ := hholds.sets name fixtures hfixtures
    have hloaded := loadOutcomes_outcomeRow name (hdone _ hsave)
      fun e he => hholds.small _ hsave _ (List.mem_map.2 ⟨e, he, rfl⟩)
    rw [loadFixtures, hname, hsize]
    dsimp only
    rw [hrows, List.length_map, if_neg (by simp), hloaded]
    split
    · have hset : KeyMap.ofList fixtures.settled.entries = fixtures.settled :=
        KeyMap.ofList_entries fixtures.settled
      exact congrArg (fun set => Except.ok (some set)) hset
    · rfl

/-- An outcome that carries two to the power of sixty as a real number. -/
def powerOutcome : Outcome :=
  .ok ⟨.num (.real ⟨0x43B0000000000000⟩), .null⟩

/-- A set of this one outcome. -/
def powerFixtures : Fixtures := KeyMap.empty.insert "f1" powerOutcome

theorem powerOutcome_isValid : powerOutcome.IsValid := ⟨rfl, trivial⟩

theorem powerOutcome_canonicalText : powerOutcome.encode.canonicalText =
    "\x7b\"data\":1152921504606847000,\"outcome\":\"ok\",\"raw\":null\x7d" := by
  rw [powerOutcome, Outcome.encode, Json.canonicalText,
    Json.canonical_obj_of_sorted]
  · decide +kernel
  · change (["data", "outcome", "raw"].map Json.quoted).Pairwise
      fun a b => ¬b < a
    decide

theorem powerOutcome_isSmall : ArchiveRecord.IsSmall powerOutcome.encode := by
  rw [ArchiveRecord.IsSmall, ArchiveRecord.ofValue, powerOutcome_canonicalText]
  decide

/-- The number is written without a point, and comes back as the integer that
its shortest decimal stands for. -/
theorem power_comes_back_as_integer :
    (∀ action ∈ [ArchiveAction.save "set" powerFixtures], action.IsValid) ∧
    (empty.run [.save "set" powerFixtures]).1.loadFixtures "set" =
      .ok (some (KeyMap.empty.insert "f1"
        (.ok ⟨.num (.int 1152921504606847000), .null⟩))) := by
  have hentries : ∀ e ∈ powerFixtures.entries, e = ("f1", powerOutcome) :=
    fun e he => List.mem_singleton.1 he
  have hvalid : ∀ action ∈ [ArchiveAction.save "set" powerFixtures],
      action.IsValid := by
    intro action haction
    rw [List.mem_singleton.1 haction]
    intro e he
    rw [hentries e he]
    exact powerOutcome_isValid
  have hsmall : ∀ e ∈ powerFixtures.entries,
      ArchiveRecord.IsSmall e.2.encode := by
    intro e he
    rw [hentries e he]
    exact powerOutcome_isSmall
  have hname : checkSetName "set" = .ok () := by decide +kernel
  have hsave := (saveFixtures_eq_ok_iff (a := empty)).2 ⟨hname, hsmall, rfl⟩
  have hkept : fixturesOf? "set" (empty.run [.save "set" powerFixtures]).2 =
      some powerFixtures := by
    rw [run, act, hsave]
    rfl
  refine ⟨hvalid, ?_⟩
  rw [(run_gives_back _ hvalid).2 "set" powerFixtures hkept, if_pos]
  · decide +kernel
  · decide +kernel

end Archive

end CallGate
