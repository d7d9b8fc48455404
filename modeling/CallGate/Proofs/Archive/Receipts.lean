import CallGate.Proofs.Archive.Ledger
import CallGate.Proofs.Text.ByteOrder

/-!
# The receipts that an archive keeps

For each session an archive keeps a list of receipts that only grows at its
end.  Receipts that are accepted are those that are small and come after all
others of their session, and the sessions that have some are listed in the
order of their bytes.
-/

namespace CallGate

namespace Archive

variable {a : Archive} {done : List ArchiveAction} {session : String}

/-! ## Loading -/

theorem of_loadRow_eq_ok {row : ℤ × ArchiveRecord} {r : Receipt}
    (h : loadRow session row = .ok r) :
    row.2.read Receipt.decode (receiptLabel session row.1) = .ok r ∧
      (r.sequence : ℤ) = row.1 := by
  rw [loadRow] at h
  cases hread : row.2.read Receipt.decode (receiptLabel session row.1) with
  | error e =>
      rw [hread] at h
      cases h
  | ok q =>
      rw [hread] at h
      dsimp only at h
      split at h
      · rename_i hkey
        cases h
        exact ⟨rfl, hkey⟩
      · cases h

/-- When rows are loaded, each of them gives one receipt. -/
theorem forall₂_of_loadRows_eq_ok {rows : List (ℤ × ArchiveRecord)}
    {receipts : List Receipt} (h : loadRows session rows = .ok receipts) :
    List.Forall₂ (fun row r => loadRow session row = .ok r) rows receipts := by
  induction rows generalizing receipts with
  | nil =>
      cases h
      exact .nil
  | cons row rest ih =>
      rw [loadRows] at h
      cases hrow : loadRow session row with
      | error e =>
          rw [hrow] at h
          cases h
      | ok r =>
          rw [hrow] at h
          cases hmore : loadRows session rest with
          | error e =>
              rw [hmore] at h
              cases h
          | ok more =>
              rw [hmore] at h
              cases h
              exact .cons hrow (ih hmore)

/-- The receipt comes from the row of another one: it is read from its record,
and has its number. -/
def LoadedFrom (session : String) (r loaded : Receipt) : Prop :=
  (ArchiveRecord.ofValue r.encode).read Receipt.decode
    (receiptLabel session r.sequence) = .ok loaded ∧
      loaded.sequence = r.sequence

theorem Holds.loadedFrom (h : Holds a done) {receipts : List Receipt}
    (hload : a.load session = .ok receipts) :
    List.Forall₂ (LoadedFrom session) (receiptsOf session done) receipts := by
  rw [load, h.receipts session] at hload
  have hrows := forall₂_of_loadRows_eq_ok hload
  rw [List.forall₂_map_left_iff] at hrows
  apply hrows.imp
  intro r loaded hrow
  obtain ⟨hread, hkey⟩ := of_loadRow_eq_ok hrow
  exact ⟨hread, Int.ofNat_inj.1 hkey⟩

/-! ## The order of numbers and of sessions -/

theorem Holds.increasing (h : Holds a done) (session : String) :
    (receiptsOf session done).Pairwise fun q r => q.sequence < r.sequence := by
  have hascending := (a.session session).ascending
  rw [h.receipts session] at hascending
  refine (List.pairwise_map.1 hascending).imp fun hlt => ?_
  exact Int.ofNat_lt.1 (Int.compare_eq_lt.1 hlt)

theorem mem_sessionIds_iff :
    session ∈ a.sessionIds ↔ (a.session session).entries ≠ [] := by
  have hempty (rows : KeyMap ℤ ArchiveRecord) :
      (!rows.entries.isEmpty) = true ↔ rows.entries ≠ [] := by simp
  rw [sessionIds, List.mem_map]
  constructor
  · rintro ⟨⟨name, rows⟩, hmem, rfl⟩
    obtain ⟨hentry, hrows⟩ := List.mem_filter.1 hmem
    rw [Archive.session, KeyMap.mem_entries_iff.1 hentry]
    exact (hempty rows).1 hrows
  · intro hrows
    cases hfound : a.receipts.get? session with
    | none =>
        rw [Archive.session, hfound] at hrows
        exact absurd rfl hrows
    | some rows =>
        rw [Archive.session, hfound] at hrows
        refine ⟨(session, rows), List.mem_filter.2 ⟨?_, ?_⟩, rfl⟩
        · exact KeyMap.mem_entries_iff.2 hfound
        · exact (hempty rows).2 hrows

/-- Sessions are listed once, in the order of the bytes of their names. -/
theorem sessionIds_ascending (a : Archive) :
    (a.sessionIds.map Text.bytes).Pairwise (· < ·) := by
  have hascending : Entries.Ascending
      (a.receipts.entries.filter fun e => !e.2.entries.isEmpty) :=
    a.receipts.ascending.sublist List.filter_sublist
  rw [sessionIds, List.map_map, List.pairwise_map]
  refine hascending.imp fun hlt => ?_
  exact Text.bytes_lt_of_lt (compareOfLessAndEq_eq_lt.1 hlt)

end Archive

open Archive

/-- Whatever is done at a shelf, all of it is accepted that the ledgers admit,
and nothing else.  An archive has for each session the rows of the receipts
that were accepted, in their order and with ascending numbers; when it is
loaded, each row gives one receipt; and it lists the sessions with receipts
once, in the order of their bytes. -/
theorem receipts_refine_ledgers (isDirectory : String → Bool)
    (actions : List ShelfAction) :
    let s := runActions (Shelf.next isDirectory) .empty actions
    let t := runActions (Ledgers.next isDirectory) .empty actions
    s.2 = t.2 ∧
    (∀ action, (s.1.next isDirectory (.acting action)).2 = false →
      (s.1.next isDirectory (.acting action)).1 = s.1) ∧
    (∀ path, t.1.opened = some path → ∀ session r,
      (s.1.next isDirectory (.acting (.append session r))).2 = true ↔
        ArchiveRecord.IsSmall r.encode ∧ r.sequence < 2 ^ 63 ∧
          ∀ q ∈ receiptsOf session (t.1.done path), q.sequence < r.sequence) ∧
    ∀ path session,
      let a := s.1.archiveAt path
      let log := receiptsOf session (t.1.done path)
      (a.session session).entries = log.map receiptRow ∧
      (log.Pairwise fun q r => q.sequence < r.sequence) ∧
      (∀ receipts, a.load session = .ok receipts →
        List.Forall₂ (LoadedFrom session) log receipts) ∧
      (session ∈ a.sessionIds ↔ log ≠ []) ∧
      (a.sessionIds.map Text.bytes).Pairwise (· < ·) := by
  intro s t
  obtain ⟨hanswers, hkeeps⟩ : s.2 = t.2 ∧ KeepsLedgers s.1 t.1 :=
    KeepsLedgers.run isDirectory actions
  refine ⟨hanswers, fun _ => Shelf.next_of_refused, ?_, ?_⟩
  · intro path hopened session r
    exact hkeeps.accepted_iff hopened
  · intro path session a log
    have hkept : a.Kept (t.1.done path) := hkeeps.kept path
    have hrows := hkept.receipts session
    refine ⟨hrows, hkept.increasing session, fun _ => hkept.loadedFrom, ?_,
      sessionIds_ascending a⟩
    rw [mem_sessionIds_iff, hrows, ne_eq, List.map_eq_nil_iff]

end CallGate
