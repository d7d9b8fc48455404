import CallGate.Proofs.Archive.Receipts

/-!
# Receipts that were edited underneath

A receipt is loaded from a row only when the payload of the row is not too
large, has the digest that stands beside it, and holds a receipt of the row's
number.  In an archive that was not edited the payload of a row determines all
its other columns, and the digest determines the payload as far as digests do
not collide.  So an edit that leaves one of the two as it was is noticed.
-/

namespace CallGate

/-- A record is read when it is not too large, has its digest under the
algorithm that is understood, and holds a text that can be read. -/
theorem ArchiveRecord.read_eq_ok_iff {α : Type} {decode : Decoder α}
    {label : String} {record : ArchiveRecord} {value : α} :
    record.read decode label = .ok value ↔
      record.payload.size ≤ ArchiveError.maxPayloadBytes ∧
        record.algorithm = ContentDigest.algorithm ∧
        Sha256.hex record.payload = record.hash ∧
        ∃ text, String.fromUTF8? record.payload = some text ∧
          Decoder.fromText decode text = .ok value := by
  rw [read, checkSize]
  by_cases hlarge : record.payload.size > ArchiveError.maxPayloadBytes
  · rw [if_pos hlarge]
    simp [not_le.2 hlarge]
  rw [if_neg hlarge, and_iff_right (not_lt.1 hlarge)]
  dsimp only
  by_cases halgorithm : record.algorithm = ContentDigest.algorithm
  · rw [if_neg (not_not.2 halgorithm), and_iff_right halgorithm]
    by_cases hhash : Sha256.hex record.payload = record.hash
    · rw [if_neg (not_not.2 hhash), and_iff_right hhash]
      cases String.fromUTF8? record.payload with
      | none => simp
      | some text =>
          simp only [Option.some.injEq, exists_eq_left']
          cases Decoder.fromText decode text <;> simp [Except.mapError]
    · simp [hhash]
  · simp [halgorithm]

namespace Archive

/-- The row holds a receipt as it should: in a payload that is not too large,
with the digest of the payload beside it, and under the receipt's number. -/
structure Genuine (row : ℤ × ArchiveRecord) (r : Receipt) : Prop where
  small : row.2.payload.size ≤ ArchiveError.maxPayloadBytes
  algorithm : row.2.algorithm = "sha256"
  hash : Sha256.hex row.2.payload = row.2.hash
  holds : ∃ text, String.fromUTF8? row.2.payload = some text ∧
    Decoder.fromText Receipt.decode text = .ok r
  sequence : (r.sequence : ℤ) = row.1

variable {a c : Archive} {session : String} {row : ℤ × ArchiveRecord}
  {r q : Receipt}

theorem loadRow_eq_ok_iff : loadRow session row = .ok r ↔ Genuine row r := by
  constructor
  · intro h
    obtain ⟨hread, hsequence⟩ := of_loadRow_eq_ok h
    obtain ⟨hsmall, halgorithm, hhash, hholds⟩ :=
      ArchiveRecord.read_eq_ok_iff.1 hread
    exact ⟨hsmall, halgorithm, hhash, hholds, hsequence⟩
  · intro h
    have hread : row.2.read Receipt.decode (receiptLabel session row.1) =
        .ok r :=
      ArchiveRecord.read_eq_ok_iff.2 ⟨h.small, h.algorithm, h.hash, h.holds⟩
    rw [loadRow, hread]
    exact if_pos h.sequence

/-- Rows are loaded when each of them holds a receipt as it should. -/
theorem loadRows_eq_ok_iff {rows : List (ℤ × ArchiveRecord)}
    {receipts : List Receipt} :
    loadRows session rows = .ok receipts ↔
      List.Forall₂ Genuine rows receipts := by
  constructor
  · intro h
    exact (forall₂_of_loadRows_eq_ok h).imp fun _ _ => loadRow_eq_ok_iff.1
  · intro h
    induction h with
    | nil => rfl
    | cons hrow _ ih =>
        rw [loadRows, loadRow_eq_ok_iff.2 hrow, ih]
        rfl

theorem exists_genuine_of_mem {rows : List (ℤ × ArchiveRecord)}
    {receipts : List Receipt} (h : List.Forall₂ Genuine rows receipts)
    (hmem : row ∈ rows) : ∃ r, Genuine row r := by
  obtain ⟨i, hi, rfl⟩ := List.mem_iff_getElem.1 hmem
  exact ⟨receipts.get ⟨i, h.length_eq ▸ hi⟩, h.get hi _⟩

/-- A row that is given a number and the record of a receipt holds a receipt
of that receipt's number, if it holds one at all. -/
theorem Genuine.sequence_eq {n : ℤ} (hvalid : q.IsValid)
    (hsmall : ArchiveRecord.IsSmall q.encode)
    (h : Genuine (n, .ofValue q.encode) r) : n = q.sequence := by
  have hload : loadRow "" (n, .ofValue q.encode) = .ok r :=
    loadRow_eq_ok_iff.2 h
  have hread := (of_loadRow_eq_ok hload).1
  rw [ArchiveRecord.read_ofValue (Receipt.decode_readsBack hvalid) hsmall]
    at hread
  split at hread
  · cases hread
    exact h.sequence.symm
  · cases hread

/-- A row with the payload or the digest of a receipt holds no other receipt,
nor that one under another number, unless digests collide.  All other columns
follow from the payload. -/
theorem Genuine.eq_receiptRow (hvalid : q.IsValid)
    (hsmall : ArchiveRecord.IsSmall q.encode) (h : Genuine row r)
    (hkeeps : row.2.payload = (receiptRow q).2.payload ∨
      row.2.hash = (receiptRow q).2.hash)
    (hcollision : Sha256.hex row.2.payload =
        Sha256.hex (receiptRow q).2.payload →
      row.2.payload = (receiptRow q).2.payload) :
    row = receiptRow q := by
  have hpayload : row.2.payload = (receiptRow q).2.payload := by
    rcases hkeeps with hsame | hsame
    · exact hsame
    · exact hcollision (h.hash.trans hsame)
  obtain ⟨n, payload, hash, algorithm⟩ := row
  have hhash : Sha256.hex payload = hash := h.hash
  have halgorithm : algorithm = "sha256" := h.algorithm
  have hrecord : (⟨payload, hash, algorithm⟩ : ArchiveRecord) =
      .ofValue q.encode := by
    rw [← hhash, halgorithm, show payload = (receiptRow q).2.payload from
      hpayload]
    rfl
  rw [hrecord] at h ⊢
  rw [h.sequence_eq hvalid hsmall, receiptRow]

/-- The archive after an edit of the columns of a row, of its number last. -/
def editRow (a : Archive) (session : String) (sequence target : ℤ)
    (edit : RecordEdit) : Except ArchiveError Archive :=
  (a.editReceipt session sequence edit).moveReceipt session sequence target

/-- The archive with other rows for a session. -/
def withReceipts (a : Archive) (session : String)
    (rows : KeyMap ℤ ArchiveRecord) : Archive :=
  { a with receipts := a.receipts.insert session rows }

theorem session_withReceipts (a : Archive) (session other : String)
    (rows : KeyMap ℤ ArchiveRecord) :
    (a.withReceipts session rows).session other =
      if other = session then rows else a.session other := by
  rw [Archive.session, withReceipts, KeyMap.get?_insert]
  split <;> rfl

/-- A row that is edited is there as it was edited, and the rows of other
sessions are what they were. -/
theorem mem_session_of_editRow {sequence target : ℤ} {record : ArchiveRecord}
    {edit : RecordEdit}
    (hrow : (a.session session).get? sequence = some record)
    (hedit : a.editRow session sequence target edit = .ok c) :
    (target, edit.apply record) ∈ (c.session session).entries ∧
      ∀ other, other ≠ session → c.session other = a.session other := by
  have hedited : a.editReceipt session sequence edit =
      a.withReceipts session
        ((a.session session).insert sequence (edit.apply record)) := by
    rw [editReceipt, hrow]
    rfl
  rw [editRow, hedited, moveReceipt, session_withReceipts, if_pos rfl,
    KeyMap.get?_insert_self] at hedit
  dsimp only at hedit
  split at hedit
  · cases hedit
  · obtain rfl := Except.ok.inj hedit
    constructor
    · apply KeyMap.mem_entries_iff.2
      rw [Archive.session, KeyMap.get?_insert_self, Option.getD_some,
        KeyMap.get?_insert_self]
    · intro other hother
      rw [Archive.session, KeyMap.get?_insert_of_ne _ hother, withReceipts,
        KeyMap.get?_insert_of_ne _ hother]
      rfl

/-- An edit that leaves the number of a row is done. -/
theorem exists_editRow_eq_ok (a : Archive) (session : String) (sequence : ℤ)
    (edit : RecordEdit) :
    ∃ c, a.editRow session sequence sequence edit = .ok c := by
  rw [editRow, moveReceipt]
  split
  · exact ⟨_, rfl⟩
  · exact ⟨_, if_neg (by simp)⟩

end Archive

open Archive

/-- Whatever the rows of a session are, its receipts are loaded only when each
row holds one as it should.  In an archive to which receipts were added, an
edit of a row is noticed when the receipts of the session are loaded, unless
it changes both the payload and the digest; those of other sessions are loaded
as before. -/
theorem edited_receipt_rows_refused (isDirectory : String → Bool)
    (actions : List ShelfAction) (path session : String)
    (hvalid : ∀ r ∈ receiptsOf session
      ((runActions (Ledgers.next isDirectory) .empty actions).1.done path),
        r.IsValid) :
    let a := (runActions (Shelf.next isDirectory) .empty actions).1.archiveAt
      path
    (∀ (any : Archive) (name : String) (receipts : List Receipt),
      any.load name = .ok receipts ↔
        List.Forall₂ Genuine (any.session name).entries receipts) ∧
    ∀ (sequence target : ℤ) (record : ArchiveRecord) (edit : RecordEdit)
      (c : Archive),
      (a.session session).get? sequence = some record →
      a.editRow session sequence target edit = .ok c →
      (target, edit.apply record) ≠ (sequence, record) →
      ((edit.apply record).payload = record.payload ∨
        (edit.apply record).hash = record.hash) →
      (Sha256.hex (edit.apply record).payload = Sha256.hex record.payload →
        (edit.apply record).payload = record.payload) →
      (∃ e, c.load session = .error e) ∧
        ∀ other, other ≠ session → c.load other = a.load other := by
  intro a
  refine ⟨fun _ _ _ => loadRows_eq_ok_iff, ?_⟩
  intro sequence target record edit c hrow hedit hchanged hkeeps hcollision
  obtain ⟨hmem, hothers⟩ := mem_session_of_editRow hrow hedit
  constructor
  · cases hload : c.load session with
    | error e => exact ⟨e, rfl⟩
    | ok receipts =>
        refine absurd ?_ hchanged
        have hkept := (KeepsLedgers.run isDirectory actions).2.kept path
        obtain ⟨q, hq, hqrow⟩ : ∃ q ∈ receiptsOf session
            ((runActions (Ledgers.next isDirectory) .empty actions).1.done
              path), receiptRow q = (sequence, record) := by
          rw [← List.mem_map, ← hkept.receipts session]
          exact KeyMap.mem_entries_iff.2 hrow
        have hsmall : ArchiveRecord.IsSmall q.encode :=
          hkept.small _ (append_mem_of_mem_receiptsOf hq) _ List.mem_cons_self
        obtain ⟨r, hgenuine⟩ :=
          exists_genuine_of_mem (loadRows_eq_ok_iff.1 hload) hmem
        rw [← hqrow]
        refine hgenuine.eq_receiptRow (hvalid q hq) hsmall ?_ ?_
        · rw [hqrow]
          exact hkeeps
        · rw [hqrow]
          exact hcollision
  · intro other hother
    rw [load, load, hothers other hother]

/-- The receipt of a call that read a document. -/
def openedReceipt : Receipt :=
  { sequence := 1, fingerprint := "f1", service := "docs"
    operation := "docs.read", risk := .read
    decision := ⟨.allow, .read⟩, status := .ok
    redactedArgs := .null, redactedResult := .null, timestamp := .logical 1 }

/-- It is kept. -/
def openedActions : List ShelfAction :=
  [.opening "store", .acting (.append "s1" openedReceipt)]

/-- The archive in which it is kept. -/
def openedArchive : Archive :=
  (runActions (Shelf.next fun _ => false) .empty openedActions).1.archiveAt
    "store"

theorem openedReceipt_canonicalText : openedReceipt.encode.canonicalText =
    "\x7b\"decision\":\x7b\"action\":\"allow\",\"reason\":\"read\"\x7d," ++
    "\"fingerprint\":\"f1\",\"operation\":\"docs.read\"," ++
    "\"operation_class\":\"read\",\"redacted_args\":null," ++
    "\"redacted_result\":null,\"result_status\":\"ok\",\"sequence\":1," ++
    "\"service\":\"docs\"," ++
    "\"timestamp\":\x7b\"kind\":\"logical\",\"value\":1\x7d\x7d" := by
  have hdecision : (Decision.encode ⟨.allow, .read⟩).canonical =
      "\x7b\"action\":\"allow\",\"reason\":\"read\"\x7d".toList := by
    rw [Decision.encode, Json.canonical_obj_of_sorted (by decide)]
    decide
  have htimestamp : (Timestamp.encode (.logical 1)).canonical =
      "\x7b\"kind\":\"logical\",\"value\":1\x7d".toList := by
    rw [Timestamp.encode, Json.canonical_obj_of_sorted (by decide)]
    decide
  rw [Json.canonicalText, openedReceipt, Receipt.encode,
    Json.canonical_obj_of_sorted (by decide)]
  simp only [Json.canonicalMembers, hdecision, htimestamp]
  decide +kernel

theorem openedReceipt_kept :
    receiptsOf "s1" ((runActions (Ledgers.next fun _ => false) .empty
      openedActions).1.done "store") = [openedReceipt] := by
  have hopening : checkOpening (fun _ => false) "store" = .ok () := by
    decide +kernel
  have hadmits : Admits [] (.append "s1" openedReceipt) := by
    refine ⟨?_, by decide, by simp [receiptsOf]⟩
    rw [ArchiveRecord.IsSmall, ArchiveRecord.ofValue,
      openedReceipt_canonicalText]
    decide +kernel
  rw [openedActions, runActions, runActions, runActions, Ledgers.next,
    hopening]
  dsimp only
  rw [Ledgers.next]
  simp [Ledgers.empty, Ledgers.close, hadmits, receiptsOf,
    ArchiveAction.receipt?]

/-- Another algorithm beside the digest of the receipt is noticed. -/
theorem openedReceipt_edited_refused :
    ∃ c, openedArchive.editRow "s1" 1 1 { algorithm := some "md5" } = .ok c ∧
      ∃ e, c.load "s1" = .error e := by
  have hvalid : ∀ r ∈ receiptsOf "s1" ((runActions
      (Ledgers.next fun _ => false) .empty openedActions).1.done "store"),
        r.IsValid := by
    rw [openedReceipt_kept]
    intro r hr
    rw [List.mem_singleton.1 hr]
    exact ⟨by decide, trivial, trivial, Nat.one_lt_two_pow (by decide)⟩
  have hrow : (openedArchive.session "s1").get? 1 =
      some (receiptRow openedReceipt).2 := by
    have hkept := (KeepsLedgers.run (fun _ => false) openedActions).2.kept
      "store"
    have hrows := hkept.receipts "s1"
    rw [openedReceipt_kept] at hrows
    rw [← KeyMap.mem_entries_iff, openedArchive, hrows]
    exact List.mem_singleton.2 rfl
  have halgorithm : "md5" ≠ (receiptRow openedReceipt).2.algorithm := by
    change "md5" ≠ "sha256"
    decide
  obtain ⟨c, hedit⟩ := exists_editRow_eq_ok openedArchive "s1" 1
    { algorithm := some "md5" }
  have hrefused := (edited_receipt_rows_refused (fun _ => false) openedActions
    "store" "s1" hvalid).2 1 1 _ _ c hrow hedit
    (fun h => halgorithm (congrArg (·.2.algorithm) h)) (Or.inl rfl)
    (fun _ => rfl)
  exact ⟨c, hedit, hrefused.1⟩

end CallGate
