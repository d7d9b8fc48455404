import CallGate.Proofs.Settings.Listed
import CallGate.Proofs.Text.Pieces
import CallGate.Settings.Outlets
import Mathlib.Data.String.Basic

/-!
# Paths of archives

Settings check the path of an archive without the blanks around it, and the
archive checks the path as it is written, with the same limits.  The blanks
make the whole path longer, and its first and its last piece; no other piece
has any of them.  So the two checks part where the blanks, and nothing but the
blanks, lead over a limit.
-/

namespace CallGate

namespace Location

/-- The first piece of a path. -/
def firstPiece (path : String) : String := (pieces path).headD ""

/-- The last piece of a path. -/
def lastPiece (path : String) : String := (pieces path).getLastD ""

end Location

/-- The path and each of its pieces have no more bytes than they may. -/
structure WithinLimits (path : String) : Prop where
  whole : path.utf8ByteSize ≤ maxPathBytes
  pieces : ∀ piece ∈ Location.pieces path,
    piece.utf8ByteSize ≤ maxPieceBytes

variable {path : String} {isDirectory : String → Bool} {r : ReceiptSettings}

theorem withinLimits_iff :
    WithinLimits path ↔
      isLongPath path = false ∧ hasLongPiece path = false := by
  rw [isLongPath, hasLongPiece, List.any_eq_false, decide_eq_false_iff_not]
  simp only [isLongPiece, decide_eq_true_eq, Nat.not_lt]
  exact ⟨fun h => ⟨h.whole, h.pieces⟩, fun h => ⟨h.1, h.2⟩⟩

/-! ## Blanks around a path -/

/-- What blanks stand around a path, and to which pieces they belong. -/
theorem exists_padded_pieces (path : String) :
    ∃ front back, path =
        .ofList front ++ (Text.trim path ++ .ofList back) ∧
      Text.Padded front back (Text.pieces '/' (Text.trim path).toList)
        (Text.pieces '/' path.toList) := by
  obtain ⟨front, back, hpath, hfront, hback⟩ :=
    Text.exists_around_trimChars path.toList
  have hslash {text : List Char} (h : ∀ c ∈ text, Text.isBlank c = true) :
      '/' ∉ text :=
    fun hmem => by cases h '/' hmem
  refine ⟨front, back, ?_, ?_⟩
  · rw [Text.trim, ← String.ofList_append, ← String.ofList_append, ← hpath,
      String.ofList_toList]
  · rw [Text.trim, String.toList_ofList]
    have hpadded := Text.padded_pieces (hslash hfront) (hslash hback)
      (Text.trimChars path.toList)
    rwa [← hpath] at hpadded

theorem utf8ByteSize_ofList_append (text other : List Char) :
    (String.ofList (text ++ other)).utf8ByteSize =
      (String.ofList text).utf8ByteSize +
        (String.ofList other).utf8ByteSize := by
  rw [String.ofList_append, String.utf8ByteSize_append]

/-- A path within the limits is within them without the blanks around it. -/
theorem WithinLimits.trim (h : WithinLimits path) :
    WithinLimits (Text.trim path) := by
  obtain ⟨front, back, hpath, hpadded⟩ := exists_padded_pieces path
  constructor
  · have hwhole := h.whole
    rw [hpath, String.utf8ByteSize_append, String.utf8ByteSize_append]
      at hwhole
    omega
  · have hpieces := h.pieces
    simp only [Location.pieces, List.forall_mem_map] at hpieces ⊢
    generalize Text.pieces '/' path.toList = padded at hpadded hpieces
    generalize Text.pieces '/' (Text.trim path).toList = bare at hpadded ⊢
    cases hpadded with
    | single piece =>
        rw [List.forall_mem_singleton, utf8ByteSize_ofList_append,
          utf8ByteSize_ofList_append] at hpieces
        rw [List.forall_mem_singleton]
        omega
    | several first middle last =>
        rw [List.forall_mem_cons, List.forall_mem_append,
          List.forall_mem_singleton, utf8ByteSize_ofList_append,
          utf8ByteSize_ofList_append] at hpieces
        obtain ⟨hfirst, hmiddle, hlast⟩ := hpieces
        rw [List.forall_mem_cons, List.forall_mem_append,
          List.forall_mem_singleton]
        exact ⟨by omega, hmiddle, by omega⟩

/-- When a path is within the limits without the blanks around it, it is so as
it is written if the whole and its first and its last piece are.  The pieces in
the middle have none of the blanks. -/
theorem withinLimits_iff_of_trim (h : WithinLimits (Text.trim path)) :
    WithinLimits path ↔ path.utf8ByteSize ≤ maxPathBytes ∧
      (Location.firstPiece path).utf8ByteSize ≤ maxPieceBytes ∧
      (Location.lastPiece path).utf8ByteSize ≤ maxPieceBytes := by
  obtain ⟨front, back, -, hpadded⟩ := exists_padded_pieces path
  have hiff : WithinLimits path ↔ path.utf8ByteSize ≤ maxPathBytes ∧
      ∀ piece ∈ Location.pieces path, piece.utf8ByteSize ≤ maxPieceBytes :=
    ⟨fun h => ⟨h.whole, h.pieces⟩, fun h => ⟨h.1, h.2⟩⟩
  rw [hiff, Location.firstPiece, Location.lastPiece]
  refine and_congr_right fun _ => ?_
  have hpieces := h.pieces
  rw [Location.pieces] at hpieces ⊢
  generalize Text.pieces '/' path.toList = padded at hpadded ⊢
  generalize Text.pieces '/' (Text.trim path).toList = bare
    at hpadded hpieces
  cases hpadded with
  | single piece => simp
  | several first middle last =>
      have hmiddle : ∀ piece ∈ middle.map String.ofList,
          piece.utf8ByteSize ≤ maxPieceBytes := by
        intro piece hpiece
        refine hpieces piece (List.mem_cons_of_mem _ ?_)
        rw [List.map_append]
        exact List.mem_append_left _ hpiece
      rw [List.map_cons, List.map_append, List.map_singleton,
        List.headD_cons, ← List.cons_append, List.getLastD_concat,
        List.forall_mem_append, List.forall_mem_cons,
        List.forall_mem_singleton]
      exact ⟨fun h => ⟨h.1.1, h.2⟩, fun h => ⟨⟨h.1, hmiddle⟩, h.2⟩⟩

/-! ## The two checks -/

theorem Archive.checkPath_eq_ok_iff :
    Archive.checkPath isDirectory path = .ok () ↔
      WithinLimits path ∧ isDirectory path = false := by
  rw [Archive.checkPath, withinLimits_iff]
  cases isLongPath path <;> cases hasLongPiece path <;>
    cases isDirectory path <;> simp

namespace Settings

theorem checkPath_eq_ok_iff {field : String} :
    checkPath field path = .ok () ↔
      Text.trim path ≠ "" ∧ WithinLimits (Text.trim path) := by
  rw [checkPath, withinLimits_iff, ne_eq, ← String.isEmpty_iff]
  cases (Text.trim path).isEmpty <;> cases isLongPath (Text.trim path) <;>
    cases hasLongPiece (Text.trim path) <;> simp [demand]

/-- Settings for an archive are accepted if its path is not blank, within the
limits without the blanks around it, and not that of a directory. -/
theorem checkReceipts_eq_ok_iff (hkind : r.kind = .archive) :
    checkReceipts isDirectory r = .ok () ↔
      ∃ path, r.path = some path ∧ Text.trim path ≠ "" ∧
        WithinLimits (Text.trim path) ∧ isDirectory path = false := by
  rw [checkReceipts, hkind]
  cases hpath : r.path with
  | none => simp
  | some path =>
      have hdemand (holds : Bool) (e : SettingsError) :
          demand holds e = .ok () ↔ holds = true := by
        cases holds <;> simp [demand]
      dsimp only
      constructor
      · intro h
        obtain ⟨_, hchecked, hdirectory⟩ := exists_of_bind_eq_ok h
        obtain ⟨hne, hlimits⟩ := checkPath_eq_ok_iff.1 hchecked
        rw [hdemand, Bool.not_eq_true'] at hdirectory
        exact ⟨path, rfl, hne, hlimits, hdirectory⟩
      · rintro ⟨_, ⟨⟩, hne, hlimits, hdirectory⟩
        rw [checkPath_eq_ok_iff.2 ⟨hne, hlimits⟩]
        exact (hdemand _ _).2 (by rw [hdirectory]; rfl)

theorem checkReceipts_of_check {settings : Settings}
    (h : settings.check isDirectory = .ok ()) :
    checkReceipts isDirectory settings.receipts = .ok () := by
  obtain ⟨registry, -, h⟩ := check_eq_ok_iff.1 h
  obtain ⟨_, -, h⟩ := exists_of_bind_eq_ok h
  obtain ⟨_, -, h⟩ := exists_of_bind_eq_ok h
  obtain ⟨_, -, h⟩ := exists_of_bind_eq_ok h
  obtain ⟨_, -, h⟩ := exists_of_bind_eq_ok h
  obtain ⟨_, -, h⟩ := exists_of_bind_eq_ok h
  obtain ⟨_, hreceipts, -⟩ := exists_of_bind_eq_ok h
  exact hreceipts

/-- Settings that are accepted give an archive the path as it is written.  The
archive refuses it exactly when the blanks around it make the whole path, its
first piece or its last one too long; it is never refused for being that of a
directory, nor at all if there are no blanks around it.  When it is refused,
no disk that the settings were checked against has anything opened. -/
theorem accepted_path_refused_iff {settings : Settings}
    (h : settings.check isDirectory = .ok ())
    (hkind : settings.receipts.kind = .archive) :
    ∃ o, settings.receipts.archive? = some o ∧
      settings.receipts.path = some o.path ∧
      ((∃ e, Archive.checkPath isDirectory o.path = .error e) ↔
        maxPathBytes < o.path.utf8ByteSize ∨
          maxPieceBytes < (Location.firstPiece o.path).utf8ByteSize ∨
          maxPieceBytes < (Location.lastPiece o.path).utf8ByteSize) ∧
      ∀ e, Archive.checkPath isDirectory o.path = .error e →
        (e = .longPath ∨ e = .longPiece) ∧ Text.trim o.path ≠ o.path ∧
          ∀ d : Disk, d.isDirectory = isDirectory →
            settings.receipts.opened d = (d, none) := by
  obtain ⟨path, hpath, -, hlimits, hdirectory⟩ :=
    (checkReceipts_eq_ok_iff hkind).1 (checkReceipts_of_check h)
  let o : ArchiveOptions :=
    ⟨path, settings.receipts.busyTimeout, settings.receipts.journal,
      settings.receipts.sync⟩
  have harchive : settings.receipts.archive? = some o := by
    rw [ReceiptSettings.archive?, hkind, hpath]
  have hrefused : (∃ e, Archive.checkPath isDirectory path = .error e) ↔
      ¬WithinLimits path := by
    have hok : Archive.checkPath isDirectory path = .ok () ↔ _ :=
      Archive.checkPath_eq_ok_iff
    cases hcheck : Archive.checkPath isDirectory path with
    | error e => simpa [hcheck, hdirectory] using hok
    | ok => simpa [hcheck, hdirectory] using hok
  refine ⟨o, harchive, hpath, ?_, ?_⟩
  · change (∃ e, Archive.checkPath isDirectory path = .error e) ↔ _
    rw [hrefused, withinLimits_iff_of_trim hlimits, not_and_or, not_and_or,
      Nat.not_le, Nat.not_le, Nat.not_le]
  · intro e he
    have hbeyond := hrefused.1 ⟨e, he⟩
    refine ⟨?_, ?_, ?_⟩
    · rw [Archive.checkPath, hdirectory] at he
      split at he
      · exact Or.inl (Except.error.inj he).symm
      · split at he
        · exact Or.inr (Except.error.inj he).symm
        · cases he
    · intro hsame
      have hwritten : Text.trim path = path := hsame
      exact hbeyond (hwritten ▸ hlimits)
    · rintro d rfl
      rw [ReceiptSettings.opened, hkind, hpath]
      dsimp only
      rw [ReceiptSettings.openedArchive, he]

/-- A path with blanks behind it. -/
def paddedPath : List Char :=
  'r' :: '.' :: 'd' :: 'b' :: List.replicate 300 ' '

def paddedReceipts : ReceiptSettings :=
  { kind := .archive, path := some (.ofList paddedPath) }

/-- Settings that say nothing but where receipts go are accepted when this
is. -/
theorem check_of_checkReceipts (h : checkReceipts isDirectory r = .ok ()) :
    check isDirectory { receipts := r } = .ok () := by
  have hoffice : Registry.office.toOption.any (fun _ => true) = true := by
    decide +kernel
  obtain ⟨registry, hregistry, -⟩ := exists_ok_of_any hoffice
  refine check_eq_ok_iff.2 ⟨registry, hregistry, ?_⟩
  rw [checkWith]
  dsimp only
  rw [h]
  rfl

/-- Settings with this path are accepted, and the archive refuses it. -/
theorem padded_path_refused :
    let isDirectory : String → Bool := fun _ => false
    let settings : Settings := { receipts := paddedReceipts }
    settings.check isDirectory = .ok () ∧
      ∃ o, settings.receipts.archive? = some o ∧
        ∃ e, Archive.checkPath isDirectory o.path = .error e := by
  intro isDirectory settings
  have htrim : Text.trim (.ofList paddedPath) = "r.db" := by
    have hchars : Text.trimChars paddedPath = "r.db".toList := by
      decide +kernel
    rw [Text.trim, String.toList_ofList, hchars, String.ofList_toList]
  have hpieces : Location.pieces (.ofList paddedPath) =
      [.ofList paddedPath] := by
    have hchars : Text.pieces '/' paddedPath = [paddedPath] := by
      decide +kernel
    rw [Location.pieces, String.toList_ofList, hchars, List.map_singleton]
  have hlong : maxPieceBytes <
      (Location.lastPiece (.ofList paddedPath)).utf8ByteSize := by
    rw [Location.lastPiece, hpieces, List.getLastD_cons, List.getLastD_nil,
      String.utf8ByteSize_ofList]
    decide +kernel
  have hcheck : settings.check isDirectory = .ok () := by
    refine check_of_checkReceipts ((checkReceipts_eq_ok_iff rfl).2
      ⟨_, rfl, ?_, ?_, rfl⟩)
    · rw [htrim]
      decide
    · rw [htrim, withinLimits_iff]
      decide +kernel
  obtain ⟨o, harchive, hpath, hrefused, -⟩ :=
    accepted_path_refused_iff hcheck rfl
  have hsame : .ofList paddedPath = o.path := Option.some.inj hpath
  rw [hsame] at hlong
  exact ⟨hcheck, o, harchive, hrefused.2 (Or.inr (Or.inr hlong))⟩

end Settings

end CallGate
