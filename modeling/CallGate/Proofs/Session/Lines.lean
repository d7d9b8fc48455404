import CallGate.Proofs.Call.ReceiptForm
import CallGate.Proofs.Json.OneLine
import CallGate.Proofs.KeyMap
import CallGate.Proofs.Text.Lines
import CallGate.Settings.Outlets

/-!
# Receipts on lines

A sink to a file keeps lines back and writes them later, in the order in which
they came and never a part of one.  Leaving the sink writes what it kept back,
and another sink goes on where the first one ended.  So at any time the file
has the lines of the receipts that were sent first, and after a flush those of
all of them, whatever the receipts contain.
-/

namespace CallGate

/-! ## Opening a file again -/

namespace Disk

variable {d d' : Disk} {place made : Place} {steps : List String}

theorem directories_make (d : Disk) (place : Place) (steps : List String)
    {p : Place} (hp : p ∈ d.directories) :
    p ∈ (d.make place steps).1.directories := by
  induction steps generalizing d place with
  | nil => exact hp
  | cons step rest ih =>
      rw [make]
      split
      · exact ih d _ hp
      · split
        · exact hp
        · exact ih _ _ (List.mem_cons_of_mem _ hp)

theorem hasDirectory_iff {p : Place} :
    d.hasDirectory p = true ↔ p.all (· = "..") = true ∨ p ∈ d.directories := by
  rw [hasDirectory, Bool.or_eq_true, List.contains_iff_mem]

/-- Directories that were made are there from then on. -/
theorem make_again (h : (d.make place steps).2 = some made)
    (hsame : d'.directories = (d.make place steps).1.directories) :
    d'.make place steps = (d', some made) := by
  induction steps generalizing d place with
  | nil =>
      cases h
      rfl
  | cons step rest ih =>
      rw [make] at h hsame
      split at h
      · rename_i hthere
        rw [if_pos hthere] at hsame
        have hstays : d'.hasDirectory (Location.onward place step) = true := by
          rw [hasDirectory_iff] at hthere ⊢
          refine hthere.imp_right fun hp => ?_
          rw [hsame]
          exact directories_make d _ rest hp
        rw [make, if_pos hstays]
        exact ih h hsame
      · rename_i hmissing
        rw [if_neg hmissing] at hsame
        split at h
        · cases h
        · rename_i hfree
          rw [if_neg hfree] at hsame
          have hstays :
              d'.hasDirectory (Location.onward place step) = true := by
            rw [hasDirectory_iff, hsame]
            exact Or.inr (directories_make _ _ rest List.mem_cons_self)
          rw [make, if_pos hstays]
          exact ih h hsame

theorem makeParent_again {path : String}
    (h : (d.makeParent path).2 = some made)
    (hsame : d'.directories = (d.makeParent path).1.directories) :
    d'.makeParent path = (d', some made) := by
  rw [makeParent] at h hsame ⊢
  split
  · rename_i hnul
    rw [if_pos hnul] at h
    cases h
  · rename_i hnul
    rw [if_neg hnul] at h hsame
    exact make_again h hsame

theorem textPlaceIn?_congr (h : d'.directories = d.directories)
    (path : String) (directory : Place) :
    d'.textPlaceIn? path directory = d.textPlaceIn? path directory := by
  have hthere : d'.hasDirectory = d.hasDirectory := by
    funext p
    rw [hasDirectory, hasDirectory, h]
  rw [textPlaceIn?, textPlaceIn?, placeIn?, placeIn?, hthere]

theorem textAt_append_self (d : Disk) (place : Place) (text : List Char) :
    (d.append place text).textAt place = d.textAt place ++ text := by
  rw [append, textAt, KeyMap.get?_insert_self, Option.getD_some]

theorem texts_make (d : Disk) (place : Place) (steps : List String) :
    (d.make place steps).1.texts = d.texts := by
  induction steps generalizing d place with
  | nil => rfl
  | cons step rest ih =>
      rw [make]
      split
      · exact ih d _
      · split
        · rfl
        · exact ih _ _

theorem textAt_makeParent (d : Disk) (path : String) (place : Place) :
    (d.makeParent path).1.textAt place = d.textAt place := by
  rw [makeParent]
  split
  · rfl
  · rw [textAt, texts_make, textAt]

end Disk

/-! ## Files of receipts -/

/-- A file of receipts on a disk and the sink that writes to it. -/
structure ReceiptFile where
  disk : Disk
  place : Place
  sink : ReceiptSink

/-- What is done with a file of receipts. -/
inductive FileAction where
  | append (sent : SentReceipt)
  | flush
  /-- The sink is left, and another one takes its place. -/
  | reopen

/-- The receipts that an action appends. -/
def FileAction.sent : FileAction → List SentReceipt
  | .append sent => [sent]
  | .flush | .reopen => []

namespace ReceiptFile

/-- Opens the file of a path, unless that fails. -/
def opened? (path : String) (d : Disk) : Option ReceiptFile :=
  match ReceiptSettings.openedText path d with
  | (d, some (sink, outlets)) =>
    outlets.receipts.map fun place => ⟨d, place, sink⟩
  | (_, none) => none

/-- Writes what comes of sending or of flushing, unless that was refused. -/
def receive? (f : ReceiptFile) (sending : Sending) : Option ReceiptFile :=
  match sending.refusal with
  | some _ => none
  | none =>
    some { f with
      disk := f.disk.append f.place sending.written
      sink := sending.sink }

/-- Does something with a file, unless that fails. -/
def act? (path : String) (f : ReceiptFile) : FileAction → Option ReceiptFile
  | .append sent => f.receive? (f.sink.send sent)
  | .flush => f.receive? f.sink.flush
  | .reopen => (f.receive? f.sink.flush).bind fun f => opened? path f.disk

def run? (path : String) (f : ReceiptFile) (actions : List FileAction) :
    Option ReceiptFile :=
  actions.foldlM (act? path) f

/-- The text of the file. -/
def text (f : ReceiptFile) : List Char := f.disk.textAt f.place

/-- The bytes of the file. -/
def bytes (f : ReceiptFile) : List UInt8 := Text.bytes (String.ofList f.text)

variable {path : String} {d : Disk} {f : ReceiptFile}
  {directories : List Place} {place : Place} {sent : List SentReceipt}

/-- The path leads to the place whenever there are these directories. -/
def LeadsTo (path : String) (directories : List Place) (place : Place) :
    Prop :=
  ∀ d : Disk, d.directories = directories →
    opened? path d = some ⟨d.append place [], place, .idleFile⟩

/-- A file that was opened is as it was, nothing waits for it, and it can be
opened again. -/
theorem opened?_spec (h : opened? path d = some f) :
    f.text = d.textAt f.place ∧ f.sink = .idleFile ∧
      LeadsTo path f.disk.directories f.place := by
  have hagain (made : Place) (d' : Disk)
      (hmade : (d.makeParent path).2 = some made)
      (hsame : d'.directories = (d.makeParent path).1.directories) :
      d'.makeParent path = (d', some made) :=
    Disk.makeParent_again hmade hsame
  have htext := d.textAt_makeParent path
  rw [opened?, ReceiptSettings.openedText] at h
  generalize d.makeParent path = parent at h hagain htext
  obtain ⟨d', _ | directory⟩ := parent
  · cases h
  · dsimp only [Option.bind_some] at h
    cases hplace : d'.textPlaceIn? path directory with
    | none =>
        rw [hplace] at h
        cases h
    | some place =>
        rw [hplace] at h
        cases h
        refine ⟨?_, rfl, ?_⟩
        · rw [text]
          dsimp only
          rw [Disk.textAt_append_self, List.append_nil, htext]
        · intro later hsame
          have hmade := hagain directory later rfl hsame
          have hthere : later.textPlaceIn? path directory = some place := by
            rw [← hplace]
            exact Disk.textPlaceIn?_congr hsame path directory
          rw [opened?, ReceiptSettings.openedText, hmade]
          dsimp only [Option.bind_some]
          rw [hthere]
          rfl

/-- The lines of receipts. -/
def linesOf (sent : List SentReceipt) : List Char := sent.flatMap receiptLine

@[simp] theorem linesOf_append (sent sent' : List SentReceipt) :
    linesOf (sent ++ sent') = linesOf sent ++ linesOf sent' :=
  List.flatMap_append

@[simp] theorem linesOf_singleton (sent : SentReceipt) :
    linesOf [sent] = receiptLine sent :=
  List.flatMap_singleton _ _

/-- The file has the lines of the receipts that were sent first, and those of
the others wait. -/
structure Keeps (directories : List Place) (place : Place)
    (sent : List SentReceipt) (f : ReceiptFile) : Prop where
  directories_eq : f.disk.directories = directories
  place_eq : f.place = place
  lines : ∃ written waiting, sent = written ++ waiting ∧
    f.text = linesOf written ∧ f.sink = .file (linesOf waiting)

/-- Sending a receipt writes all lines that wait or none of them, and its own
line waits or is written after them. -/
theorem send_file_cases (waiting : List Char) (sent : SentReceipt) :
    let sending := (ReceiptSink.file waiting).send sent
    sending.refusal = none ∧
      (sending.written = [] ∧
          sending.sink = .file (waiting ++ receiptLine sent) ∨
        sending.written = waiting ∧ sending.sink = .file (receiptLine sent) ∨
        sending.written = waiting ++ receiptLine sent ∧
          sending.sink = .file []) := by
  dsimp only [ReceiptSink.send, ReceiptSink.buffer]
  split
  · refine ⟨rfl, ?_⟩
    split
    · exact Or.inl ⟨rfl, rfl⟩
    · exact Or.inr (Or.inl ⟨rfl, rfl⟩)
  · refine ⟨rfl, Or.inr (Or.inr ⟨?_, rfl⟩)⟩
    split
    · rfl
    · simp

theorem Keeps.receive (h : Keeps directories place sent f)
    {sending : Sending} {written waiting : List SentReceipt}
    (hrefusal : sending.refusal = none)
    (htext : f.text ++ sending.written = linesOf written)
    (hsink : sending.sink = .file (linesOf waiting)) :
    ∃ last, f.receive? sending = some last ∧
      Keeps directories place (written ++ waiting) last := by
  let last : ReceiptFile :=
    { f with
      disk := f.disk.append f.place sending.written
      sink := sending.sink }
  have hlast : f.receive? sending = some last := by rw [receive?, hrefusal]
  refine ⟨last, hlast, h.directories_eq, h.place_eq, written, waiting, rfl,
    ?_, hsink⟩
  rw [← htext]
  exact Disk.textAt_append_self f.disk f.place sending.written

theorem Keeps.flush (h : Keeps directories place sent f) :
    ∃ last, f.receive? f.sink.flush = some last ∧
      Keeps directories place sent last ∧ last.text = linesOf sent ∧
      last.sink = .file [] := by
  obtain ⟨written, waiting, rfl, htext, hsink⟩ := h.lines
  have htext' : f.text ++ f.sink.flush.written =
      linesOf (written ++ waiting) := by
    rw [hsink, linesOf_append, htext]
    rfl
  have hrefusal : f.sink.flush.refusal = none := by
    rw [hsink]
    rfl
  have hsink' : f.sink.flush.sink = .file (linesOf []) := by
    rw [hsink]
    rfl
  obtain ⟨last, hlast, hkeeps⟩ := h.receive hrefusal htext' hsink'
  rw [List.append_nil] at hkeeps
  refine ⟨last, hlast, hkeeps, ?_, ?_⟩
  · rw [receive?, hsink] at hlast
    cases hlast
    rw [← htext', hsink, text]
    exact Disk.textAt_append_self _ _ _
  · rw [receive?, hsink] at hlast
    cases hlast
    rfl

/-- Whatever is done with a file goes through, and the file keeps to its
lines. -/
theorem Keeps.act (hleads : LeadsTo path directories place)
    (h : Keeps directories place sent f) (action : FileAction) :
    ∃ last, f.act? path action = some last ∧
      Keeps directories place (sent ++ action.sent) last := by
  cases action with
  | append receipt =>
      obtain ⟨written, waiting, rfl, htext, hsink⟩ := h.lines
      obtain ⟨hrefusal, hcases⟩ := send_file_cases (linesOf waiting) receipt
      rw [← hsink] at hrefusal hcases
      dsimp only [act?, FileAction.sent]
      rw [List.append_assoc]
      rcases hcases with ⟨hwritten, hsink'⟩ | ⟨hwritten, hsink'⟩ |
        ⟨hwritten, hsink'⟩
      · refine h.receive hrefusal ?_ ?_
        · rw [hwritten, htext, List.append_nil]
        · rw [hsink', linesOf_append, linesOf_singleton]
      · rw [← List.append_assoc]
        refine h.receive hrefusal ?_ ?_
        · rw [hwritten, htext, linesOf_append]
        · rw [hsink', linesOf_singleton]
      · rw [← List.append_nil (written ++ (waiting ++ [receipt]))]
        refine h.receive hrefusal ?_ hsink'
        rw [hwritten, htext, linesOf_append, linesOf_append, linesOf_singleton]
  | flush =>
      obtain ⟨last, hlast, hkeeps, -, -⟩ := h.flush
      dsimp only [act?, FileAction.sent]
      rw [List.append_nil]
      exact ⟨last, hlast, hkeeps⟩
  | reopen =>
      obtain ⟨left, hleft, hkeeps, htext, -⟩ := h.flush
      have hopened := hleads left.disk hkeeps.directories_eq
      dsimp only [act?, FileAction.sent]
      rw [List.append_nil, hleft, Option.bind_some, hopened]
      refine ⟨_, rfl, hkeeps.directories_eq, rfl, sent, [], ?_, ?_, rfl⟩
      · rw [List.append_nil]
      · rw [← htext, text, text, hkeeps.place_eq]
        dsimp only
        rw [Disk.textAt_append_self, List.append_nil]

theorem Keeps.run (hleads : LeadsTo path directories place)
    (h : Keeps directories place sent f) (actions : List FileAction) :
    ∃ last, f.run? path actions = some last ∧
      Keeps directories place (sent ++ actions.flatMap FileAction.sent)
        last := by
  induction actions generalizing f sent with
  | nil =>
      refine ⟨f, rfl, ?_⟩
      rw [List.flatMap_nil, List.append_nil]
      exact h
  | cons action rest ih =>
      obtain ⟨next, hnext, hkeeps⟩ := h.act hleads action
      obtain ⟨last, hlast, hkeeps'⟩ := ih hkeeps
      refine ⟨last, ?_, ?_⟩
      · rw [run?, List.foldlM_cons, hnext]
        exact hlast
      · rw [List.flatMap_cons, ← List.append_assoc]
        exact hkeeps'

theorem splitOn_bytes_linesOf (sent : List SentReceipt) :
    (Text.bytes (String.ofList (linesOf sent))).splitOn Text.newlineByte =
      (sent.map fun r => (receiptBody r).canonicalBytes.data.toList) ++
        [[]] := by
  have hlines : linesOf sent =
      (sent.map fun r => (receiptBody r).canonical).flatMap
        fun line => line ++ ['\n'] := by
    rw [List.flatMap_map]
    rfl
  rw [hlines, Text.splitOn_bytes_ended, List.map_map]
  · congr 2
    funext r
    rw [Function.comp_apply, Json.canonicalBytes, Text.data_toUTF8]
    rfl
  · intro line hline
    obtain ⟨r, -, rfl⟩ := List.mem_map.1 hline
    exact (Json.printable_canonical _).newline_not_mem

/-- A file that has nothing but lines of receipts is opened, receipts of any
sessions are appended, and the sink is flushed and opened anew in between in
any order.  All of this goes through, and at any time the file has the lines
of the first receipts and no part of another line.  After a flush its bytes,
split at the byte of the newline, are the canonical bytes of what is written
about each receipt, in the order in which they were appended.  Lines are equal
only if the sessions are and the receipts are, up to numbers that are written
the same. -/
theorem flushed_file_splits_into_receipts (hopened : opened? path d = some f)
    (before : List SentReceipt)
    (hbefore : d.textAt f.place = linesOf before)
    (actions : List FileAction) :
    let sent := before ++ actions.flatMap FileAction.sent
    ∃ last flushed, f.run? path actions = some last ∧
      last.act? path .flush = some flushed ∧
      (∃ n, last.text = linesOf (sent.take n)) ∧
      flushed.bytes.splitOn Text.newlineByte =
        (sent.map fun r => (receiptBody r).canonicalBytes.data.toList) ++
          [[]] ∧
      ∀ r r' : SentReceipt, r.2.IsValid → r'.2.IsValid →
        ((receiptBody r).canonicalBytes = (receiptBody r').canonicalBytes ↔
          r.1 = r'.1 ∧ r.2.Alike r'.2) := by
  intro sent
  obtain ⟨htext, hsink, hleads⟩ := opened?_spec hopened
  have hstart : Keeps f.disk.directories f.place before f := by
    refine ⟨rfl, rfl, before, [], (List.append_nil before).symm, ?_, hsink⟩
    exact htext.trans hbefore
  obtain ⟨last, hlast, hkeeps⟩ := hstart.run hleads actions
  obtain ⟨flushed, hflushed, -, hflushedText, -⟩ := hkeeps.flush
  refine ⟨last, flushed, hlast, hflushed, ?_, ?_, ?_⟩
  · obtain ⟨written, waiting, hsent, hwritten, -⟩ := hkeeps.lines
    refine ⟨written.length, ?_⟩
    rw [hwritten, show sent = written ++ waiting from hsent, List.take_left]
  · rw [bytes, hflushedText]
    exact splitOn_bytes_linesOf sent
  · intro r r' h h'
    exact canonicalBytes_receiptBody_eq_iff h h'

/-- A receipt with newlines in a name and in a string. -/
def brokenReceipt : Receipt :=
  ⟨1, "f", "mail", "send", .read, ⟨.allow, .read⟩, .ok,
    .obj [("to\n", .str "a\r\nb")], .null, .logical 1⟩

/-- It is appended for two sessions, one of which has a newline in its id, and
the second time through another sink. -/
theorem flushed_file_splits_broken_receipts :
    let path := "out/receipts.jsonl"
    let first : SentReceipt := ("one\n", brokenReceipt)
    let second : SentReceipt := ("two", brokenReceipt)
    ∃ f last flushed,
      opened? path (.ofDirectories []) = some f ∧
        f.run? path [.append first, .reopen, .append second] = some last ∧
        last.act? path .flush = some flushed ∧
        flushed.bytes.splitOn Text.newlineByte =
          [(receiptBody first).canonicalBytes.data.toList,
            (receiptBody second).canonicalBytes.data.toList, []] ∧
        (receiptBody first).canonicalBytes ≠
          (receiptBody second).canonicalBytes := by
  intro path first second
  have hvalid : brokenReceipt.IsValid := by
    refine ⟨by decide, ?_, trivial, ?_⟩
    · exact ⟨List.pairwise_singleton _ _, trivial, trivial⟩
    · exact (by decide : 1 < 2 ^ 64)
  have hopens : (opened? path (.ofDirectories [])).isSome = true := by
    decide +kernel
  obtain ⟨f, hopened⟩ := Option.isSome_iff_exists.1 hopens
  obtain ⟨last, flushed, hlast, hflushed, -, hsplit, hdistinct⟩ :=
    flushed_file_splits_into_receipts hopened [] rfl
      [.append first, .reopen, .append second]
  refine ⟨f, last, flushed, hopened, hlast, hflushed, hsplit, ?_⟩
  intro hequal
  have hsame := (hdistinct first second hvalid hvalid).1 hequal
  exact absurd hsame.1 (by decide)

end ReceiptFile

end CallGate
