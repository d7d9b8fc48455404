import CallGate.Archive.Basic

/-!
# Receipt sinks

Where a session sends its receipts besides its own log: nowhere, into memory,
into a file with a line for each, or into an archive.  A sink in memory may
refuse, at whatever attempts.
-/

namespace CallGate

/-- Why a sink refuses. -/
inductive SinkError where
  | io (text : String)
  | serialization (text : String)
  | sink (text : String)
  deriving DecidableEq, Inhabited

namespace SinkError

/-- What is said about it. -/
def message : SinkError → String
  | .io text => "receipt sink io error: " ++ text
  | .serialization text => "receipt sink serialization error: " ++ text
  | .sink text => "receipt sink error: " ++ text

/-- The error of a sink that sends to an archive. -/
def ofArchive (e : ArchiveError) : SinkError :=
  match e.group with
  | .io => .io (e.detail.getD "")
  | .invalid => .serialization (e.detail.getD "")
  | .engine | .corrupt | .versionMismatch | .tooLarge =>
    .sink (e.message.getD "")

end SinkError

/-- A receipt and the session that it is of. -/
abbrev SentReceipt := String × Receipt

/-- What is written about a receipt on a line of its own. -/
def receiptBody (sent : SentReceipt) : Json :=
  .obj [("receipt", sent.2.encode), ("session_id", .str sent.1)]

/-- The line of a receipt with the newline that ends it. -/
def receiptLine (sent : SentReceipt) : List Char :=
  (receiptBody sent).canonical ++ ['\n']

/-- Where receipts are sent. -/
inductive ReceiptSink where
  | none
  /-- In memory.  `refusal` says at which attempts, counted from zero, a
  receipt is refused, and `flushRefusal` whether flushing is. -/
  | memory (held : List SentReceipt) (attempts : Nat)
      (refusal : Nat → Option SinkError) (flushRefusal : Option SinkError)
  /-- In a file, a line for each.  Some text waits to be written. -/
  | file (waiting : List Char)
  | archive (a : Archive)
  deriving Inhabited

/-- What comes of sending to a sink or flushing it: the refusal, if there is
one, the sink afterwards, and the text that is written to its file. -/
structure Sending where
  refusal : Option SinkError
  sink : ReceiptSink
  written : List Char := []
  deriving Inhabited

namespace ReceiptSink

/-- The most bytes that wait in a sink to a file. -/
def maxWaiting : Nat := 8192

/-- The bytes of a text. -/
def byteCount (text : List Char) : Nat :=
  text.foldl (fun count c => count + c.utf8Size) 0

/-- Adds a line to what waits, which is written first when there is no room for
the line.  A line that is too long does not wait. -/
def buffer (waiting line : List Char) : Sending :=
  let hasRoom := byteCount waiting + byteCount line ≤ maxWaiting
  let written := if hasRoom then [] else waiting
  let waiting := if hasRoom then waiting else []
  if byteCount line < maxWaiting then
    ⟨Option.none, .file (waiting ++ line), written⟩
  else ⟨Option.none, .file [], written ++ waiting ++ line⟩

/-- A sink in memory that refuses nothing. -/
def inMemory : ReceiptSink := .memory [] 0 (fun _ => Option.none) Option.none

/-- A file for which nothing waits. -/
def idleFile : ReceiptSink := .file []

/-- Sends a receipt. -/
def send (sink : ReceiptSink) (sent : SentReceipt) : Sending :=
  match sink with
  | .none => { refusal := Option.none, sink := .none }
  | .memory held attempts refusal flushRefusal =>
    match refusal attempts with
    | some e =>
      { refusal := some e
        sink := .memory held (attempts + 1) refusal flushRefusal }
    | Option.none =>
      { refusal := Option.none
        sink := .memory (held ++ [sent]) (attempts + 1) refusal flushRefusal }
  | .file waiting => buffer waiting (receiptLine sent)
  | .archive a =>
    match a.append sent.1 sent.2 with
    | .ok b => { refusal := Option.none, sink := .archive b }
    | .error e => { refusal := some (.ofArchive e), sink := .archive a }

/-- Flushes the sink. -/
def flush (sink : ReceiptSink) : Sending :=
  match sink with
  | .none => { refusal := Option.none, sink := .none }
  | .memory held attempts refusal flushRefusal =>
    { refusal := flushRefusal
      sink := .memory held attempts refusal flushRefusal }
  | .file waiting => ⟨Option.none, .file [], waiting⟩
  | .archive a => { refusal := Option.none, sink := .archive a }

end ReceiptSink

end CallGate
