import CallGate.Digest.Sha256

/-!
# Key streams

The ChaCha stream with twenty rounds as a source of numbers: a key of eight
words, a block counter of 64 bits that starts at zero, and a nonce of zeros.  A
generator is the key and how many words of the stream it has used, so equal
generators give equal draws.
-/

namespace CallGate

/-- The sixteen words of a block. -/
abbrev KeyStream.Block := Vector UInt32 16

/-- A key and the number of words of its stream that have been used. -/
structure KeyStream where
  key : List UInt32
  used : Nat
  deriving DecidableEq, Inhabited

namespace KeyStream

/-- Rotation to the left. -/
def rotateLeft (x n : UInt32) : UInt32 := (x <<< n) ||| (x >>> (32 - n))

/-- Mixes four words of a block. -/
def quarter (b : Block) (i j k l : Fin 16) : Block :=
  let w := b[i] + b[j]
  let z := rotateLeft (b[l] ^^^ w) 16
  let y := b[k] + z
  let x := rotateLeft (b[j] ^^^ y) 12
  let w := w + x
  let z := rotateLeft (z ^^^ w) 8
  let y := y + z
  let x := rotateLeft (x ^^^ y) 7
  (((b.set i w).set j x).set k y).set l z

/-- Two rounds: the four columns, then the four diagonals. -/
def doubleRound (b : Block) : Block :=
  let b := quarter b 0 4 8 12
  let b := quarter b 1 5 9 13
  let b := quarter b 2 6 10 14
  let b := quarter b 3 7 11 15
  let b := quarter b 0 5 10 15
  let b := quarter b 1 6 11 12
  let b := quarter b 2 7 8 13
  quarter b 3 4 9 14

/-- A number of double rounds. -/
def doubleRounds : Nat → Block → Block
  | 0, b => b
  | n + 1, b => doubleRounds n (doubleRound b)

/-- The block that is mixed for a counter. -/
def seedBlock (key : List UInt32) (counter : Nat) : Block :=
  let k (i : Nat) : UInt32 := key.getD i 0
  #v[0x61707865, 0x3320646e, 0x79622d32, 0x6b206574, k 0, k 1, k 2, k 3, k 4,
    k 5, k 6, k 7, UInt32.ofNat counter, UInt32.ofNat (counter / UInt32.size),
    0, 0]

/-- A block of the stream. -/
def block (key : List UInt32) (counter : Nat) : Block :=
  let seed := seedBlock key counter
  Vector.zipWith (· + ·) (doubleRounds 10 seed) seed

/-- A word of the stream. -/
def word (key : List UInt32) (i : Nat) : UInt32 :=
  (block key (i / 16)).get ⟨i % 16, Nat.mod_lt _ (by decide)⟩

/-- The word whose bytes stand in a list, least significant first, from a given
position. -/
def littleEndian (bytes : List UInt8) (i : Nat) : UInt32 :=
  let byte (k : Nat) : UInt32 := (bytes.getD (i + k) 0).toUInt32
  byte 0 ||| (byte 1 <<< 8) ||| (byte 2 <<< 16) ||| (byte 3 <<< 24)

/-- The unused stream whose key is the digest of a text. -/
def ofText (text : String) : KeyStream :=
  let bytes := Sha256.bytes text.toUTF8
  ⟨(List.range 8).map fun i => littleEndian bytes (4 * i), 0⟩

/-- The next word. -/
def next (g : KeyStream) : UInt32 × KeyStream :=
  (word g.key g.used, { g with used := g.used + 1 })

/-- Draws a number below `span`, given fuel for the draws that are thrown away:
a word is scaled by the span, and it is thrown away when its low half lies
beyond `zone`, so that every number is equally likely. -/
def below (span zone : Nat) : Nat → KeyStream → Nat × KeyStream
  | 0, g => (0, g)
  | fuel + 1, g =>
    let (w, g) := g.next
    let scaled := w.toNat * span
    if scaled % UInt32.size ≤ zone then (scaled / UInt32.size, g)
    else below span zone fuel g

/-- Draws a number of milliseconds from 5 to 250. -/
def latency (g : KeyStream) : Nat × KeyStream :=
  let (n, g) := below 246 0xF5FFFFFF 1000 g
  (5 + n, g)

/-- Draws so many times. -/
def draw {α : Type} (g : KeyStream) (one : KeyStream → α × KeyStream) :
    Nat → List α × KeyStream
  | 0 => ([], g)
  | n + 1 =>
    let (a, g) := one g
    let (rest, g) := draw g one n
    (a :: rest, g)

end KeyStream

end CallGate
