import CallGate.Text.Numeral

/-!
# SHA-256

The 256-bit digest of the Secure Hash Standard: the message is padded to whole
blocks of 64 bytes, and each block is mixed into eight words of state.
-/

namespace CallGate.Sha256

/-- The first 32 bits of the fractional parts of the cube roots of the first 64
primes. -/
def roundConstants : Array UInt32 :=
  #[0x428a2f98, 0x71374491, 0xb5c0fbcf, 0xe9b5dba5,
    0x3956c25b, 0x59f111f1, 0x923f82a4, 0xab1c5ed5,
    0xd807aa98, 0x12835b01, 0x243185be, 0x550c7dc3,
    0x72be5d74, 0x80deb1fe, 0x9bdc06a7, 0xc19bf174,
    0xe49b69c1, 0xefbe4786, 0x0fc19dc6, 0x240ca1cc,
    0x2de92c6f, 0x4a7484aa, 0x5cb0a9dc, 0x76f988da,
    0x983e5152, 0xa831c66d, 0xb00327c8, 0xbf597fc7,
    0xc6e00bf3, 0xd5a79147, 0x06ca6351, 0x14292967,
    0x27b70a85, 0x2e1b2138, 0x4d2c6dfc, 0x53380d13,
    0x650a7354, 0x766a0abb, 0x81c2c92e, 0x92722c85,
    0xa2bfe8a1, 0xa81a664b, 0xc24b8b70, 0xc76c51a3,
    0xd192e819, 0xd6990624, 0xf40e3585, 0x106aa070,
    0x19a4c116, 0x1e376c08, 0x2748774c, 0x34b0bcb5,
    0x391c0cb3, 0x4ed8aa4a, 0x5b9cca4f, 0x682e6ff3,
    0x748f82ee, 0x78a5636f, 0x84c87814, 0x8cc70208,
    0x90befffa, 0xa4506ceb, 0xbef9a3f7, 0xc67178f2]

/-- The eight words of state. -/
structure State where
  a : UInt32
  b : UInt32
  c : UInt32
  d : UInt32
  e : UInt32
  f : UInt32
  g : UInt32
  h : UInt32
  deriving DecidableEq, Inhabited

/-- The first 32 bits of the fractional parts of the square roots of the first
eight primes. -/
def start : State :=
  ⟨0x6a09e667, 0xbb67ae85, 0x3c6ef372, 0xa54ff53a,
    0x510e527f, 0x9b05688c, 0x1f83d9ab, 0x5be0cd19⟩

/-- Rotation to the right. -/
def rotate (x n : UInt32) : UInt32 := (x >>> n) ||| (x <<< (32 - n))

/-- The word at a position of the message, most significant byte first. -/
def wordAt (bytes : ByteArray) (i : Nat) : UInt32 :=
  let byte (k : Nat) : UInt32 := ((bytes[i + k]?).getD 0).toUInt32
  (byte 0 <<< 24) ||| (byte 1 <<< 16) ||| (byte 2 <<< 8) ||| byte 3

/-- The first sixteen words of the schedule, those of the block itself. -/
def blockWords (bytes : ByteArray) (offset : Nat) :
    Nat → Array UInt32 → Array UInt32
  | 0, words => words
  | n + 1, words =>
    blockWords bytes offset n
      (words.push (wordAt bytes (offset + 4 * words.size)))

/-- The next words of the schedule, each made from four earlier ones. -/
def moreWords : Nat → Array UInt32 → Array UInt32
  | 0, words => words
  | n + 1, words =>
    let i := words.size
    let x := words.getD (i - 15) 0
    let y := words.getD (i - 2) 0
    let s := rotate x 7 ^^^ rotate x 18 ^^^ (x >>> 3)
    let t := rotate y 17 ^^^ rotate y 19 ^^^ (y >>> 10)
    moreWords n
      (words.push (words.getD (i - 16) 0 + s + words.getD (i - 7) 0 + t))

/-- One round. -/
def round (s : State) (k w : UInt32) : State :=
  let s1 := rotate s.e 6 ^^^ rotate s.e 11 ^^^ rotate s.e 25
  let choice := (s.e &&& s.f) ^^^ ((~~~s.e) &&& s.g)
  let t1 := s.h + s1 + choice + k + w
  let s0 := rotate s.a 2 ^^^ rotate s.a 13 ^^^ rotate s.a 22
  let majority := (s.a &&& s.b) ^^^ (s.a &&& s.c) ^^^ (s.b &&& s.c)
  ⟨t1 + (s0 + majority), s.a, s.b, s.c, s.d + t1, s.e, s.f, s.g⟩

/-- The rounds from a given one on. -/
def rounds (words : Array UInt32) : Nat → Nat → State → State
  | 0, _, s => s
  | n + 1, i, s =>
    rounds words n (i + 1) (round s (roundConstants.getD i 0) (words.getD i 0))

/-- Mixes the block at an offset into the state. -/
def mix (bytes : ByteArray) (offset : Nat) (s : State) : State :=
  let words := moreWords 48 (blockWords bytes offset 16 (Array.mkEmpty 64))
  let t := rounds words 64 0 s
  ⟨s.a + t.a, s.b + t.b, s.c + t.c, s.d + t.d, s.e + t.e, s.f + t.f, s.g + t.g,
    s.h + t.h⟩

/-- Mixes blocks in, one after the other. -/
def mixAll (bytes : ByteArray) : Nat → Nat → State → State
  | 0, _, s => s
  | blocks + 1, offset, s =>
    mixAll bytes blocks (offset + 64) (mix bytes offset s)

/-- Appends zero bytes. -/
def pushZeros : Nat → ByteArray → ByteArray
  | 0, bytes => bytes
  | n + 1, bytes => pushZeros n (bytes.push 0)

/-- The bytes of a number, most significant first. -/
def bigEndian : Nat → Nat → List UInt8
  | 0, _ => []
  | width + 1, n => bigEndian width (n / 256) ++ [UInt8.ofNat (n % 256)]

/-- The message with a closing one bit, zeros, and its length in bits, as whole
blocks. -/
def pad (message : ByteArray) : ByteArray :=
  let zeros := (119 - message.size % 64) % 64
  (bigEndian 8 (8 * message.size)).foldl ByteArray.push
    (pushZeros zeros (message.push 0x80))

/-- The digest as eight words. -/
def digest (message : ByteArray) : State :=
  let padded := pad message
  mixAll padded (padded.size / 64) 0 start

/-- The words of a digest in order. -/
def State.words (s : State) : List UInt32 :=
  [s.a, s.b, s.c, s.d, s.e, s.f, s.g, s.h]

/-- The digest as 32 bytes. -/
def bytes (message : ByteArray) : List UInt8 :=
  (digest message).words.flatMap fun w => bigEndian 4 w.toNat

/-- The digest as 64 small hexadecimal digits. -/
def hex (message : ByteArray) : String :=
  String.ofList ((digest message).words.flatMap fun w =>
    Text.hexFixed 8 w.toNat)

/-- The digest of a text's UTF-8 form as 64 small hexadecimal digits. -/
def hexOfText (text : String) : String := hex text.toUTF8

end CallGate.Sha256
