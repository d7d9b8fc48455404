import CallGate.Document.Tagged

/-!
# Timestamps and clocks

A timestamp is a time in milliseconds or the count of a logical clock.  A
logical clock counts its own readings, while a fixed clock always shows the
same time.
-/

namespace CallGate

/-- A reading of a clock. -/
inductive Timestamp where
  | unixMillis (millis : Int)
  | logical (count : Nat)
  deriving DecidableEq, Inhabited

namespace Timestamp

/-- The time in milliseconds, when the timestamp is one. -/
def millis? : Timestamp → Option Int
  | .unixMillis n => some n
  | .logical _ => none

/-- The count of a logical clock, when the timestamp is one. -/
def logical? : Timestamp → Option Nat
  | .unixMillis _ => none
  | .logical n => some n

def encode : Timestamp → Json
  | .unixMillis n => .obj [("kind", .str "unix_millis"), ("value", .ofInt n)]
  | .logical n => .obj [("kind", .str "logical"), ("value", .ofNat n)]

def decode : Decoder Timestamp :=
  Decoder.kindAndContent "kind" "value"
    [("unix_millis", .something (Decoder.signed64.map .unixMillis)),
      ("logical", .something (Decoder.word64.map .logical))]

end Timestamp

/-- A source of timestamps. -/
inductive Clock where
  /-- Counts its readings; `count` were made. -/
  | logical (count : Nat)
  | fixed (millis : Int)
  deriving DecidableEq, Inhabited

namespace Clock

/-- Reads the clock. -/
def read : Clock → Timestamp × Clock
  | .logical n => (.logical (n + 1), .logical (n + 1))
  | .fixed n => (.unixMillis n, .fixed n)

end Clock

end CallGate
