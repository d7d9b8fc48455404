import CallGate.Digest.Sha256
import CallGate.Document.Reads
import CallGate.Json.Written

/-!
# Digests of values

The digest of a value is that of its canonical form, so values that differ only
in the order of members or the spelling of numbers have the same digest.
-/

namespace CallGate

/-- The digest of a value as hexadecimal digits. -/
def Json.digest (v : Json) : String := Sha256.hexOfText v.canonicalText

/-- A digest with the name of its algorithm, of which there is one. -/
structure ContentDigest where
  value : String
  deriving DecidableEq, Inhabited

namespace ContentDigest

/-- The name of the algorithm. -/
def algorithm : String := "sha256"

/-- The digest of a value. -/
def ofValue (v : Json) : ContentDigest := ⟨v.digest⟩

def encode (d : ContentDigest) : Json :=
  .obj [("algorithm", .str algorithm), ("value", .str d.value)]

def decode : Decoder ContentDigest :=
  Reads.record ["algorithm", "value"] <|
    (fun () value => ContentDigest.mk value) <$>
      Reads.required "algorithm" (Decoder.label [(algorithm, ())]) <*>
      Reads.required "value" Decoder.text

end ContentDigest

end CallGate
