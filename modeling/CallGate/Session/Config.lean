import CallGate.Backend.LiveGuard
import CallGate.Backend.Mode
import CallGate.Policy.Basic

/-!
# Configurations of sessions

What a session is made from: its id and seed, the mode of each service, the
policy of the gate and the guard before live backends.
-/

namespace CallGate

/-- What a session is made from. -/
structure SessionConfig where
  id : String := "session-1"
  seed : Nat := 42042
  modes : Modes := {}
  policy : Policy := {}
  guard : LiveGuard := {}
  deriving DecidableEq, Inhabited

namespace SessionConfig

def encode (c : SessionConfig) : Json :=
  .obj [("gate", c.policy.encode), ("live", c.guard.encode),
    ("modes", c.modes.encode), ("seed", .ofNat c.seed),
    ("session_id", .str c.id)]

def decode : Decoder SessionConfig :=
  Reads.record ["session_id", "seed", "modes", "gate", "live"] <|
    SessionConfig.mk <$>
      Reads.defaulted "session_id" Decoder.text "session-1" <*>
      Reads.defaulted "seed" Decoder.word64 42042 <*>
      Reads.defaulted "modes" Modes.decode {} <*>
      Reads.defaulted "gate" Policy.decode {} <*>
      Reads.defaulted "live" LiveGuard.decode {}

end SessionConfig

end CallGate
