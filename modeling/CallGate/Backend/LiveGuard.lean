import CallGate.Call.Request

/-!
# The guard before live backends

What may go to a live backend.  The guard stands behind the gate: approvals and
overrides do not open it.
-/

namespace CallGate

/-- What may go to a live backend. -/
structure LiveGuard where
  allowWriteSafe : Bool := false
  allowWriteRisky : Bool := false
  hardBlock : OperationSet := KeyMap.empty
  deriving DecidableEq, Inhabited

namespace LiveGuard

/-- Whether operations of a class may go. -/
def allows (g : LiveGuard) : RiskClass → Bool
  | .read => true
  | .writeSafe => g.allowWriteSafe
  | .writeRisky => g.allowWriteRisky

/-- Why a call may not go, if it may not. -/
def refusal? (g : LiveGuard) (operation : OperationId) (risk : RiskClass) :
    Option String :=
  if g.hardBlock.contains operation then
    some (operation.display ++ " is hard-blocked")
  else if g.allows risk then none
  else some (risk.label ++ " writes are disabled for " ++ operation.display)

def encode (g : LiveGuard) : Json :=
  .obj [("allow_write_risky", .bool g.allowWriteRisky),
    ("allow_write_safe", .bool g.allowWriteSafe),
    ("hard_block", g.hardBlock.encode)]

def decode : Decoder LiveGuard :=
  Reads.record ["allow_write_safe", "allow_write_risky", "hard_block"] <|
    LiveGuard.mk <$> Reads.defaulted "allow_write_safe" Decoder.bool false <*>
      Reads.defaulted "allow_write_risky" Decoder.bool false <*>
      Reads.defaulted "hard_block" OperationSet.decode KeyMap.empty

end LiveGuard

end CallGate
