import CallGate.Approval.Target

/-!
# Approvals

An approval starts unresolved and is resolved once: approved or denied by a
decision, or expired at the end of the session.
-/

namespace CallGate

/-- How an approval stands. -/
inductive Approval.Resolution where
  | unresolved
  | approved
  | denied
  | expired
  deriving DecidableEq, Inhabited

namespace Approval.Resolution

def label : Resolution → String
  | .unresolved => "unresolved"
  | .approved => "approved"
  | .denied => "denied"
  | .expired => "expired"

/-- Whether nothing more can happen to the approval. -/
def isTerminal (r : Resolution) : Bool := r ≠ .unresolved

/-- Whether the resolution is a decision that somebody took. -/
def isDecision : Resolution → Bool
  | .approved | .denied => true
  | .unresolved | .expired => false

def encode (r : Resolution) : Json := .str r.label

def decode : Decoder Resolution :=
  Decoder.label
    [("unresolved", .unresolved), ("approved", .approved), ("denied", .denied),
      ("expired", .expired)]

end Approval.Resolution

/-- An approval: its id, what it is for, the request that it came from, and how
it stands. -/
structure Approval where
  id : String
  target : Approval.Target
  /-- The fingerprint of the request. -/
  requestedBy : String
  /-- The sequence number of the request. -/
  requestedAt : Nat
  resolution : Approval.Resolution
  /-- The sequence number at which it was resolved. -/
  resolvedAt : Option Nat
  deriving DecidableEq, Inhabited

namespace Approval

/-- The id of the approval at a place in the queue, counted from one. -/
def idAt (place : Nat) : String := "approval-" ++ toString place

/-- When the approval was last changed. -/
def changedAt (a : Approval) : Nat := a.resolvedAt.getD a.requestedAt

/-- Whether the approval waits and is for a given call. -/
def awaits (a : Approval) (operation : OperationId) (digest : String)
    (matching : Matching) : Bool :=
  a.resolution = .unresolved && a.target.covers operation digest matching

/-- The approval after it was resolved. -/
def resolve (a : Approval) (resolution : Resolution) (sequence : Nat) :
    Approval :=
  { a with resolution := resolution, resolvedAt := some sequence }

def encode (a : Approval) : Json :=
  .obj ([("id", .str a.id), ("requested_at", .ofNat a.requestedAt),
      ("requested_by", .str a.requestedBy),
      ("resolution", a.resolution.encode)] ++
    Json.memberIf "resolved_at" Json.ofNat a.resolvedAt ++
    [("target", a.target.encode)])

def decode : Decoder Approval :=
  Reads.record
      ["id", "target", "requested_by", "requested_at", "resolution",
        "resolved_at"] <|
    Approval.mk <$> Reads.required "id" Decoder.text <*>
      Reads.required "target" Target.decode <*>
      Reads.required "requested_by" Decoder.text <*>
      Reads.required "requested_at" Decoder.word64 <*>
      Reads.required "resolution" Resolution.decode <*>
      Reads.optional "resolved_at" Decoder.word64

end Approval

end CallGate
