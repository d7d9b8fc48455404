import CallGate.Policy.Gate
import CallGate.Proofs.Approval.Queue

/-!
# What the gate decides

The queue of approvals has a say in the decision about a call only when no
rule of the policy settles it.  What it says then is the standing of the call,
which depends on the approvals that cover the call and on nothing else.
-/

namespace CallGate

/-- The decision that the approvals for a call lead to. -/
def Approval.Queue.standing (q : Approval.Queue) (operation : OperationId)
    (digest : String) : Decision :=
  match q.latestResolution? operation digest,
    q.unresolvedFor? operation digest with
  | some .approved, none => .allow .approvalGranted
  | some .denied, none => .deny .approvalDenied
  | _, _ => .requireApproval

namespace Approval.Queue

variable {q q' : Queue} {operation : OperationId} {digest : String}
  {a : Approval}

/-- Calls with the same approvals have the same standing. -/
theorem standing_congr {other : OperationId} {d : String}
    (hcovering : q.covering operation digest = q'.covering other d) :
    q.standing operation digest = q'.standing other d := by
  rw [standing, standing, latestResolution?, latestResolution?,
    lastResolved?_eq_foldl_covering, lastResolved?_eq_foldl_covering,
    unresolvedFor?_eq_find?_covering, unresolvedFor?_eq_find?_covering,
    hcovering]

theorem standing_of_waiting
    (hwaiting : q.unresolvedFor? operation digest = some a) :
    q.standing operation digest = .requireApproval := by
  rw [standing, hwaiting]
  split
  · contradiction
  · contradiction
  · rfl

theorem standing_of_approved
    (hlast : q.latestResolution? operation digest = some .approved)
    (hsettled : q.unresolvedFor? operation digest = none) :
    q.standing operation digest = .allow .approvalGranted := by
  rw [standing, hlast, hsettled]

theorem standing_of_denied
    (hlast : q.latestResolution? operation digest = some .denied)
    (hsettled : q.unresolvedFor? operation digest = none) :
    q.standing operation digest = .deny .approvalDenied := by
  rw [standing, hlast, hsettled]

/-- A call is let through on account of approvals when the last decision
approved it and no other approval waits. -/
theorem standing_allow_iff :
    (q.standing operation digest).action = .allow ↔
      q.latestResolution? operation digest = some .approved ∧
        q.unresolvedFor? operation digest = none := by
  constructor
  · intro hallow
    rw [standing] at hallow
    split at hallow
    · exact ⟨by assumption, by assumption⟩
    · cases hallow
    · cases hallow
  · rintro ⟨hlast, hsettled⟩
    rw [standing_of_approved hlast hsettled]
    rfl

end Approval.Queue

namespace Policy

variable {p : Policy} {operation : OperationId} {risk : RiskClass}
  {digest : String} {q q' : Approval.Queue} {r : Request} {a : Approval}

theorem byApproval_eq_standing
    (hgranted : p.preGranted.contains operation = false) :
    p.byApproval operation digest q = q.standing operation digest := by
  rw [byApproval, hgranted]
  rfl

/-- Either a rule settles the decision about a call, whatever the queue is, or
the queue decides. -/
theorem decide_cases (p : Policy) (operation : OperationId) (risk : RiskClass)
    (digest : String) :
    (∃ d : Decision, d.action ≠ .requireApproval ∧
        ∀ q, p.decide operation risk digest q = d) ∨
      ∀ q, p.decide operation risk digest q = q.standing operation digest := by
  have hby : (∃ d : Decision, d.action ≠ .requireApproval ∧
        ∀ q, p.byApproval operation digest q = d) ∨
      ∀ q, p.byApproval operation digest q =
        q.standing operation digest := by
    cases hgranted : p.preGranted.contains operation with
    | true =>
        exact Or.inl ⟨.allow .preGranted, by decide, fun q => by
          rw [byApproval, hgranted, if_pos rfl]⟩
    | false => exact Or.inr fun q => byApproval_eq_standing hgranted
  unfold Policy.decide
  cases p.hardBlock.contains operation with
  | true => exact Or.inl ⟨.deny .hardBlocked, by decide, fun q => rfl⟩
  | false =>
      rcases p.overrides.get? operation with _ | _ | _ | _
      · cases risk with
        | read => exact Or.inl ⟨.allow .read, by decide, fun q => rfl⟩
        | writeSafe =>
            cases hsafe : p.writeSafeEnabled with
            | true =>
                exact Or.inl ⟨.allow .writeSafeAllowed, by decide,
                  fun q => by simp [byClass, hsafe]⟩
            | false =>
                exact Or.inl ⟨.deny .writeSafeDisabled, by decide,
                  fun q => by simp [byClass, hsafe]⟩
        | writeRisky => exact hby
      · exact Or.inl ⟨.allow .overrideAllow, by decide, fun q => rfl⟩
      · exact Or.inl ⟨.deny .overrideDeny, by decide, fun q => rfl⟩
      · exact hby

/-- Queues with the same approvals for a call lead to the same decision. -/
theorem decide_congr
    (hcovering : q.covering operation digest = q'.covering operation digest) :
    p.decide operation risk digest q = p.decide operation risk digest q' := by
  rcases p.decide_cases operation risk digest with ⟨d, -, hd⟩ | hq
  · rw [hd, hd]
  · rw [hq, hq, Approval.Queue.standing_congr hcovering]

/-- The decision about calls of an operation is left to their approvals. -/
structure LeavesToApprovals (p : Policy) (operation : OperationId)
    (risk : RiskClass) : Prop where
  notBlocked : p.hardBlock.contains operation = false
  notAllowed : p.overrides.get? operation ≠ some .allow
  notDenied : p.overrides.get? operation ≠ some .deny
  needsApproval : risk = .writeRisky ∨
    p.overrides.get? operation = some .requireApproval
  notGranted : p.preGranted.contains operation = false

theorem LeavesToApprovals.decide_eq_standing
    (h : p.LeavesToApprovals operation risk) :
    p.decide operation risk digest q = q.standing operation digest := by
  rw [Policy.decide, h.notBlocked]
  rcases hrule : p.overrides.get? operation with _ | _ | _ | _
  · have hrisk : risk = .writeRisky := by simpa [hrule] using h.needsApproval
    subst hrisk
    exact byApproval_eq_standing h.notGranted
  · exact absurd hrule h.notAllowed
  · exact absurd hrule h.notDenied
  · exact byApproval_eq_standing h.notGranted

/-! ## Risky writes -/

/-- A risky write without a rule of its own that lets it through passes the
gate when no rule is against it and its approvals let it through. -/
theorem decide_risky_allow_iff
    (hallow : p.overrides.get? operation ≠ some .allow)
    (hgranted : p.preGranted.contains operation = false) :
    (p.decide operation .writeRisky digest q).action = .allow ↔
      p.hardBlock.contains operation = false ∧
        p.overrides.get? operation ≠ some .deny ∧
        q.latestResolution? operation digest = some .approved ∧
        q.unresolvedFor? operation digest = none := by
  rw [← Approval.Queue.standing_allow_iff, Policy.decide]
  cases p.hardBlock.contains operation with
  | true => simp [Decision.deny]
  | false =>
      rcases hrule : p.overrides.get? operation with _ | _ | _ | _
      · simp [byClass, byApproval_eq_standing hgranted]
      · exact absurd hrule hallow
      · simp [Decision.deny]
      · simp [byApproval_eq_standing hgranted]

/-! ## Evaluation -/

theorem evaluate_of_settled (h : (p.peek r q).action ≠ .requireApproval) :
    p.evaluate r q = (⟨p.peek r q, none, false⟩, q) := by
  rw [evaluate, if_pos h]

theorem evaluate_of_waiting (h : (p.peek r q).action = .requireApproval)
    (hwaiting : q.unresolvedFor? r.operation r.digest = some a) :
    p.evaluate r q = (⟨p.peek r q, some a.id, false⟩, q) := by
  rw [evaluate, if_neg (not_not_intro h), hwaiting]

theorem evaluate_of_asking (h : (p.peek r q).action = .requireApproval)
    (hnone : q.unresolvedFor? r.operation r.digest = none) :
    p.evaluate r q = (⟨p.peek r q, some q.nextId, true⟩,
      q.enqueue (p.targetFor r.operation r.digest) r.fingerprint
        r.sequence) := by
  rw [evaluate, if_neg (not_not_intro h), hnone]

end Policy

end CallGate
