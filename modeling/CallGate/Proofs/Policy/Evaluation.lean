import CallGate.Proofs.Approval.Lifecycle
import CallGate.Proofs.Policy.Gate

/-!
# What the gate does to the queue

Evaluating a call asks for an approval at most, and only when none for the call
waits.  What the gate names is then there to be decided, and the target that
the gate makes for a call is broad enough to reach all that covers it, also in
a queue with another matching than that of the policy.  So a decision about
that target, if it comes after all that is in the queue, is the decision that
the gate goes by next.
-/

namespace CallGate

namespace Approval.Queue

variable {p : Policy} {q : Queue} {operation : OperationId} {digest : String}
  {resolution : Resolution} {n : Nat} {a b : Approval}

/-- All that was asked for and resolved so far was so before a number. -/
def AllBefore (q : Queue) (n : Nat) : Prop :=
  ∀ a ∈ q.entries, a.requestedAt < n ∧ ∀ m ∈ a.resolvedAt, m < n

theorem AllBefore.changedAt_lt (h : q.AllBefore n) (ha : a ∈ q.entries) :
    a.changedAt < n := by
  obtain ⟨hrequested, hresolved⟩ := h a ha
  rw [changedAt]
  cases hat : a.resolvedAt with
  | none => exact hrequested
  | some m => exact hresolved m hat

/-- A decision about a call resolves the approvals for the call that wait and
leaves the others as they are. -/
theorem mem_covering_of_decision
    (hb : b ∈ (q.resolveWhere (q.isOpenFor (p.targetFor operation digest))
      resolution n).covering operation digest) :
    (b.resolution = resolution ∧ b.changedAt = n) ∨
      (b ∈ q.entries ∧ b.resolution ≠ .unresolved) := by
  obtain ⟨hb, hcovers⟩ := mem_covering.1 hb
  obtain ⟨c, hc, rfl⟩ := mem_resolveWhere.1 hb
  rw [target_of_ite] at hcovers
  by_cases hwaiting : c.resolution = .unresolved
  · rw [if_pos (isOpenFor_targetFor p (mem_covering.2 ⟨hc, hcovers⟩)
      hwaiting)]
    exact Or.inl ⟨rfl, rfl⟩
  · rw [if_neg fun hopen => hwaiting (isOpenFor_iff.1 hopen).1]
    exact Or.inr ⟨hc, hwaiting⟩

theorem unresolvedFor?_of_decision (p : Policy)
    (hresolution : resolution ≠ .unresolved) (n : Nat) :
    (q.resolveWhere (q.isOpenFor (p.targetFor operation digest)) resolution
      n).unresolvedFor? operation digest = none := by
  refine unresolvedFor?_eq_none_iff.2 fun b hb => ?_
  rcases mem_covering_of_decision hb with ⟨hb, -⟩ | ⟨-, hb⟩
  · rw [hb]
    exact hresolution
  · exact hb

/-- After all that is in the queue, the decision about what waits for a call is
the last one about the call. -/
theorem latestResolution?_of_decision (p : Policy) (hbefore : q.AllBefore n)
    (hresolution : resolution ≠ .unresolved)
    (ha : a ∈ q.covering operation digest)
    (hwaiting : a.resolution = .unresolved) :
    (q.resolveWhere (q.isOpenFor (p.targetFor operation digest)) resolution
      n).latestResolution? operation digest = some resolution := by
  obtain ⟨haq, hcovers⟩ := mem_covering.1 ha
  have hmem : a.resolve resolution n ∈
      (q.resolveWhere (q.isOpenFor (p.targetFor operation digest)) resolution
        n).covering operation digest := by
    refine mem_covering.2 ⟨mem_resolveWhere.2 ⟨a, haq, ?_⟩, hcovers⟩
    rw [if_pos (isOpenFor_targetFor p ha hwaiting)]
  obtain ⟨last, hlast⟩ := exists_lastResolved? hmem hresolution
  obtain ⟨hlastmem, -, hmax⟩ := lastResolved?_spec hlast
  have hle : n ≤ last.changedAt := hmax _ hmem hresolution
  rw [latestResolution?, hlast, Option.map_some]
  rcases mem_covering_of_decision hlastmem with ⟨hr, -⟩ | ⟨hold, -⟩
  · rw [hr]
  · exact absurd hle (Nat.not_le_of_lt (hbefore.changedAt_lt hold))

end Approval.Queue

/-- The requests are of the same call, whatever their numbers are. -/
structure Request.SameCall (r other : Request) : Prop where
  operation_eq : other.operation = r.operation
  risk_eq : other.risk = r.risk
  digest_eq : other.digest = r.digest

namespace Policy

variable {p : Policy} {operation : OperationId} {risk : RiskClass}
  {digest : String} {r : Request} {q : Approval.Queue} {a : Approval}

/-- When a call has to wait, its approvals decide about it. -/
theorem decide_eq_standing_of_waits
    (h : (p.decide operation risk digest q).action = .requireApproval)
    (q' : Approval.Queue) :
    p.decide operation risk digest q' = q'.standing operation digest := by
  rcases p.decide_cases operation risk digest with ⟨d, hd, hrule⟩ | hstanding
  · rw [hrule] at h
    exact absurd h hd
  · exact hstanding q'

theorem decide_eq_requireApproval
    (h : (p.decide operation risk digest q).action = .requireApproval) :
    p.decide operation risk digest q = .requireApproval := by
  have hstanding := decide_eq_standing_of_waits h q
  rw [hstanding] at h ⊢
  rw [Approval.Queue.standing] at h ⊢
  split at h
  · cases h
  · cases h
  · rfl

theorem evaluate_decision : (p.evaluate r q).1.decision = p.peek r q := by
  rw [evaluate]
  split
  · rfl
  · split <;> rfl

theorem filed_evaluate (h : q.Filed) : (p.evaluate r q).2.Filed := by
  rw [evaluate]
  split
  · exact h
  · split
    · exact h
    · exact h.enqueue _ _ _

/-- The approval that the gate names for a call that has to wait.  It is there,
it waits and covers the call; and it is the only one that was added, if it was
not there before. -/
structure Names (p : Policy) (r : Request) (q : Approval.Queue)
    (a : Approval) : Prop where
  waits : (p.peek r q).action = .requireApproval
  approval_eq : (p.evaluate r q).1.approval = some a.id
  found : (p.evaluate r q).2.unresolvedFor? r.operation r.digest = some a
  change : (p.evaluate r q).1.enqueued = false ∧
        (p.evaluate r q).2 = q ∧ a ∈ q.entries ∨
      (p.evaluate r q).1.enqueued = true ∧
        (p.evaluate r q).2 = { q with entries := q.entries ++ [a] } ∧
        ∀ b ∈ q.covering r.operation r.digest, b.resolution ≠ .unresolved

theorem exists_names (h : (p.peek r q).action = .requireApproval) :
    ∃ a, p.Names r q a := by
  cases hwaiting : q.unresolvedFor? r.operation r.digest with
  | some a =>
      have hevaluate := evaluate_of_waiting h hwaiting
      refine ⟨a, h, ?_, ?_, Or.inl ⟨?_, ?_, ?_⟩⟩
      · rw [hevaluate]
      · rw [hevaluate]
        exact hwaiting
      · rw [hevaluate]
      · rw [hevaluate]
      · exact List.mem_of_find?_eq_some hwaiting
  | none =>
      have hevaluate := evaluate_of_asking h hwaiting
      let asked : Approval :=
        ⟨q.nextId, p.targetFor r.operation r.digest, r.fingerprint,
          r.sequence, .unresolved, none⟩
      have hfound : asked.awaits r.operation r.digest q.matching = true := by
        have hcovers := Approval.Target.covers_targetFor p r.operation
          r.digest q.matching
        rw [Approval.awaits, hcovers]
        rfl
      refine ⟨asked, h, ?_, ?_, Or.inr ⟨?_, ?_, ?_⟩⟩
      · rw [hevaluate]
      · rw [hevaluate]
        rw [Approval.Queue.unresolvedFor?] at hwaiting ⊢
        rw [Approval.Queue.enqueue]
        dsimp only
        rw [List.find?_append, hwaiting, Option.none_or,
          List.find?_singleton, if_pos hfound]
      · rw [hevaluate]
      · rw [hevaluate]
        rfl
      · exact Approval.Queue.unresolvedFor?_eq_none_iff.1 hwaiting

namespace Names

theorem waiting (h : p.Names r q a) :
    a ∈ (p.evaluate r q).2.covering r.operation r.digest ∧
      a.resolution = .unresolved := by
  have hfound := h.found
  rw [Approval.Queue.unresolvedFor?_eq_find?_covering] at hfound
  exact ⟨List.mem_of_find?_eq_some hfound,
    by simpa using List.find?_some hfound⟩

/-- Evaluating the call again changes nothing and names the same approval. -/
theorem evaluate_again (h : p.Names r q a) {again : Request}
    (hsame : r.SameCall again) :
    p.evaluate again (p.evaluate r q).2 =
      (⟨p.peek r q, some a.id, false⟩, (p.evaluate r q).2) := by
  have hfound := h.found
  have hbefore : p.peek r q = .requireApproval :=
    decide_eq_requireApproval h.waits
  have hafter : p.peek again (p.evaluate r q).2 = .requireApproval := by
    rw [peek, hsame.operation_eq, hsame.risk_eq, hsame.digest_eq,
      decide_eq_standing_of_waits h.waits,
      Approval.Queue.standing_of_waiting hfound]
  rw [hbefore, ← hafter]
  rw [← hsame.operation_eq, ← hsame.digest_eq] at hfound
  exact evaluate_of_waiting (by rw [hafter]; rfl) hfound

/-- A decision about the target that the gate makes for the call is taken, it
decides the approval that the gate has named, and the gate goes by it. -/
theorem decided (h : p.Names r q a) {resolution : Approval.Resolution}
    {n : Nat} (hdecision : resolution.isDecision = true)
    (hbefore : (p.evaluate r q).2.AllBefore n) :
    ∃ decided later,
      (p.evaluate r q).2.decide (p.targetFor r.operation r.digest) resolution
          n = .ok (decided, later) ∧
        a.id ∈ decided.map (·.id) ∧
        later.unresolvedFor? r.operation r.digest = none ∧
        later.latestResolution? r.operation r.digest = some resolution := by
  obtain ⟨hmem, hwaiting⟩ := h.waiting
  generalize (p.evaluate r q).2 = after at hmem hbefore ⊢
  have haq := (Approval.Queue.mem_covering.1 hmem).1
  have hopen := Approval.Queue.isOpenFor_targetFor p hmem hwaiting
  have hresolution :=
    Approval.Resolution.ne_unresolved_of_isDecision hdecision
  cases hdecide : after.decide (p.targetFor r.operation r.digest)
      resolution n with
  | error e =>
      rcases Approval.Queue.decide_eq_error hdecide with hnot | hnone
      · rw [hdecision] at hnot
        cases hnot
      · exact absurd hopen (hnone a haq)
  | ok found =>
      obtain ⟨decided, later⟩ := found
      obtain ⟨-, rfl, rfl⟩ := Approval.Queue.decide_eq_ok hdecide
      refine ⟨_, _, rfl, ?_,
        Approval.Queue.unresolvedFor?_of_decision p hresolution n,
        Approval.Queue.latestResolution?_of_decision p hbefore hresolution
          hmem hwaiting⟩
      rw [List.map_map]
      exact List.mem_map.2 ⟨a, List.mem_filter.2 ⟨haq, hopen⟩, rfl⟩

end Names

/-- What the gate does to a queue, however the queue came about.  The decision
is the one about the queue before.  Only a call that has to wait gets the
approval it waits for: the oldest one that waits for the call, or a new one at
the end of the queue when none does.  Asking again changes nothing, and a later
decision about the target for the call is the next decision about the call. -/
theorem evaluate_names_what_is_decided (matching : Approval.Matching)
    (actions : List Approval.QueueAction) (p : Policy) (r : Request) :
    let q := (Approval.Queue.empty matching).run actions
    let outcome := (p.evaluate r q).1
    let after := (p.evaluate r q).2
    outcome.decision = p.decide r.operation r.risk r.digest q ∧
      (outcome.decision.action ≠ .requireApproval →
        outcome.approval = none ∧ outcome.enqueued = false ∧ after = q) ∧
      (outcome.decision.action = .requireApproval →
        ∃ a, outcome.approval = some a.id ∧ after.get? a.id = some a ∧
          a.resolution = .unresolved ∧
          a.target.covers r.operation r.digest after.matching = true ∧
          (outcome.enqueued = false ∧ after = q ∧ a ∈ q.entries ∨
            outcome.enqueued = true ∧
              after = { q with entries := q.entries ++ [a] } ∧
              ∀ b ∈ q.entries,
                b.target.covers r.operation r.digest q.matching = true →
                  b.resolution ≠ .unresolved) ∧
          (∀ again, r.SameCall again → p.evaluate again after =
            (⟨outcome.decision, some a.id, false⟩, after)) ∧
          ∀ resolution n, resolution.isDecision = true → after.AllBefore n →
            ∃ decided later,
              after.decide (p.targetFor r.operation r.digest) resolution n =
                  .ok (decided, later) ∧
                a.id ∈ decided.map (·.id) ∧
                (resolution = .approved →
                  p.decide r.operation r.risk r.digest later =
                    .allow .approvalGranted) ∧
                (resolution = .denied →
                  p.decide r.operation r.risk r.digest later =
                    .deny .approvalDenied)) := by
  intro q outcome after
  have hdecision : outcome.decision = p.peek r q := evaluate_decision
  refine ⟨hdecision, fun hsettled => ?_, fun hwaits => ?_⟩
  · rw [hdecision] at hsettled
    have hevaluate := evaluate_of_settled hsettled
    exact ⟨congrArg (·.1.approval) hevaluate,
      congrArg (·.1.enqueued) hevaluate, congrArg (·.2) hevaluate⟩
  · rw [hdecision] at hwaits ⊢
    obtain ⟨a, hnames⟩ := exists_names hwaits
    have hfiled : q.Filed := (Approval.Queue.Filed.empty matching).run actions
    obtain ⟨hmem, hwaiting⟩ := hnames.waiting
    obtain ⟨ha, hcovers⟩ := Approval.Queue.mem_covering.1 hmem
    refine ⟨a, hnames.approval_eq, (filed_evaluate hfiled).get?_of_mem ha,
      hwaiting, hcovers, ?_, fun again => hnames.evaluate_again, ?_⟩
    · rcases hnames.change with hsame | ⟨henqueued, hafter, hnone⟩
      · exact Or.inl hsame
      · exact Or.inr ⟨henqueued, hafter, fun b hb hcovers =>
          hnone b (Approval.Queue.mem_covering.2 ⟨hb, hcovers⟩)⟩
    · intro resolution n hdecision hbefore
      obtain ⟨decided, later, hdecide, hid, hsettled, hlast⟩ :=
        hnames.decided hdecision hbefore
      refine ⟨decided, later, hdecide, hid, ?_, ?_⟩
      · rintro rfl
        rw [decide_eq_standing_of_waits hwaits,
          Approval.Queue.standing_of_approved hlast hsettled]
      · rintro rfl
        rw [decide_eq_standing_of_waits hwaits,
          Approval.Queue.standing_of_denied hlast hsettled]

/-- An approval for every call was granted, and a new one for this call waits;
denying the call decides it. -/
theorem evaluate_names_what_is_decided_waiting :
    let send : OperationId := ⟨"mail", "send"⟩
    let r : Request := ⟨send, .writeRisky, [], 4, "f", "d"⟩
    let p : Policy := { matching := .call }
    let q := (Approval.Queue.empty .call).run
      [.enqueue (.everyCall send) "e" 1,
        .decide (.everyCall send) .approved 2, .enqueue ⟨send, "d"⟩ "f" 3]
    ∃ a decided later, (p.evaluate r q).1.approval = some a ∧
      (p.evaluate r q).2.decide (p.targetFor send "d") .denied 5 =
        .ok (decided, later) ∧
      a ∈ decided.map (·.id) ∧
      p.decide send .writeRisky "d" later = .deny .approvalDenied := by
  intro send r p q
  obtain ⟨-, -, hwaits⟩ := evaluate_names_what_is_decided .call
    [.enqueue (.everyCall send) "e" 1, .decide (.everyCall send) .approved 2,
      .enqueue ⟨send, "d"⟩ "f" 3] p r
  obtain ⟨a, happroval, -, -, -, -, -, hdecided⟩ :=
    hwaits (by decide +kernel)
  obtain ⟨decided, later, hdecide, hid, -, hdenied⟩ :=
    hdecided .denied 5 rfl (by unfold Approval.Queue.AllBefore; decide +kernel)
  exact ⟨a.id, decided, later, happroval, hdecide, hid, hdenied rfl⟩

end Policy

end CallGate
