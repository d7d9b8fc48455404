import CallGate.Proofs.Approval.Entries
import CallGate.Proofs.Session.Asking
import CallGate.Proofs.Session.Scope

/-!
# What a request obtains

A request that is answered names an approval that waits and that a decision
about what was asked for would decide.  Such an approval need not be for all
that was asked for.  When digests count and a request is for a whole operation,
an approval for one call of it that waits already is named, and nothing is
asked for the other calls.
-/

namespace CallGate

namespace Approval

/-- Every call that a target is for is one that another target is for. -/
def Target.Within (t u : Target) (matching : Matching) : Prop :=
  ∀ operation digest, t.covers operation digest matching = true →
    u.covers operation digest matching = true

/-- What a decision about a target decides is for all of the target, unless
digests count and it is for one call while the target is for all. -/
theorem Target.within_iff_of_decidedBy {t u : Target} {matching : Matching}
    (h : u.decidedBy t matching = true) :
    t.Within u matching ↔
      ¬(matching = .call ∧ t.digest = none ∧ u.digest ≠ none) := by
  obtain ⟨hoperation, hdigest⟩ := decidedBy_iff.1 h
  constructor
  · rintro hwithin ⟨hcall, hnone, hsome⟩
    obtain ⟨own, hown⟩ := Option.ne_none_iff_exists'.1 hsome
    obtain ⟨other, hother⟩ : ∃ other : String, own ≠ other := by
      by_cases hempty : own = ""
      · exact ⟨"a", by rw [hempty]; decide⟩
      · exact ⟨"", hempty⟩
    have hcovers : t.covers t.operation other matching = true :=
      covers_iff.2 ⟨rfl, fun _ => Or.inl hnone⟩
    rcases (covers_iff.1 (hwithin _ _ hcovers)).2 hcall with hd | hd
    · exact hsome hd
    · rw [hown] at hd
      exact hother (Option.some.inj hd)
  · intro hnarrow operation digest hcovers
    obtain ⟨htoperation, htdigest⟩ := covers_iff.1 hcovers
    refine covers_iff.2 ⟨hoperation.trans htoperation, fun hcall => ?_⟩
    rcases htdigest hcall with hnone | hsome
    · by_cases hwide : u.digest = none
      · exact Or.inl hwide
      · exact absurd ⟨hcall, hnone, hwide⟩ hnarrow
    · rcases hdigest hcall with hu | ht | hut
      · exact Or.inl hu
      · rw [ht] at hsome
        cases hsome
      · exact Or.inr (hut.trans hsome)

namespace Queue

variable {q : Queue} {operation : OperationId} {target : Target}
  {a : Approval} {n : Nat}

/-- An approval for one call of the operation waits. -/
def NarrowWaits (q : Queue) (operation : OperationId) : Prop :=
  ∃ a ∈ q.entries, a.target.operation = operation ∧
    a.target.digest ≠ none ∧ a.resolution = .unresolved

/-- An approval that waits for a decision is for one call exactly when an
approval for one call of the operation waits. -/
theorem WellKept.narrow_iff_of_openFor? (h : q.WellKept n)
    (hopen : q.openFor? target = some a) :
    a.target.digest ≠ none ↔ q.NarrowWaits target.operation := by
  have ha := List.mem_of_find?_eq_some hopen
  obtain ⟨hwaiting, hshared⟩ := isOpenFor_iff.1 (List.find?_some hopen)
  have hoperation := (Target.decidedBy_iff.1 hshared).1
  constructor
  · intro hnarrow
    exact ⟨a, ha, hoperation, hnarrow, hwaiting⟩
  · rintro ⟨b, hb, hboperation, hbnarrow, hbwaiting⟩ hnone
    have hba : b = a := by
      apply h.eq_of_waiting hb ha _ hbwaiting hwaiting
      exact Target.decidedBy_iff.2
        ⟨hboperation.trans hoperation.symm, fun _ => Or.inr (Or.inl hnone)⟩
    rw [hba] at hbnarrow
    exact hbnarrow hnone

/-- When nothing waits for a decision about a whole operation, no approval for
one call of it waits. -/
theorem not_narrowWaits_of_openFor?_eq_none
    (hopen : q.openFor? target = none) (hwide : target.digest = none) :
    ¬q.NarrowWaits target.operation := by
  rintro ⟨b, hb, hboperation, -, hbwaiting⟩
  apply openFor?_eq_none_iff.1 hopen b hb _ hbwaiting
  exact Target.decidedBy_iff.2 ⟨hboperation, fun _ => Or.inr (Or.inl hwide)⟩

end Queue

end Approval

namespace SessionSetup

variable {s : SessionSetup} {st : SessionState} {args : Json} {t : Taken}

/-- A request that is answered names the oldest approval that waits for a
decision about its target, or else adds one for the target. -/
theorem request_eq_ok (hbuilt : s.registry.Built)
    (ht : s.take ApprovalControl.request.id args st = .ok t)
    (hok : t.executed.response.status = .ok) :
    ∃ target id, s.controlTarget t.request.args = .ok target ∧
      t.executed.response.data = approvalData (some id) target.operation
        Approval.Resolution.unresolved.label ∧
      ((∃ a, st.approvals.openFor? target = some a ∧ id = a.id ∧
          t.state.approvals = st.approvals) ∨
        (st.approvals.openFor? target = none ∧ id = st.approvals.nextId ∧
          t.state.approvals = st.approvals.enqueue target
            t.request.fingerprint t.request.sequence)) := by
  obtain ⟨spec, members, e, htakes⟩ := take_eq_ok ht
  obtain ⟨hexecuted, happrovals⟩ := htakes.eq_executeControl hbuilt
  rw [hexecuted] at hok ⊢
  rw [happrovals]
  cases htarget : s.controlTarget t.request.args with
  | error message =>
      rw [executeControl, htarget] at hok
      cases hok
  | ok target =>
      rw [executeControl_request htarget, controlRequest]
      dsimp only
      cases hopen : st.approvals.openFor? target with
      | some a =>
          exact ⟨target, a.id, rfl, rfl, Or.inl ⟨a, hopen, rfl, rfl⟩⟩
      | none =>
          exact ⟨target, st.approvals.nextId, rfl, rfl,
            Or.inr ⟨hopen, rfl, rfl⟩⟩

end SessionSetup

namespace Session

/-- In a run of a session, a request that is answered names an approval that
waits.  It is one for all that was asked for, unless digests count, the request
is for a whole operation and an approval for one call of it waits already: then
the approval is for one call and the queue is left as it was. -/
theorem requested_approval_covers_iff
    {setup : SessionSetup} (hbuilt : setup.registry.Built)
    (snapshot : Json) (clock : Clock) (sink : ReceiptSink)
    (actions : List SessionAction) {args : Json} {t : Taken}
    (ht : setup.take ApprovalControl.request.id args
      ((start setup snapshot clock sink).run actions).state = .ok t)
    (hok : t.executed.response.status = .ok) :
    let last := ((start setup snapshot clock sink).run actions).state
    let matching := setup.config.policy.matching
    ∃ target a,
      setup.controlTarget t.request.args = .ok target ∧
      t.executed.response.data =
        SessionSetup.approvalData (some a.id) target.operation
          Approval.Resolution.unresolved.label ∧
      t.state.approvals.get? a.id = some a ∧
      a.resolution = .unresolved ∧
      (target.Within a.target matching ↔
        ¬(matching = .call ∧ target.digest = none ∧
          last.approvals.NarrowWaits target.operation)) ∧
      (¬target.Within a.target matching →
        t.state.approvals = last.approvals ∧
          ∃ own, a.target = ⟨target.operation, some own⟩) := by
  intro last matching
  have horderly : setup.Orderly last :=
    orderly_run_start setup snapshot clock sink actions
  have hkept : t.state.approvals.WellKept t.state.sequence :=
    (horderly.take ht).kept
  obtain ⟨target, id, htarget, hdata, ⟨a, hopen, rfl, hsame⟩ |
    ⟨hopen, rfl, hadded⟩⟩ := SessionSetup.request_eq_ok hbuilt ht hok
  · obtain ⟨hwaiting, hshared⟩ :=
      Approval.Queue.isOpenFor_iff.1 (List.find?_some hopen)
    rw [horderly.matching] at hshared
    have hwithin := Approval.Target.within_iff_of_decidedBy hshared
    refine ⟨target, a, htarget, hdata, ?_, hwaiting, ?_, ?_⟩
    · rw [hsame]
      exact horderly.kept.get?_of_mem (List.mem_of_find?_eq_some hopen)
    · rw [hwithin]
      refine not_congr
        (and_congr_right fun _ => and_congr_right fun _ => ?_)
      exact horderly.kept.narrow_iff_of_openFor? hopen
    · intro hnot
      rw [hwithin, Classical.not_not] at hnot
      obtain ⟨-, -, hnarrow⟩ := hnot
      obtain ⟨own, hown⟩ := Option.ne_none_iff_exists'.1 hnarrow
      refine ⟨hsame, own, ?_⟩
      rw [← (Approval.Target.decidedBy_iff.1 hshared).1, ← hown]
  · have hwithin : target.Within target matching := fun _ _ hcovers => hcovers
    refine ⟨target, ⟨last.approvals.nextId, target, t.request.fingerprint,
      t.request.sequence, .unresolved, none⟩, htarget, hdata, ?_, rfl, ?_, ?_⟩
    · apply hkept.get?_of_mem
      rw [hadded]
      exact Approval.Queue.mem_enqueue.2 (Or.inr rfl)
    · refine iff_of_true hwithin ?_
      rintro ⟨-, hwide, hnarrow⟩
      exact Approval.Queue.not_narrowWaits_of_openFor?_eq_none hopen hwide
        hnarrow
    · intro hnot
      exact absurd hwithin hnot

/-- The mail to `a` waits for an approval and then one for all mail is asked
for: what is named is the approval for the mail to `a`, and nothing waits for
the mail to `b`. -/
theorem mail_request_falls_short :
    let setup := mailSetup { matching := .call }
    let session := start setup .null (.logical 0) .none
    let last := (session.run [.call mailSend (.obj (mailTo "a"))]).state
    ∃ t a,
      setup.take ApprovalControl.request.id (decisionArgs mailSend none) last =
        .ok t ∧
      t.executed.response.status = .ok ∧
      t.executed.response.data =
        SessionSetup.approvalData (some a.id) mailSend
          Approval.Resolution.unresolved.label ∧
      t.state.approvals.get? a.id = some a ∧
      ¬(Approval.Target.everyCall mailSend).Within a.target .call ∧
      t.state.approvals.unresolvedFor? mailSend
        (callDigest mailSend (mailTo "b")) = none := by
  intro setup session last
  obtain ⟨t, ht, hok, hnamed⟩ : ∃ t,
      setup.take ApprovalControl.request.id (decisionArgs mailSend none) last =
          .ok t ∧
        t.executed.response.status = .ok ∧
        setup.controlTarget t.request.args = .ok (.everyCall mailSend) :=
    ⟨_, rfl, rfl, rfl⟩
  obtain ⟨target, a, htarget, hdata, hget, -, hiff, hsame⟩ :=
    requested_approval_covers_iff mailRegistry_built .null (.logical 0) .none
      [.call mailSend (.obj (mailTo "a"))] ht hok
  cases htarget.symm.trans hnamed
  obtain ⟨own, hentries, hown, hwaiting⟩ : ∃ own : Approval,
      last.approvals.entries = [own] ∧
        own.target = ⟨mailSend, some (callDigest mailSend (mailTo "a"))⟩ ∧
        own.resolution = .unresolved :=
    ⟨_, rfl, rfl, rfl⟩
  have hnarrow : last.approvals.NarrowWaits mailSend := by
    refine ⟨own, ?_, ?_, ?_, hwaiting⟩
    · rw [hentries]
      exact List.mem_singleton_self own
    · rw [hown]
    · rw [hown]
      exact nofun
  have hnot : ¬(Approval.Target.everyCall mailSend).Within a.target .call :=
    fun hwithin => hiff.1 hwithin ⟨rfl, rfl, hnarrow⟩
  refine ⟨t, a, ht, hok, hdata, hget, hnot, ?_⟩
  rw [(hsame hnot).1]
  apply Approval.Queue.unresolvedFor?_eq_none_iff.2
  intro b hb
  obtain ⟨hbq, hcovers⟩ := Approval.Queue.mem_covering.1 hb
  rw [hentries] at hbq
  cases List.mem_singleton.1 hbq
  rcases (Approval.Target.covers_iff.1 hcovers).2 rfl with hd | hd
  · rw [hown] at hd
    cases hd
  · rw [hown] at hd
    exact absurd (Option.some.inj hd).symm callDigest_mailTo_ne

end Session

end CallGate
