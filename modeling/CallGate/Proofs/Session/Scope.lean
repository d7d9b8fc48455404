import CallGate.Proofs.Approval.Lifecycle
import CallGate.Proofs.Call.Fingerprint
import CallGate.Proofs.Session.Runs

/-!
# What a decision about one call reaches

When digests count, a decision about one call leaves the approvals of other
calls alone.  It does resolve an approval for the whole operation that waits,
and such an approval is one for the other calls as well.  That is the only way
in which the decision changes what the gate says about another call, and then
it always does so for a call that the gate would have held back.
-/

namespace CallGate

namespace Approval.Queue

variable {q : Queue} {operation : OperationId} {digest d : String}
  {target : Target} {resolution : Resolution} {a : Approval} {m n : Nat}

/-- An approval for all calls of the operation waits. -/
def WideWaits (q : Queue) (operation : OperationId) : Prop :=
  ∃ a ∈ q.entries,
    a.target = .everyCall operation ∧ a.resolution = .unresolved

/-- Resolving approvals keeps which of them cover a call. -/
theorem covering_resolveWhere (p : Approval → Bool) :
    (q.resolveWhere p resolution n).covering operation digest =
      (q.covering operation digest).map fun a =>
        if p a then a.resolve resolution n else a := by
  rw [covering, covering, resolveWhere, List.filter_map]
  congr 1
  refine List.filter_congr fun a _ => ?_
  rw [Function.comp_apply, target_of_ite]

/-- Resolving none of the approvals for a call leaves them as they are. -/
theorem covering_resolveWhere_of_not {p : Approval → Bool}
    (h : ∀ a ∈ q.covering operation digest, ¬p a = true) :
    (q.resolveWhere p resolution n).covering operation digest =
      q.covering operation digest := by
  rw [covering_resolveWhere]
  refine (List.map_congr_left fun a ha => ?_).trans (List.map_id _)
  rw [if_neg (h a ha)]
  rfl

/-- When no approval for the whole operation waits, a decision about one call
is waited for by no approval for another. -/
theorem not_isOpenFor_of_narrow (hcall : q.matching = .call)
    (hnarrow : ¬q.WideWaits operation) (hne : digest ≠ d)
    (ha : a ∈ q.covering operation digest) :
    ¬q.isOpenFor ⟨operation, some d⟩ a = true := by
  intro hopen
  obtain ⟨hwaiting, hshared⟩ := isOpenFor_iff.1 hopen
  obtain ⟨haq, hcovers⟩ := mem_covering.1 ha
  obtain ⟨hoperation, hcovered⟩ := Target.covers_iff.1 hcovers
  rcases hcovered hcall with hnone | hown
  · exact hnarrow ⟨a, haq, Target.eq_everyCall hoperation hnone, hwaiting⟩
  · rcases (Target.decidedBy_iff.1 hshared).2 hcall with hd | hd | hd
    · rw [hd] at hown
      cases hown
    · cases hd
    · rw [hd] at hown
      exact hne (Option.some.inj hown).symm

/-- When no approval for the whole operation waits, a decision about one call
leaves the approvals for the others as they are. -/
theorem covering_decided_of_narrow (hcall : q.matching = .call)
    (hnarrow : ¬q.WideWaits operation) (hne : digest ≠ d) :
    (q.resolveWhere (q.isOpenFor ⟨operation, some d⟩) resolution n).covering
        operation digest =
      q.covering operation digest :=
  covering_resolveWhere_of_not fun _ ha =>
    not_isOpenFor_of_narrow hcall hnarrow hne ha

/-- An approval for the whole operation covers every call of it. -/
theorem mem_covering_of_wide (ha : a ∈ q.entries)
    (hwide : a.target = .everyCall operation) :
    a ∈ q.covering operation digest := by
  refine mem_covering.2 ⟨ha, Target.covers_iff.2 ?_⟩
  rw [hwide]
  exact ⟨rfl, fun _ => Or.inl rfl⟩

theorem unresolvedFor?_of_wide (hwide : q.WideWaits operation)
    (digest : String) : ∃ a, q.unresolvedFor? operation digest = some a := by
  obtain ⟨a, ha, htarget, hwaiting⟩ := hwide
  refine Option.ne_none_iff_exists'.1 fun hnone => ?_
  exact unresolvedFor?_eq_none_iff.1 hnone a
    (mem_covering_of_wide ha htarget) hwaiting

/-- An approval for the whole operation that waits is the only approval for
any call of it that does. -/
theorem WellKept.eq_of_wide (h : q.WellKept n) (ha : a ∈ q.entries)
    (hwide : a.target = .everyCall operation)
    (hwaiting : a.resolution = .unresolved) {b : Approval}
    (hb : b ∈ q.covering operation digest)
    (hbwaiting : b.resolution = .unresolved) : b = a := by
  obtain ⟨hbq, hcovers⟩ := mem_covering.1 hb
  refine h.eq_of_waiting hbq ha ?_ hbwaiting hwaiting
  refine Target.decidedBy_iff.2 ⟨?_, fun _ => ?_⟩
  · rw [(Target.covers_iff.1 hcovers).1, hwide]
    rfl
  · rw [hwide]
    exact Or.inr (Or.inl rfl)

/-- When an approval for the whole operation waits, a decision about one call
settles every other call of the operation the same way.  What covers such a call
is resolved then, by this decision or by one before it. -/
theorem standing_decided_of_wide (h : q.WellKept n) (hnm : n < m)
    (hwide : q.WideWaits operation) (hresolution : resolution ≠ .unresolved)
    (d digest : String) :
    let q' := q.resolveWhere (q.isOpenFor ⟨operation, some d⟩) resolution m
    q'.unresolvedFor? operation digest = none ∧
      q'.latestResolution? operation digest = some resolution := by
  intro q'
  obtain ⟨a, ha, htarget, hwaiting⟩ := hwide
  have hopen : q.isOpenFor ⟨operation, some d⟩ a = true := by
    refine isOpenFor_iff.2 ⟨hwaiting, Target.decidedBy_iff.2 ?_⟩
    rw [htarget]
    exact ⟨rfl, fun _ => Or.inl rfl⟩
  have hcases : ∀ b ∈ q'.covering operation digest,
      b = a.resolve resolution m ∨
        b ∈ q.covering operation digest ∧ b.resolution ≠ .unresolved := by
    intro b hb
    rw [covering_resolveWhere] at hb
    obtain ⟨b', hb', hbb⟩ := List.mem_map.1 hb
    by_cases hbwaiting : b'.resolution = .unresolved
    · have hba := h.eq_of_wide ha htarget hwaiting hb' hbwaiting
      rw [hba, if_pos hopen] at hbb
      exact Or.inl hbb.symm
    · have hnot : ¬q.isOpenFor ⟨operation, some d⟩ b' = true :=
        fun hb => hbwaiting (isOpenFor_iff.1 hb).1
      rw [if_neg hnot] at hbb
      rw [← hbb]
      exact Or.inr ⟨hb', hbwaiting⟩
  have hmem : a.resolve resolution m ∈ q'.covering operation digest := by
    rw [covering_resolveWhere]
    refine List.mem_map.2 ⟨a, mem_covering_of_wide ha htarget, ?_⟩
    rw [if_pos hopen]
  constructor
  · refine unresolvedFor?_eq_none_iff.2 fun b hb => ?_
    rcases hcases b hb with rfl | ⟨-, hbr⟩
    · exact hresolution
    · exact hbr
  · rw [latestResolution?, lastResolved?_eq_some hmem hresolution]
    · rfl
    · intro b hb _
      rcases hcases b hb with hba | ⟨hbq, -⟩
      · exact Or.inl hba
      · refine Or.inr (Nat.lt_of_le_of_lt ?_ hnm)
        exact h.changedAt_le b (mem_covering.1 hbq).1

/-- Whether or not something waits for a decision, the queue afterwards has
all of it resolved. -/
theorem decide_eq_resolveWhere (hdecision : resolution.isDecision = true)
    (q : Queue) (target : Target) (n : Nat) :
    (∃ e, q.decide target resolution n = .error e ∧
        q.resolveWhere (q.isOpenFor target) resolution n = q) ∨
      ∃ decided, q.decide target resolution n =
        .ok (decided,
          q.resolveWhere (q.isOpenFor target) resolution n) := by
  cases hopen : q.openFor? target with
  | none =>
      refine Or.inl ⟨_, decide_of_openFor?_eq_none hdecision hopen n, ?_⟩
      apply resolveWhere_of_not
      simpa [openFor?] using hopen
  | some a => exact Or.inr (decide_of_openFor?_eq_some hdecision hopen n)

end Approval.Queue

/-- What the gate says of a call whose approvals are settled by a control. -/
def ApprovalControl.verdict : ApprovalControl → Decision
  | .approve => .allow .approvalGranted
  | .deny => .deny .approvalDenied
  | .request | .status | .list => .requireApproval

/-- Calls that are settled by a control get its verdict. -/
theorem ApprovalControl.standing_eq_verdict
    {c : ApprovalControl} {resolution : Approval.Resolution}
    {q : Approval.Queue} {operation : OperationId} {digest : String}
    (hc : c.resolution? = some resolution)
    (hsettled : q.unresolvedFor? operation digest = none)
    (hlast : q.latestResolution? operation digest = some resolution) :
    q.standing operation digest = c.verdict := by
  cases c <;> cases hc
  · exact Approval.Queue.standing_of_approved hlast hsettled
  · exact Approval.Queue.standing_of_denied hlast hsettled

namespace SessionSetup

variable {s : SessionSetup} {st : SessionState} {args : Json} {t : Taken}
  {c : ApprovalControl} {target : Approval.Target}
  {resolution : Approval.Resolution}

/-- A control with arguments is about what the gate would ask for when the
operation is called with them. -/
theorem controlTarget_eq_targetFor {sent : Arguments} {v : Json}
    {operation : OperationId} {members : Arguments}
    (hoperation : s.controlOperation sent = .ok operation)
    (hv : Json.member? "args" sent = some v)
    (hmembers : Arguments.ofValue operation v = .ok members) :
    s.controlTarget sent = .ok (s.config.policy.targetFor operation
      (callDigest operation members)) := by
  rw [controlTarget, hoperation]
  dsimp only
  rw [hv]
  dsimp only
  rw [hmembers]

/-- When digests count, a control with arguments is about one call. -/
theorem controlTarget_of_args {sent : Arguments} {v : Json}
    {operation : OperationId} {members : Arguments}
    (hcall : s.config.policy.matching = .call)
    (hoperation : s.controlOperation sent = .ok operation)
    (hv : Json.member? "args" sent = some v)
    (hmembers : Arguments.ofValue operation v = .ok members) :
    s.controlTarget sent =
      .ok ⟨operation, some (callDigest operation members)⟩ := by
  rw [controlTarget_eq_targetFor hoperation hv hmembers, Policy.targetFor,
    hcall]

/-- A call of a control goes to that control. -/
theorem TakesUp.spec_eq_viaControl {spec : OperationSpec}
    {members : Arguments} {e : Execution} (hbuilt : s.registry.Built)
    (h : s.TakesUp c.id args st t spec members e) :
    spec = .viaControl c := by
  have hspec := h.spec_eq
  rw [hbuilt.get?_control c] at hspec
  exact (Option.some.inj hspec).symm

/-- A call of a control ends as the control does and leaves the queue as the
control does. -/
theorem TakesUp.eq_executeControl {spec : OperationSpec}
    {members : Arguments} {e : Execution} (hbuilt : s.registry.Built)
    (h : s.TakesUp c.id args st t spec members e) :
    let ended := s.executeControl t.request c
      { st with sequence := st.sequence + 1 }
    t.executed = ended.executed ∧
      t.state.approvals = ended.state.approvals := by
  rw [h.state_approvals, h.executed_eq, h.execution_eq,
    h.spec_eq_viaControl hbuilt]
  exact ⟨rfl, rfl⟩

/-- A decision resolves all that waits for it, and nothing else. -/
theorem approvals_of_decision (hbuilt : s.registry.Built)
    (ht : s.take c.id args st = .ok t)
    (hc : c.resolution? = some resolution)
    (htarget : s.controlTarget t.request.args = .ok target) :
    t.state.approvals = st.approvals.resolveWhere
      (st.approvals.isOpenFor target) resolution (st.sequence + 1) := by
  obtain ⟨spec, members, e, htakes⟩ := take_eq_ok ht
  have hdecide : s.executeControl t.request c
        { st with sequence := st.sequence + 1 } =
      s.controlDecide t.request target resolution
        { st with sequence := st.sequence + 1 } := by
    rw [executeControl, htarget]
    cases c <;> cases hc <;> rfl
  rw [(htakes.eq_executeControl hbuilt).2, hdecide, controlDecide,
    htakes.request_sequence]
  rcases Approval.Queue.decide_eq_resolveWhere
      (ApprovalControl.isDecision_of_resolution? hc) st.approvals target
      (st.sequence + 1) with ⟨e', he, hsame⟩ | ⟨decided, hdecided⟩
  · dsimp only
    rw [he, hsame]
  · dsimp only
    rw [hdecided]

end SessionSetup

namespace Session

/-- When digests count, a decision about one call changes what the gate says
of another call of the operation exactly when an approval for the whole
operation waits and the other call needs an approval; the gate then says of
the other call what was decided. -/
theorem decide_other_call_of_scoped_decision
    {setup : SessionSetup} (hbuilt : setup.registry.Built)
    (hcall : setup.config.policy.matching = .call)
    (snapshot : Json) (clock : Clock) (sink : ReceiptSink)
    (actions : List SessionAction)
    {c : ApprovalControl} {args v : Json} {t : Taken}
    {operation : OperationId} {members : Arguments}
    (hc : c = .approve ∨ c = .deny)
    (ht : setup.take c.id args
      ((start setup snapshot clock sink).run actions).state = .ok t)
    (hoperation : setup.controlOperation t.request.args = .ok operation)
    (hv : Json.member? "args" t.request.args = some v)
    (hmembers : Arguments.ofValue operation v = .ok members)
    (risk : RiskClass) {digest : String}
    (hne : digest ≠ callDigest operation members) :
    let policy := setup.config.policy
    let last := ((start setup snapshot clock sink).run actions).state
    let before := policy.decide operation risk digest last.approvals
    let after := policy.decide operation risk digest t.state.approvals
    let reached := last.approvals.WideWaits operation ∧
      before.action = .requireApproval
    (after = before ↔ ¬reached) ∧ (reached → after = c.verdict) := by
  intro policy last before after reached
  obtain ⟨resolution, hresolution⟩ :
      ∃ resolution, c.resolution? = some resolution := by
    rcases hc with rfl | rfl
    · exact ⟨.approved, rfl⟩
    · exact ⟨.denied, rfl⟩
  have htarget :=
    SessionSetup.controlTarget_of_args hcall hoperation hv hmembers
  have horderly : setup.Orderly last :=
    orderly_run_start setup snapshot clock sink actions
  have hmatching : last.approvals.matching = .call :=
    horderly.matching.trans hcall
  have happrovals : t.state.approvals = last.approvals.resolveWhere
      (last.approvals.isOpenFor
        ⟨operation, some (callDigest operation members)⟩)
      resolution (last.sequence + 1) :=
    SessionSetup.approvals_of_decision hbuilt ht hresolution htarget
  have hsame : ¬reached → after = before := by
    intro hnot
    by_cases hwide : last.approvals.WideWaits operation
    · rcases policy.decide_cases operation risk digest with ⟨d, -, hd⟩ | hq
      · exact (hd _).trans (hd _).symm
      · obtain ⟨a, ha⟩ :=
          Approval.Queue.unresolvedFor?_of_wide hwide digest
        have hbefore : before = .requireApproval :=
          (hq _).trans (Approval.Queue.standing_of_waiting ha)
        exact absurd ⟨hwide, by rw [hbefore]; rfl⟩ hnot
    · refine Policy.decide_congr ?_
      rw [happrovals]
      exact Approval.Queue.covering_decided_of_narrow hmatching hwide hne
  have hverdict : reached → after = c.verdict := by
    rintro ⟨hwide, hneeds⟩
    rcases policy.decide_cases operation risk digest with ⟨d, hd, hrule⟩ | hq
    · exact absurd ((hrule _).symm ▸ hneeds) hd
    · have hne : resolution ≠ .unresolved := by
        rintro rfl
        cases ApprovalControl.isDecision_of_resolution? hresolution
      obtain ⟨hsettled, hlatest⟩ :=
        Approval.Queue.standing_decided_of_wide horderly.kept
          (Nat.lt_succ_self _) hwide hne (callDigest operation members) digest
      rw [← happrovals] at hsettled hlatest
      exact (hq _).trans
        (ApprovalControl.standing_eq_verdict hresolution hsettled hlatest)
  refine ⟨⟨?_, hsame⟩, hverdict⟩
  intro heq hreached
  have hneeds : c.verdict.action = .requireApproval := by
    rw [← hverdict hreached, heq]
    exact hreached.2
  rcases hc with rfl | rfl <;> cases hneeds

/-- The arguments of a mail to somebody. -/
def mailTo (who : String) : Arguments := [("to", .str who)]

theorem canonicalText_callBody_mailTo (who : String) :
    (callBody mailSend (mailTo who)).canonicalText =
      String.ofList (Json.braced
        [(Json.quoted "args",
            Json.braced [(Json.quoted "to", Json.quoted who)]),
          (Json.quoted "operation", Json.quoted "send"),
          (Json.quoted "service", Json.quoted "mail")]) := by
  rw [Json.canonicalText, canonical_callBody, mailTo,
    Json.canonical_obj_of_sorted]
  · rfl
  · exact List.pairwise_singleton _ _

theorem callDigest_mailTo_ne :
    callDigest mailSend (mailTo "b") ≠ callDigest mailSend (mailTo "a") := by
  rw [callDigest, callDigest, Json.digest, Json.digest,
    canonicalText_callBody_mailTo, canonicalText_callBody_mailTo]
  decide +kernel

/-- An approval for all mail is asked for and then the mail to `a` alone is
approved: the mail to `b`, which had to wait before, is let through. -/
theorem mail_to_other_let_through :
    let setup := mailSetup { matching := .call }
    let session := start setup .null (.logical 0) .none
    let last := (session.run
      [.call ApprovalControl.request.id (decisionArgs mailSend none)]).state
    callDigest mailSend (mailTo "b") ≠ callDigest mailSend (mailTo "a") ∧
    ∃ t, setup.take ApprovalControl.approve.id
        (decisionArgs mailSend (some (.obj (mailTo "a")))) last = .ok t ∧
      setup.config.policy.decide mailSend .writeRisky
        (callDigest mailSend (mailTo "b")) last.approvals =
          .requireApproval ∧
      setup.config.policy.decide mailSend .writeRisky
        (callDigest mailSend (mailTo "b")) t.state.approvals =
          .allow .approvalGranted := by
  intro setup session last
  obtain ⟨t, ht, hargs⟩ : ∃ t,
      setup.take ApprovalControl.approve.id
          (decisionArgs mailSend (some (.obj (mailTo "a")))) last = .ok t ∧
        t.request.args =
          [("args", .obj (mailTo "a")), ("operation", .str "send"),
            ("service", .str "mail")] :=
    ⟨_, rfl, rfl⟩
  have hbefore : setup.config.policy.decide mailSend .writeRisky
      (callDigest mailSend (mailTo "b")) last.approvals =
        .requireApproval := rfl
  have hwide : last.approvals.WideWaits mailSend :=
    ⟨_, List.mem_singleton_self _, rfl, rfl⟩
  have hafter := (decide_other_call_of_scoped_decision mailRegistry_built rfl
    .null (.logical 0) .none _ (Or.inl rfl) ht
    (by rw [hargs]; rfl) (by rw [hargs]; rfl) rfl .writeRisky
    callDigest_mailTo_ne).2 ⟨hwide, by rw [hbefore]; rfl⟩
  exact ⟨callDigest_mailTo_ne, t, ht, hbefore, hafter⟩

end Session

end CallGate
