import CallGate.Proofs.Approval.Newest
import CallGate.Proofs.Session.Decisions

/-!
# What a report tells of a call

A report on a call names its newest approval, while the gate goes by the one
that was resolved last and holds a call back while one waits.  A session that
is open keeps its queue in an order in which these agree, so the report tells
what the gate would say of the call at the same moment.
-/

namespace CallGate

namespace Approval

/-- What a reported resolution tells about the decision on a call. -/
structure Tells (text : String) (decision : Decision) : Prop where
  approved_iff : text = "approved" ↔ decision = .allow .approvalGranted
  denied_iff : text = "denied" ↔ decision = .deny .approvalDenied
  waits_iff : text = "none" ∨ text = "unresolved" ↔
    decision = .requireApproval
  notExpired : text ≠ "expired"

theorem tells_none : Tells "none" .requireApproval := by
  constructor <;> decide

/-- The resolution of an approval that did not expire tells its verdict. -/
theorem tells_verdict {resolution : Resolution}
    (hunexpired : resolution ≠ .expired) :
    Tells resolution.label resolution.verdict := by
  cases resolution with
  | unresolved => constructor <;> decide
  | approved => constructor <;> decide
  | denied => constructor <;> decide
  | expired => exact absurd rfl hunexpired

namespace Queue

variable {q : Queue} {operation : OperationId} {digest : String}
  {a : Approval} {n : Nat}

/-- How the newest approval for a target stands, as it is reported. -/
def reported (q : Queue) (target : Target) : String :=
  match q.latestFor? target with
  | some a => a.resolution.label
  | none => "none"

/-- As long as nothing has expired, the report on the target of a call tells
how the call stands. -/
theorem WellKept.reported_tells (h : q.WellKept n) {p : Policy}
    (hmatching : p.matching = q.matching)
    (hunexpired : ∀ a ∈ q.entries, a.resolution ≠ .expired) :
    Tells (q.reported (p.targetFor operation digest))
      (q.standing operation digest) := by
  rw [reported, latestFor?_targetFor hmatching]
  cases hnewest : (q.covering operation digest).getLast? with
  | none =>
      rw [standing_of_uncovered hnewest]
      exact tells_none
  | some a =>
      rw [h.standing_of_newest hnewest]
      have ha := List.mem_of_getLast? hnewest
      exact tells_verdict (hunexpired a (mem_covering.1 ha).1)

end Queue

end Approval

namespace SessionSetup

variable {s : SessionSetup} {st : SessionState} {operation : OperationId}
  {args : Json} {t : Taken} {spec : OperationSpec} {members : Arguments}
  {target : Approval.Target}

/-- An open session takes up a call of a known operation with arguments that
can be read. -/
theorem exists_take (hopened : st.closed = false)
    (hspec : s.registry.get? operation = some spec)
    (hmembers : Arguments.ofValue spec.id args = .ok members) :
    ∃ t, s.take operation args st = .ok t := by
  rw [take, requestFor, hopened, hspec]
  dsimp only
  rw [Request.build, hmembers]
  exact ⟨_, rfl⟩

/-- The decision about a gated call that was taken up. -/
theorem take_decision_eq (ht : s.take operation args st = .ok t)
    (hspec : s.registry.get? operation = some spec)
    (hroute : spec.route = .adapter)
    (hmembers : Arguments.ofValue spec.id args = .ok members) :
    t.executed.decision = s.config.policy.decide spec.id spec.risk
      (callDigest spec.id members) st.approvals := by
  obtain ⟨spec', members', e, htakes⟩ := take_eq_ok ht
  cases hspec.symm.trans htakes.spec_eq
  cases hmembers.symm.trans htakes.members_eq
  rw [htakes.executed_eq, htakes.execution_eq, hroute, execute,
    executeGated_decision, Policy.peek, htakes.request_operation,
    htakes.request_risk, htakes.request_digest]

/-- A report on a target is answered and leaves the queue as it is. -/
theorem take_status_eq {sent : Arguments} (hbuilt : s.registry.Built)
    (ht : s.take ApprovalControl.status.id (.obj sent) st = .ok t)
    (htarget : s.controlTarget sent = .ok target) :
    t.executed.response.status = .ok ∧
      t.executed.response.data =
        approvalData ((st.approvals.latestFor? target).map (·.id))
          target.operation (st.approvals.reported target) ∧
      t.state.approvals = st.approvals := by
  obtain ⟨spec, members, e, htakes⟩ := take_eq_ok ht
  have hargs : t.request.args = sent := by
    rw [htakes.request_args]
    exact (Except.ok.inj htakes.members_eq).symm
  obtain ⟨hexecuted, happrovals⟩ := htakes.eq_executeControl hbuilt
  rw [happrovals, hexecuted, executeControl, hargs, htarget]
  exact ⟨rfl, rfl, rfl⟩

/-! ## Approvals do not expire while a session is open -/

/-- No approval has expired, unless the session is closed. -/
def Unexpired (st : SessionState) : Prop :=
  st.closed = false → ∀ a ∈ st.approvals.entries, a.resolution ≠ .expired

theorem unexpired_start (s : SessionSetup) (snapshot : Json)
    (clock : Clock) : Unexpired (.start s.config snapshot clock) := by
  rintro - a ha
  cases ha

theorem Unexpired.take (h : Unexpired st)
    (hmatching : st.approvals.matching = s.config.policy.matching)
    (ht : s.take operation args st = .ok t) : Unexpired t.state := by
  obtain ⟨spec, members, e, htakes⟩ := take_eq_ok ht
  have heffect := htakes.effect hmatching
  have hold := h htakes.opened
  rintro - a ha
  generalize t.state.approvals = q at ha heffect
  cases heffect with
  | kept => exact hold a ha
  | asked target hopen =>
      rcases Approval.Queue.mem_enqueue.1 ha with ha | rfl
      · exact hold a ha
      · exact nofun
  | decided c target resolution _ hc _ _ =>
      obtain ⟨b, hb, rfl⟩ := Approval.Queue.mem_resolveWhere.1 ha
      split
      · rintro rfl
        cases c <;> cases hc
      · exact hold b hb

theorem Unexpired.act (h : Unexpired st) (horderly : s.Orderly st)
    (action : SessionAction) : Unexpired (s.act st action) := by
  rcases act_cases s st action with hst | ⟨_, _, t, _, ht, hst⟩ | ⟨_, hst⟩
  · rw [hst]
    exact h
  · rw [hst]
    exact h.take horderly.matching ht
  · rw [hst]
    exact nofun

theorem Unexpired.run (h : Unexpired st) (horderly : s.Orderly st)
    (actions : List SessionAction) : Unexpired (s.run st actions) := by
  induction actions generalizing st with
  | nil => exact h
  | cons action rest ih =>
      exact ih (h.act horderly action) (horderly.act action)

end SessionSetup

namespace Session

/-- In a run of a session that is still open, a report on a call that the gate
leaves to approvals is answered, and the resolution in it tells what the gate
decides about the call at the same moment. -/
theorem status_agrees_with_gate
    {setup : SessionSetup} (hbuilt : setup.registry.Built)
    (snapshot : Json) (clock : Clock) (sink : ReceiptSink)
    (actions : List SessionAction)
    {operation : OperationId} {spec : OperationSpec}
    {sent members : Arguments} {v : Json}
    (hopened :
      ((start setup snapshot clock sink).run actions).state.closed = false)
    (hspec : setup.registry.get? operation = some spec)
    (hroute : spec.route = .adapter)
    (hleft : setup.config.policy.LeavesToApprovals operation spec.risk)
    (hservice : Json.member? "service" sent = some (.str operation.service))
    (hname : Json.member? "operation" sent = some (.str operation.name))
    (hv : Json.member? "args" sent = some v)
    (hmembers : Arguments.ofValue operation v = .ok members) :
    let last := ((start setup snapshot clock sink).run actions).state
    ∃ told called id text,
      setup.take ApprovalControl.status.id (.obj sent) last = .ok told ∧
      setup.take operation v last = .ok called ∧
      told.executed.response.status = .ok ∧
      told.executed.response.data =
        SessionSetup.approvalData id operation text ∧
      told.state.approvals = last.approvals ∧
      Approval.Tells text called.executed.decision := by
  intro last
  have horderly : setup.Orderly last :=
    orderly_run_start setup snapshot clock sink actions
  have hunexpired : SessionSetup.Unexpired last := by
    have hlast : last = setup.run (.start setup.config snapshot clock)
        actions :=
      (run_eq (start setup snapshot clock sink) actions).2
    rw [hlast]
    exact (setup.unexpired_start snapshot clock).run
      (setup.orderly_start snapshot clock) actions
  have hid : spec.id = operation := (hbuilt.fits hspec).id_eq
  have htarget : setup.controlTarget sent =
      .ok (setup.config.policy.targetFor operation
        (callDigest operation members)) := by
    apply SessionSetup.controlTarget_eq_targetFor _ hv hmembers
    apply SessionSetup.Approvable.controlOperation _ hservice hname
    exact ⟨spec, hspec, hroute⟩
  obtain ⟨told, htold⟩ : ∃ told,
      setup.take ApprovalControl.status.id (.obj sent) last = .ok told :=
    SessionSetup.exists_take hopened (hbuilt.get?_control .status) rfl
  obtain ⟨called, hcalled⟩ : ∃ called,
      setup.take operation v last = .ok called :=
    SessionSetup.exists_take hopened hspec (hid ▸ hmembers)
  obtain ⟨hok, hdata, hsame⟩ :=
    SessionSetup.take_status_eq hbuilt htold htarget
  have hdecision : called.executed.decision =
      last.approvals.standing operation (callDigest operation members) := by
    rw [SessionSetup.take_decision_eq hcalled hspec hroute (hid ▸ hmembers),
      hid, hleft.decide_eq_standing]
  refine ⟨told, called, _, _, htold, hcalled, hok, hdata, hsame, ?_⟩
  rw [hdecision]
  exact horderly.kept.reported_tells horderly.matching.symm
    (hunexpired hopened)

/-- All mail is asked for and approved, and digests count: the report on the
mail to `a` says so, and the gate lets it through. -/
theorem mail_reported_approved :
    let setup := mailSetup { matching := .call }
    let mail := Json.obj (mailTo "a")
    let actions : List SessionAction :=
      [.call ApprovalControl.request.id (decisionArgs mailSend none),
        .call ApprovalControl.approve.id (decisionArgs mailSend none)]
    let last := ((start setup .null (.logical 0) .none).run actions).state
    ∃ told called id,
      setup.take ApprovalControl.status.id
        (decisionArgs mailSend (some mail)) last = .ok told ∧
      setup.take mailSend mail last = .ok called ∧
      told.executed.response.data =
        SessionSetup.approvalData id mailSend "approved" ∧
      called.executed.decision = .allow .approvalGranted := by
  intro setup mail actions last
  have hspec : setup.registry.get? mailSend =
      some (.viaAdapter mailSend .writeRisky) := by decide
  have hleft : setup.config.policy.LeavesToApprovals mailSend .writeRisky :=
    ⟨rfl, by decide, by decide, Or.inl rfl, rfl⟩
  let sent : Arguments := [("args", mail), ("operation", .str "send"),
    ("service", .str "mail")]
  have hargs : Json.member? "args" sent = some mail := rfl
  have hmembers : Arguments.ofValue mailSend mail = .ok (mailTo "a") := rfl
  obtain ⟨told, called, id, text, htold, hcalled, -, hdata, -, htells⟩ :=
    status_agrees_with_gate mailRegistry_built .null (.logical 0) .none
      actions rfl hspec rfl hleft rfl rfl hargs hmembers
  have hdecision : called.executed.decision = .allow .approvalGranted := by
    rw [SessionSetup.take_decision_eq hcalled hspec rfl hmembers]
    rfl
  rw [htells.approved_iff.2 hdecision] at hdata
  exact ⟨told, called, id, htold, hcalled, hdata, hdecision⟩

end Session

end CallGate
