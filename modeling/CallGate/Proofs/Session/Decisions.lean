import CallGate.Proofs.Session.Asking
import CallGate.Proofs.Session.Closing
import CallGate.Proofs.Session.Scope

/-!
# Decisions that go through

A denial of what a call would wait for cannot be refused: the approval is
there and waits, and its operation is one that approvals may be for, because
an approval for any other operation is never asked for.  What was resolved is
not touched by any action, and closing a session leaves nothing unresolved.
-/

namespace CallGate

namespace SessionSetup

variable {s : SessionSetup} {st : SessionState} {operation : OperationId}
  {args : Json} {t : Taken} {a : Approval} {id : String}

/-- Approvals may be for the operation. -/
def Approvable (s : SessionSetup) (operation : OperationId) : Prop :=
  ∃ spec, s.registry.get? operation = some spec ∧ spec.route = .adapter

theorem Approvable.controlOperation {members : Arguments}
    (h : s.Approvable operation)
    (hservice : Json.member? "service" members = some (.str operation.service))
    (hname : Json.member? "operation" members = some (.str operation.name)) :
    s.controlOperation members = .ok operation := by
  obtain ⟨⟨id, risk, route⟩, hspec, hroute⟩ := h
  dsimp only at hroute
  subst hroute
  rw [SessionSetup.controlOperation, hservice, hname]
  dsimp only [Option.bind_some, Json.text?]
  rw [hspec]

/-- What a call asks an approval for is an operation that approvals may be
for. -/
theorem TakesUp.approvable {spec : OperationSpec} {members : Arguments}
    {e : Execution} {target : Approval.Target} (hbuilt : s.registry.Built)
    (h : s.TakesUp operation args st t spec members e)
    (hasks : s.Asks t.request st.approvals spec.route target) :
    s.Approvable target.operation := by
  generalize hroute : spec.route = route at hasks
  cases hasks with
  | gated =>
      refine ⟨spec, ?_, hroute⟩
      rw [Policy.targetFor, h.request_operation, (hbuilt.fits h.spec_eq).id_eq]
      exact h.spec_eq
  | requested htarget =>
      exact (controlOperation_eq_ok
        (controlOperation_of_controlTarget htarget)).2.2

/-! ## What is known of the queue of a session -/

/-- The queue is in order, all that is in it is for operations that approvals
may be for, and nothing in it waits once the session is closed. -/
structure Accounted (s : SessionSetup) (st : SessionState) : Prop where
  orderly : s.Orderly st
  approvable : ∀ a ∈ st.approvals.entries, s.Approvable a.target.operation
  settled : st.closed = true →
    ∀ a ∈ st.approvals.entries, a.resolution ≠ .unresolved

theorem accounted_start (s : SessionSetup) (snapshot : Json)
    (clock : Clock) : s.Accounted (.start s.config snapshot clock) where
  orderly := s.orderly_start snapshot clock
  approvable a ha := by cases ha
  settled _ a ha := by cases ha

theorem Accounted.take (h : s.Accounted st) (hbuilt : s.registry.Built)
    (ht : s.take operation args st = .ok t) : s.Accounted t.state := by
  obtain ⟨spec, members, e, htakes⟩ := take_eq_ok ht
  refine ⟨h.orderly.take ht, fun a ha => ?_, Settled.take ht⟩
  have heffect := htakes.effect h.orderly.matching
  generalize hq : t.state.approvals = q at ha heffect
  cases heffect with
  | kept => exact h.approvable a ha
  | asked target hopen =>
      rcases Approval.Queue.mem_enqueue.1 ha with hold | rfl
      · exact h.approvable a hold
      · exact htakes.approvable hbuilt (htakes.asks hq)
  | decided c target resolution =>
      obtain ⟨b, hb, rfl⟩ := Approval.Queue.mem_resolveWhere.1 ha
      rw [Approval.Queue.target_of_ite]
      exact h.approvable b hb

theorem Accounted.act (h : s.Accounted st) (hbuilt : s.registry.Built)
    (action : SessionAction) : s.Accounted (s.act st action) := by
  rcases act_cases s st action with hst | ⟨_, _, t, _, ht, hst⟩ | ⟨_, hst⟩
  · rw [hst]
    exact h
  · rw [hst]
    exact h.take hbuilt ht
  · refine ⟨h.orderly.act action, fun a ha => ?_, Settled.act h.settled action⟩
    rw [hst] at ha
    obtain ⟨b, hb, rfl⟩ := Approval.Queue.mem_resolveWhere.1 ha
    rw [Approval.Queue.target_of_ite]
    exact h.approvable b hb

theorem Accounted.run (h : s.Accounted st) (hbuilt : s.registry.Built)
    (actions : List SessionAction) : s.Accounted (s.run st actions) := by
  induction actions generalizing st with
  | nil => exact h
  | cons action rest ih => exact ih (h.act hbuilt action)

/-- Every action keeps what was resolved. -/
theorem Orderly.keeps_act (h : s.Orderly st) (action : SessionAction) :
    st.approvals.Keeps (s.act st action).approvals := by
  rcases act_cases s st action with hst | ⟨_, _, t, _, ht, hst⟩ | ⟨_, hst⟩
  · rw [hst]
    exact .refl _
  · rw [hst]
    obtain ⟨spec, members, e, htakes⟩ := take_eq_ok ht
    have heffect := htakes.effect h.matching
    generalize t.state.approvals = q at heffect ⊢
    cases heffect with
    | kept => exact .refl _
    | asked target => exact Approval.Queue.keeps_enqueue _ _ _ _
    | decided c target resolution =>
        refine Approval.Queue.keeps_resolveWhere fun a ha => ?_
        exact (Approval.Queue.isOpenFor_iff.1 ha).1
  · rw [hst]
    exact Approval.Queue.keeps_resolveWhere fun a ha => by simpa using ha

/-- An approval that nobody decided has expired when the session is closed. -/
theorem Accounted.expired_of_close (h : s.Accounted st)
    (hget : st.approvals.get? id = some a)
    (hundecided : a.resolution.isDecision = false) :
    ∃ b, (s.act st .close).approvals.get? id = some b ∧
      b.resolution = .expired := by
  have hexpired (hresolved : a.resolution ≠ .unresolved) :
      a.resolution = .expired :=
    Approval.Resolution.eq_expired_of_not_isDecision hundecided hresolved
  rw [SessionSetup.act, close]
  by_cases hclosed : st.closed = true
  · rw [if_pos hclosed]
    have hmem := (Approval.Queue.mem_of_get? hget).1
    exact ⟨a, hget, hexpired (h.settled hclosed a hmem)⟩
  · rw [if_neg hclosed]
    dsimp only [Approval.Queue.expireAll]
    rw [Approval.Queue.get?_resolveWhere, hget]
    refine ⟨_, rfl, ?_⟩
    by_cases hwaiting : a.resolution = .unresolved
    · simp [hwaiting, Approval.resolve]
    · simpa [hwaiting] using hexpired hwaiting

/-- A denial of a call that an approval in the queue is for is carried out on
all that waits for the call. -/
theorem Accounted.approvals_of_denial {members : Arguments}
    (h : s.Accounted st) (hbuilt : s.registry.Built)
    (hmembers : Arguments.ofValue operation args = .ok members)
    (ha : a ∈ st.approvals.covering operation (callDigest operation members))
    (ht : s.take ApprovalControl.deny.id
      (Session.decisionArgs operation (some args)) st = .ok t) :
    t.state.approvals = st.approvals.resolveWhere
      (st.approvals.isOpenFor (s.config.policy.targetFor operation
        (callDigest operation members))) .denied (st.sequence + 1) := by
  obtain ⟨hmem, hcovers⟩ := Approval.Queue.mem_covering.1 ha
  have happrovable : s.Approvable operation := by
    rw [← (Approval.Target.covers_iff.1 hcovers).1]
    exact h.approvable a hmem
  obtain ⟨spec, sent, e, htakes⟩ := take_eq_ok ht
  have hsent : t.request.args =
      [("args", args), ("operation", .str operation.name),
        ("service", .str operation.service)] := by
    rw [htakes.request_args]
    exact (Except.ok.inj htakes.members_eq).symm
  have hargs : Json.member? "args" t.request.args = some args := by
    rw [hsent]
    rfl
  have htarget : s.controlTarget t.request.args =
      .ok (s.config.policy.targetFor operation
        (callDigest operation members)) := by
    apply controlTarget_eq_targetFor _ hargs hmembers
    apply happrovable.controlOperation
    · rw [hsent]
      rfl
    · rw [hsent]
      rfl
  exact approvals_of_decision hbuilt ht rfl htarget

end SessionSetup

namespace Session

variable {s : Session} {operation : OperationId} {args : Json}
  {a : Approval} {d : Dispatch}

theorem IsReached.accounted (h : s.IsReached)
    (hbuilt : s.setup.registry.Built) : s.setup.Accounted s.state := by
  obtain ⟨snapshot, clock, actions, hstate⟩ := h
  rw [hstate]
  exact (s.setup.accounted_start snapshot clock).run hbuilt actions

/-- Denying what a call would wait for denies it, when the denial is
answered. -/
theorem get?_of_denial (hbuilt : s.setup.registry.Built)
    (h : s.setup.Accounted s.state)
    (hblocking : s.blocking operation args = .ok (some a))
    (hanswer : (s.resolve .deny operation (some args)).1 = .ok d) :
    ∃ b, (s.resolve .deny operation (some args)).2.state.approvals.get? a.id =
        some b ∧ b.resolution = .denied := by
  rw [blocking] at hblocking
  cases hmembers : Arguments.ofValue operation args with
  | error e =>
      rw [hmembers] at hblocking
      cases hblocking
  | ok members =>
      rw [hmembers] at hblocking
      have hwaiting := Except.ok.inj hblocking
      obtain ⟨hunresolved, hcovers⟩ : a.resolution = .unresolved ∧
          a.target.covers operation (callDigest operation members)
            s.state.approvals.matching = true := by
        simpa [Approval.awaits] using List.find?_some hwaiting
      have hmem := List.mem_of_find?_eq_some hwaiting
      have ha := Approval.Queue.mem_covering.2 ⟨hmem, hcovers⟩
      obtain ⟨t, ht, -, hstate⟩ := dispatch_eq_ok hanswer
      refine ⟨a.resolve .denied (s.state.sequence + 1), ?_, rfl⟩
      rw [resolve, hstate, h.approvals_of_denial hbuilt hmembers ha ht,
        Approval.Queue.get?_resolveWhere, h.orderly.kept.get?_of_mem hmem,
        Option.map_some,
        if_pos (Approval.Queue.isOpenFor_targetFor _ ha hunresolved)]

end Session

end CallGate
