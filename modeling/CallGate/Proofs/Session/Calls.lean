import CallGate.Proofs.Approval.Change
import CallGate.Proofs.Policy.Gate
import CallGate.Session.State

/-!
# What one call does

Everything that a call can do to a session is said here once: when it is taken
up, which of the four ends a gated call has, and in which three ways it can
leave the queue of approvals.  Facts about runs are derived from these and do
not look into the definitions again.
-/

namespace CallGate

theorem Response.ofOutcome_not_pending (sequence : Nat)
    (fingerprint : String) (outcome : Outcome) :
    (Response.ofOutcome sequence fingerprint outcome).status ≠ .pending := by
  cases outcome <;> exact nofun

/-- How a control resolves what waits, when it does. -/
def ApprovalControl.resolution? : ApprovalControl → Option Approval.Resolution
  | .approve => some .approved
  | .deny => some .denied
  | .request | .status | .list => none

theorem ApprovalControl.isDecision_of_resolution?
    {c : ApprovalControl} {resolution : Approval.Resolution}
    (hc : c.resolution? = some resolution) :
    resolution.isDecision = true := by
  cases c <;> cases hc <;> rfl

/-- Setups that differ at most in their name and in what serves calls. -/
structure SessionSetup.SameGate (s other : SessionSetup) : Prop where
  seed : other.config.seed = s.config.seed
  policy : other.config.policy = s.config.policy
  registry : other.registry = s.registry

/-- What a call may do to the queue of approvals. -/
inductive SessionSetup.QueueEffect (s : SessionSetup) (r : Request)
    (route : Route) (e : Executed) (q : Approval.Queue) :
    Approval.Queue → Prop where
  | kept : QueueEffect s r route e q q
  /-- An approval was asked for, and no decision about its target was waited
  for. -/
  | asked (target : Approval.Target) (hopen : q.openFor? target = none) :
      QueueEffect s r route e q
        (q.enqueue target r.fingerprint r.sequence)
  /-- What waited for a decision was decided by a control. -/
  | decided (c : ApprovalControl) (target : Approval.Target)
      (resolution : Approval.Resolution)
      (hroute : route = .control c) (hc : c.resolution? = some resolution)
      (htarget : s.controlTarget r.args = .ok target)
      (hok : e.response.status = .ok) :
      QueueEffect s r route e q
        (q.resolveWhere (q.isOpenFor target) resolution r.sequence)

namespace SessionSetup

variable {s other : SessionSetup} {st st' : SessionState}
  {operation : OperationId} {args : Json} {r : Request} {route : Route}
  {t : Taken} {c : ApprovalControl} {target : Approval.Target}
  {a : Approval}

/-! ## Taking up a call -/

/-- A call is taken up under the next number when the session is open, the
operation is known and the arguments can be read. -/
theorem requestFor_eq_ok
    (h : s.requestFor operation args st = .ok (r, route)) :
    st.closed = false ∧ ∃ spec members,
      s.registry.get? operation = some spec ∧
      Arguments.ofValue spec.id args = .ok members ∧
      r = .make s.config.seed (st.sequence + 1) spec.id spec.risk members ∧
      route = spec.route := by
  rw [requestFor] at h
  split at h
  · cases h
  · rename_i hopen
    split at h
    · cases h
    · rename_i spec hspec
      rw [Request.build] at h
      cases hmembers : Arguments.ofValue spec.id args with
      | error e =>
          rw [hmembers] at h
          cases h
      | ok members =>
          rw [hmembers] at h
          cases h
          exact ⟨by simpa using hopen, spec, members, hspec, hmembers,
            rfl, rfl⟩

/-- Whether a call is taken up, and as which request, does not depend on the
state beyond its number and whether the session is open. -/
theorem requestFor_congr (hsame : s.SameGate other)
    (hclosed : st.closed = false) (hclosed' : st'.closed = false)
    (hsequence : st'.sequence = st.sequence) :
    other.requestFor operation args st' = s.requestFor operation args st := by
  rw [requestFor, requestFor, hclosed, hclosed', hsequence, hsame.seed,
    hsame.registry]
  rfl

/-! ## The four ends of a gated call -/

theorem executeGated_of_denied
    (h : (s.config.policy.peek r st.approvals).action = .deny) :
    s.executeGated r st =
      ⟨⟨s.config.policy.peek r st.approvals,
          .refused r.sequence r.fingerprint .policyDenied
            (r.operation.display ++ " denied by policy: " ++
              (s.config.policy.peek r st.approvals).reason.label), none⟩,
        st, []⟩ := by
  rw [executeGated, Policy.evaluate_of_settled (by rw [h]; decide)]
  simp only [h]

theorem executeGated_of_waiting
    (h : (s.config.policy.peek r st.approvals).action = .requireApproval)
    (hwaiting : st.approvals.unresolvedFor? r.operation r.digest = some a) :
    s.executeGated r st =
      ⟨⟨s.config.policy.peek r st.approvals,
          .pending r.sequence r.fingerprint
            (approvalData (some a.id) r.operation
              Approval.Resolution.unresolved.label), none⟩,
        st, []⟩ := by
  rw [executeGated, Policy.evaluate_of_waiting h hwaiting]
  simp only [h]

theorem executeGated_of_asking
    (h : (s.config.policy.peek r st.approvals).action = .requireApproval)
    (hnone : st.approvals.unresolvedFor? r.operation r.digest = none) :
    s.executeGated r st =
      ⟨⟨s.config.policy.peek r st.approvals,
          .pending r.sequence r.fingerprint
            (approvalData (some st.approvals.nextId) r.operation
              Approval.Resolution.unresolved.label), none⟩,
        { st with
          approvals := st.approvals.enqueue
            (s.config.policy.targetFor r.operation r.digest)
            r.fingerprint r.sequence },
        [s.approvalEvent st.approvals.nextId r.operation .unresolved
          st.sequence]⟩ := by
  rw [executeGated, Policy.evaluate_of_asking h hnone]
  simp only [h]

theorem executeGated_of_allowed
    (h : (s.config.policy.peek r st.approvals).action = .allow) :
    s.executeGated r st =
      ⟨⟨s.config.policy.peek r st.approvals,
          .ofOutcome r.sequence r.fingerprint (s.serve r st).1,
          some (s.adapters.modeOf r)⟩,
        (s.serve r st).2, []⟩ := by
  rw [executeGated, Policy.evaluate_of_settled (by rw [h]; decide)]
  simp only [h]

/-- A gated call gets the decision that the gate would give without it. -/
theorem executeGated_decision (s : SessionSetup) (r : Request)
    (st : SessionState) :
    (s.executeGated r st).executed.decision =
      s.config.policy.peek r st.approvals := by
  cases haction : (s.config.policy.peek r st.approvals).action with
  | allow => rw [executeGated_of_allowed haction]
  | deny => rw [executeGated_of_denied haction]
  | requireApproval =>
      cases hwaiting : st.approvals.unresolvedFor? r.operation r.digest with
      | some a => rw [executeGated_of_waiting haction hwaiting]
      | none => rw [executeGated_of_asking haction hwaiting]

/-! ## Calls on the queue -/

/-- The operation of a target is the one that the arguments name. -/
theorem controlOperation_of_controlTarget {members : Arguments}
    (h : s.controlTarget members = .ok target) :
    s.controlOperation members = .ok target.operation := by
  rw [controlTarget] at h
  cases hoperation : s.controlOperation members with
  | error e =>
      rw [hoperation] at h
      cases h
  | ok operation =>
      rw [hoperation] at h
      dsimp only at h
      split at h
      · cases h
        rfl
      · split at h
        · cases h
        · cases h
          rfl

/-- The operation that arguments name is written in them and goes to an
adapter. -/
theorem controlOperation_eq_ok {members : Arguments}
    (h : s.controlOperation members = .ok operation) :
    (Json.member? "service" members).bind Json.text? =
        some operation.service ∧
      (Json.member? "operation" members).bind Json.text? =
        some operation.name ∧
      ∃ spec, s.registry.get? operation = some spec ∧
        spec.route = .adapter := by
  rw [controlOperation] at h
  split at h
  · cases h
  · rename_i service hservice
    split at h
    · cases h
    · rename_i name hname
      dsimp only at h
      split at h
      · rename_i hspec
        cases h
        exact ⟨hservice, hname, _, hspec, rfl⟩
      · cases h

/-- A control leaves all but the queue as it is. -/
theorem executeControl_state (s : SessionSetup) (r : Request)
    (c : ApprovalControl) (st : SessionState) :
    (s.executeControl r c st).executed.mode = none ∧
      (s.executeControl r c st).state =
        { st with
          approvals := (s.executeControl r c st).state.approvals } := by
  rw [executeControl]
  split
  · exact ⟨rfl, rfl⟩
  · split
    · exact ⟨rfl, rfl⟩
    · cases c with
      | list => exact ⟨rfl, rfl⟩
      | request =>
          dsimp only
          rw [controlRequest]
          dsimp only
          split <;> exact ⟨rfl, rfl⟩
      | status => exact ⟨rfl, rfl⟩
      | approve =>
          dsimp only
          rw [controlDecide]
          split <;> exact ⟨rfl, rfl⟩
      | deny =>
          dsimp only
          rw [controlDecide]
          split <;> exact ⟨rfl, rfl⟩

/-- A control never waits for an approval. -/
theorem executeControl_not_pending (s : SessionSetup) (r : Request)
    (c : ApprovalControl) (st : SessionState) :
    (s.executeControl r c st).executed.response.status ≠ .pending := by
  rw [executeControl]
  split
  · exact nofun
  · split
    · exact nofun
    · cases c with
      | list => exact nofun
      | request =>
          dsimp only
          rw [controlRequest]
          dsimp only
          split <;> exact nofun
      | status => exact nofun
      | approve =>
          dsimp only
          rw [controlDecide]
          split <;> exact nofun
      | deny =>
          dsimp only
          rw [controlDecide]
          split <;> exact nofun

/-- A decision that was taken resolves what waited for it, and one that was
not leaves the queue as it is. -/
theorem controlDecide_effect {resolution : Approval.Resolution}
    (hc : c.resolution? = some resolution)
    (htarget : s.controlTarget r.args = .ok target) :
    s.QueueEffect r (.control c)
      (s.controlDecide r target resolution st).executed st.approvals
      (s.controlDecide r target resolution st).state.approvals := by
  rw [controlDecide]
  split
  · exact .kept
  · rename_i decided queue hdecided
    obtain ⟨-, -, rfl⟩ := Approval.Queue.decide_eq_ok hdecided
    exact .decided c target resolution rfl hc htarget rfl

theorem executeControl_effect (s : SessionSetup) (r : Request)
    (c : ApprovalControl) (st : SessionState) :
    s.QueueEffect r (.control c) (s.executeControl r c st).executed
      st.approvals (s.executeControl r c st).state.approvals := by
  rw [executeControl]
  split
  · exact .kept
  · split
    · exact .kept
    · rename_i target htarget
      cases c with
      | list => exact .kept
      | request =>
          dsimp only
          rw [controlRequest]
          dsimp only
          split
          · exact .kept
          · rename_i hopen
            exact .asked target hopen
      | status => exact .kept
      | approve => exact controlDecide_effect rfl htarget
      | deny => exact controlDecide_effect rfl htarget

theorem controlTarget_congr (hsame : s.SameGate other)
    (members : Arguments) :
    other.controlTarget members = s.controlTarget members := by
  rw [controlTarget, controlTarget, controlOperation, controlOperation,
    hsame.registry, hsame.policy]

theorem controlRequest_congr (happrovals : st'.approvals = st.approvals) :
    (other.controlRequest r target st').executed =
        (s.controlRequest r target st).executed ∧
      (other.controlRequest r target st').state.approvals =
        (s.controlRequest r target st).state.approvals := by
  rw [controlRequest, controlRequest, happrovals]
  dsimp only
  split
  · exact ⟨rfl, happrovals⟩
  · exact ⟨rfl, rfl⟩

theorem controlDecide_congr (happrovals : st'.approvals = st.approvals)
    (resolution : Approval.Resolution) :
    (other.controlDecide r target resolution st').executed =
        (s.controlDecide r target resolution st).executed ∧
      (other.controlDecide r target resolution st').state.approvals =
        (s.controlDecide r target resolution st).state.approvals := by
  rw [controlDecide, controlDecide, happrovals]
  split
  · exact ⟨rfl, happrovals⟩
  · exact ⟨rfl, rfl⟩

/-- What a control does depends on the queue, the policy and the registry
alone. -/
theorem executeControl_congr (hsame : s.SameGate other)
    (happrovals : st'.approvals = st.approvals) (r : Request)
    (c : ApprovalControl) :
    (other.executeControl r c st').executed =
        (s.executeControl r c st).executed ∧
      (other.executeControl r c st').state.approvals =
        (s.executeControl r c st).state.approvals := by
  have hlist : controlList r st' = controlList r st := by
    rw [controlList, controlList, happrovals]
  rw [executeControl, executeControl, controlTarget_congr hsame, hlist]
  split
  · exact ⟨rfl, happrovals⟩
  · split
    · exact ⟨rfl, happrovals⟩
    · rename_i target _
      cases c with
      | list => exact ⟨rfl, happrovals⟩
      | request => exact controlRequest_congr happrovals
      | status =>
          dsimp only
          rw [controlStatus, controlStatus, happrovals]
          exact ⟨rfl, rfl⟩
      | approve => exact controlDecide_congr happrovals .approved
      | deny => exact controlDecide_congr happrovals .denied

/-! ## Carrying out a call -/

/-- Serving a call leaves all but the world and what is recorded as it is. -/
theorem serve_state (s : SessionSetup) (r : Request) (st : SessionState) :
    (s.serve r st).2 =
      { st with
        world := (s.serve r st).2.world
        fixtures := (s.serve r st).2.fixtures } := by
  rw [serve]
  dsimp only
  split <;> rfl

/-- What comes of a call that is served is what the adapter makes of it. -/
theorem serve_eq_execute (s : SessionSetup) (r : Request)
    (st : SessionState) :
    (s.serve r st).1 = (s.adapters.execute s.config.seed r st.world).1 ∧
      (s.serve r st).2.world =
        (s.adapters.execute s.config.seed r st.world).2 := by
  rw [serve]
  dsimp only
  split <;> exact ⟨rfl, rfl⟩

/-- A gated call is let through and served, or it reaches no adapter and
leaves all but the queue as it is. -/
theorem executeGated_cases (s : SessionSetup) (r : Request)
    (st : SessionState) :
    (s.config.policy.peek r st.approvals).action = .allow ∨
      ((s.executeGated r st).executed.mode = none ∧
        (s.executeGated r st).state =
          { st with
            approvals := (s.executeGated r st).state.approvals }) := by
  cases haction : (s.config.policy.peek r st.approvals).action with
  | allow => exact Or.inl rfl
  | deny =>
      rw [executeGated_of_denied haction]
      exact Or.inr ⟨rfl, rfl⟩
  | requireApproval =>
      refine Or.inr ?_
      cases hwaiting : st.approvals.unresolvedFor? r.operation r.digest with
      | some a =>
          rw [executeGated_of_waiting haction hwaiting]
          exact ⟨rfl, rfl⟩
      | none =>
          rw [executeGated_of_asking haction hwaiting]
          exact ⟨rfl, rfl⟩

/-- A call that reaches an adapter was gated and let through. -/
theorem execute_of_served
    (hmode : (s.execute r route st).executed.mode.isSome) :
    route = .adapter ∧
      (s.config.policy.peek r st.approvals).action = .allow := by
  cases route with
  | control c =>
      rw [execute, (executeControl_state s r c st).1] at hmode
      cases hmode
  | adapter =>
      rcases executeGated_cases s r st with hallow | ⟨hnone, -⟩
      · exact ⟨rfl, hallow⟩
      · rw [execute, hnone] at hmode
        cases hmode

/-- A call that reaches no adapter leaves all but the queue as it is. -/
theorem execute_of_unserved
    (hmode : (s.execute r route st).executed.mode = none) :
    (s.execute r route st).state =
      { st with
        approvals := (s.execute r route st).state.approvals } := by
  cases route with
  | control c => exact (executeControl_state s r c st).2
  | adapter =>
      rcases executeGated_cases s r st with hallow | ⟨-, hstate⟩
      · rw [execute, executeGated_of_allowed hallow] at hmode
        cases hmode
      · exact hstate

/-- No call changes its own number, the log, the clock or whether the session
is open. -/
theorem execute_frame (s : SessionSetup) (r : Request) (route : Route)
    (st : SessionState) :
    (s.execute r route st).state.sequence = st.sequence ∧
      (s.execute r route st).state.receipts = st.receipts ∧
      (s.execute r route st).state.clock = st.clock ∧
      (s.execute r route st).state.closed = st.closed := by
  cases hmode : (s.execute r route st).executed.mode with
  | none =>
      rw [execute_of_unserved hmode]
      exact ⟨rfl, rfl, rfl, rfl⟩
  | some mode =>
      obtain ⟨rfl, hallow⟩ := execute_of_served (by rw [hmode]; rfl)
      rw [execute, executeGated_of_allowed hallow, serve_state]
      exact ⟨rfl, rfl, rfl, rfl⟩

/-- The ways in which a call leaves the queue. -/
theorem execute_effect (r : Request) (route : Route)
    (hmatching : st.approvals.matching = s.config.policy.matching) :
    s.QueueEffect r route (s.execute r route st).executed st.approvals
      (s.execute r route st).state.approvals := by
  cases route with
  | control c => exact executeControl_effect s r c st
  | adapter =>
      rw [execute]
      cases haction : (s.config.policy.peek r st.approvals).action with
      | allow =>
          rw [executeGated_of_allowed haction, serve_state]
          exact .kept
      | deny =>
          rw [executeGated_of_denied haction]
          exact .kept
      | requireApproval =>
          cases hwaiting :
              st.approvals.unresolvedFor? r.operation r.digest with
          | some a =>
              rw [executeGated_of_waiting haction hwaiting]
              exact .kept
          | none =>
              rw [executeGated_of_asking haction hwaiting]
              refine .asked _ (Approval.Queue.openFor?_targetFor ?_ hwaiting)
              exact hmatching.symm

/-- A call that reaches no adapter has the same end and the same effect on the
queue whatever serves calls. -/
theorem execute_congr (hsame : s.SameGate other)
    (happrovals : st'.approvals = st.approvals)
    (hmode : (s.execute r route st).executed.mode = none) :
    (other.execute r route st').executed =
        (s.execute r route st).executed ∧
      (other.execute r route st').state.approvals =
        (s.execute r route st).state.approvals := by
  cases route with
  | control c => exact executeControl_congr hsame happrovals r c
  | adapter =>
      have hpeek : other.config.policy.peek r st'.approvals =
          s.config.policy.peek r st.approvals := by
        rw [hsame.policy, happrovals]
      rw [execute, execute]
      cases haction : (s.config.policy.peek r st.approvals).action with
      | allow =>
          rw [execute, executeGated_of_allowed haction] at hmode
          cases hmode
      | deny =>
          rw [executeGated_of_denied haction,
            executeGated_of_denied (hpeek ▸ haction), hpeek]
          exact ⟨rfl, happrovals⟩
      | requireApproval =>
          cases hwaiting :
              st.approvals.unresolvedFor? r.operation r.digest with
          | some a =>
              rw [executeGated_of_waiting haction hwaiting,
                executeGated_of_waiting (hpeek ▸ haction)
                  (happrovals ▸ hwaiting), hpeek]
              exact ⟨rfl, happrovals⟩
          | none =>
              rw [executeGated_of_asking haction hwaiting,
                executeGated_of_asking (hpeek ▸ haction)
                  (happrovals ▸ hwaiting), hpeek, happrovals, hsame.policy]
              exact ⟨rfl, rfl⟩

/-! ## What taking up a call does -/

/-- What is known of a call that was taken up: it became a request of a
registered operation, the request was carried out, and the log got its
receipt. -/
structure TakesUp (s : SessionSetup) (operation : OperationId) (args : Json)
    (st : SessionState) (t : Taken) (spec : OperationSpec)
    (members : Arguments) (e : Execution) : Prop where
  opened : st.closed = false
  spec_eq : s.registry.get? operation = some spec
  members_eq : Arguments.ofValue spec.id args = .ok members
  request_eq : t.request =
    .make s.config.seed (st.sequence + 1) spec.id spec.risk members
  execution_eq : e = s.execute t.request spec.route
    { st with sequence := st.sequence + 1 }
  executed_eq : t.executed = e.executed
  receipt_eq : t.receipt = receiptOf t.request t.executed st.clock.read.1
  state_eq : t.state =
    { e.state with
      receipts := st.receipts ++ [t.receipt]
      clock := st.clock.read.2 }

theorem take_eq_ok (h : s.take operation args st = .ok t) :
    ∃ spec members e, s.TakesUp operation args st t spec members e := by
  rw [take] at h
  cases hrequest : s.requestFor operation args st with
  | error e =>
      rw [hrequest] at h
      cases h
  | ok found =>
      obtain ⟨r, route⟩ := found
      obtain ⟨hopened, spec, members, hspec, hmembers, hr, hroute⟩ :=
        requestFor_eq_ok hrequest
      obtain ⟨-, hreceipts, hclock, -⟩ :=
        execute_frame s r route { st with sequence := r.sequence }
      rw [hrequest] at h
      cases h
      subst hr hroute
      refine ⟨spec, members, _, hopened, hspec, hmembers, rfl, rfl, rfl,
        ?_, ?_⟩
      · dsimp only
        rw [hclock]
      · dsimp only
        rw [hclock, hreceipts]
        rfl

namespace TakesUp

variable {spec : OperationSpec} {members : Arguments} {e : Execution}

theorem state_sequence (h : s.TakesUp operation args st t spec members e) :
    t.state.sequence = st.sequence + 1 := by
  rw [h.state_eq, h.execution_eq]
  exact (execute_frame s t.request spec.route _).1

theorem state_closed (h : s.TakesUp operation args st t spec members e) :
    t.state.closed = false := by
  rw [h.state_eq, h.execution_eq]
  exact (execute_frame s t.request spec.route _).2.2.2.trans h.opened

theorem request_sequence (h : s.TakesUp operation args st t spec members e) :
    t.request.sequence = st.sequence + 1 := by
  rw [h.request_eq, Request.make]

theorem request_operation
    (h : s.TakesUp operation args st t spec members e) :
    t.request.operation = spec.id := by
  rw [h.request_eq, Request.make]

theorem request_risk (h : s.TakesUp operation args st t spec members e) :
    t.request.risk = spec.risk := by
  rw [h.request_eq, Request.make]

theorem request_digest (h : s.TakesUp operation args st t spec members e) :
    t.request.digest = callDigest spec.id members := by
  rw [h.request_eq, Request.make]

theorem request_args (h : s.TakesUp operation args st t spec members e) :
    t.request.args = members := by
  rw [h.request_eq, Request.make]

theorem state_approvals (h : s.TakesUp operation args st t spec members e) :
    t.state.approvals = (s.execute t.request spec.route
      { st with sequence := st.sequence + 1 }).state.approvals := by
  rw [h.state_eq, h.execution_eq]

/-- The effect on the queue of a call that was taken up. -/
theorem effect (h : s.TakesUp operation args st t spec members e)
    (hmatching : st.approvals.matching = s.config.policy.matching) :
    s.QueueEffect t.request spec.route t.executed st.approvals
      t.state.approvals := by
  rw [h.state_approvals, h.executed_eq, h.execution_eq]
  exact execute_effect t.request spec.route hmatching

/-- A call that has to wait was gated.  It waits for the oldest approval of it
that waits already, or else for a new one. -/
theorem of_pending (h : s.TakesUp operation args st t spec members e)
    (hpending : t.executed.response.status = .pending) :
    spec.route = .adapter ∧
      ((∃ a, st.approvals.unresolvedFor? spec.id
            (callDigest spec.id members) = some a ∧
          t.executed.response.data = approvalData (some a.id) spec.id
            Approval.Resolution.unresolved.label) ∨
        (st.approvals.unresolvedFor? spec.id
            (callDigest spec.id members) = none ∧
          t.executed.response.data =
            approvalData (some st.approvals.nextId) spec.id
              Approval.Resolution.unresolved.label ∧
          t.state.approvals = st.approvals.enqueue
            (s.config.policy.targetFor spec.id (callDigest spec.id members))
            t.request.fingerprint t.request.sequence)) := by
  rw [← h.request_digest, ← h.request_operation, h.state_approvals]
  rw [h.executed_eq, h.execution_eq] at hpending ⊢
  cases hroute : spec.route with
  | control c =>
      rw [hroute] at hpending
      exact absurd hpending (executeControl_not_pending s t.request c _)
  | adapter =>
      rw [hroute] at hpending
      refine ⟨rfl, ?_⟩
      rw [execute] at hpending ⊢
      cases haction :
          (s.config.policy.peek t.request st.approvals).action with
      | deny =>
          rw [executeGated_of_denied (by exact haction)] at hpending
          cases hpending
      | allow =>
          rw [executeGated_of_allowed (by exact haction)] at hpending
          exact absurd hpending (Response.ofOutcome_not_pending _ _ _)
      | requireApproval =>
          cases hwaiting : st.approvals.unresolvedFor? t.request.operation
              t.request.digest with
          | some a =>
              rw [executeGated_of_waiting (by exact haction)
                (by exact hwaiting)]
              exact Or.inl ⟨a, rfl, rfl⟩
          | none =>
              rw [executeGated_of_asking (by exact haction)
                (by exact hwaiting)]
              exact Or.inr ⟨rfl, rfl, rfl⟩

/-- A session with the same gate at the same number takes up the call as the
same request. -/
theorem exists_other (h : s.TakesUp operation args st t spec members e)
    (hsame : s.SameGate other) (hopened : st'.closed = false)
    (hsequence : st'.sequence = st.sequence) :
    ∃ t' e', other.take operation args st' = .ok t' ∧
      other.TakesUp operation args st' t' spec members e' ∧
      t'.request = t.request := by
  have hrequest :
      other.requestFor operation args st' = .ok (t.request, spec.route) := by
    rw [requestFor, hopened, hsame.registry, h.spec_eq]
    dsimp only
    rw [hsame.seed, hsequence, Request.build, h.members_eq, h.request_eq]
    rfl
  obtain ⟨t', ht'⟩ : ∃ t', other.take operation args st' = .ok t' := by
    rw [take, hrequest]
    exact ⟨_, rfl⟩
  obtain ⟨spec', members', e', h'⟩ := take_eq_ok ht'
  have hspec : spec' = spec := by
    have := h'.spec_eq
    rw [hsame.registry, h.spec_eq] at this
    exact (Option.some.inj this).symm
  subst hspec
  have hmembers : members' = members := by
    have := h'.members_eq
    rw [h.members_eq] at this
    exact (Except.ok.inj this).symm
  subst hmembers
  refine ⟨t', e', ht', h', ?_⟩
  rw [h'.request_eq, h.request_eq, hsame.seed, hsequence]

/-- A call that reached no adapter left the world and what is recorded as they
were, and it would have had the same end whatever serves calls. -/
theorem of_unserved (h : s.TakesUp operation args st t spec members e)
    (hmode : t.executed.mode = none) :
    t.state.world = st.world ∧ t.state.fixtures = st.fixtures ∧
      ∀ other, s.SameGate other → ∃ t',
        other.take operation args st = .ok t' ∧ t'.request = t.request ∧
          t'.executed = t.executed ∧ t'.state = t.state := by
  have hunserved : (s.execute t.request spec.route
      { st with sequence := st.sequence + 1 }).executed.mode = none := by
    rw [← h.execution_eq, ← h.executed_eq, hmode]
  have hstate := execute_of_unserved hunserved
  rw [← h.execution_eq] at hstate
  refine ⟨by rw [h.state_eq, hstate], by rw [h.state_eq, hstate], ?_⟩
  intro other hsame
  obtain ⟨t', e', ht', h', hrequest⟩ :=
    h.exists_other hsame h.opened rfl
  let numbered : SessionState := { st with sequence := st.sequence + 1 }
  obtain ⟨hexecuted, happrovals⟩ :=
    execute_congr hsame (Eq.refl numbered.approvals) hunserved
  rw [← hrequest, ← h'.execution_eq, hrequest, ← h.execution_eq]
    at hexecuted happrovals
  have hunserved' : (other.execute t'.request spec.route
      { st with sequence := st.sequence + 1 }).executed.mode = none := by
    rw [← h'.execution_eq, hexecuted, ← h.executed_eq, hmode]
  have hstate' := execute_of_unserved hunserved'
  rw [← h'.execution_eq] at hstate'
  have hexecuted' : t'.executed = t.executed := by
    rw [h'.executed_eq, h.executed_eq, hexecuted]
  have hreceipt : t'.receipt = t.receipt := by
    rw [h'.receipt_eq, h.receipt_eq, hrequest, hexecuted']
  refine ⟨t', ht', hrequest, hexecuted', ?_⟩
  rw [h'.state_eq, h.state_eq, hstate', hstate, happrovals, hreceipt]

end TakesUp

end SessionSetup

end CallGate
