import CallGate.Proofs.Approval.Newest
import CallGate.Proofs.Session.Runs

/-!
# Asking for approvals

An approval gets into the queue of a session in one of two ways: the gate asks
for one when a call needs it, or a caller asks for one by a control.  Either
way nothing that shares a call with it waits at that moment.  So the approvals
for a call follow one another through every run, and at most one of them waits.
-/

namespace CallGate

namespace Approval

/-- The approval as it was when it was asked for. -/
def asked (a : Approval) : Approval :=
  { a with resolution := .unresolved, resolvedAt := none }

/-- An approval was asked for and resolved before another one was asked for,
and so before the other one was resolved. -/
structure Precedes (a b : Approval) : Prop where
  askedFirst : a.requestedAt < b.requestedAt
  resolved : a.resolution ≠ .unresolved
  resolvedFirst : ∃ m, a.resolvedAt = some m ∧ m < b.requestedAt ∧
    ∀ n, b.resolvedAt = some n → m < n

namespace Queue

variable {q : Queue} {operation : OperationId} {digest : String}
  {target target' : Target} {fingerprint fingerprint' : String}
  {resolution : Resolution} {a : Approval} {m n : Nat}

/-- Resolving an approval keeps how it was asked for. -/
theorem asked_of_ite (a : Approval) (c : Prop) [Decidable c] :
    (if c then a.resolve resolution n else a).asked = a.asked := by
  split <;> rfl

theorem length_enqueue :
    (q.enqueue target fingerprint n).entries.length =
      q.entries.length + 1 := by
  rw [enqueue, List.length_append, List.length_singleton]

theorem length_resolveWhere (p : Approval → Bool) :
    (q.resolveWhere p resolution n).entries.length = q.entries.length := by
  rw [resolveWhere, List.length_map]

theorem target_eq_of_enqueue_eq
    (h : q.enqueue target fingerprint m = q.enqueue target' fingerprint' n) :
    target = target' := by
  have hentries := congrArg Queue.entries h
  have hlast := List.append_cancel_left hentries
  cases hlast
  rfl

/-- The approvals for a call precede one another in the order of the queue. -/
theorem WellKept.covering_precedes (h : q.WellKept n)
    (operation : OperationId) (digest : String) :
    (q.covering operation digest).Pairwise Precedes := by
  apply (h.covering_succession operation digest).imp_of_mem
  rintro a b ha hb ⟨hresolved, hlt⟩
  have haq := (mem_covering.1 ha).1
  have hbq := (mem_covering.1 hb).1
  obtain ⟨m, hm⟩ : ∃ m, a.resolvedAt = some m := by
    apply Option.ne_none_iff_exists'.1
    intro hnone
    exact hresolved ((h.open_iff a haq).2 hnone)
  have hchanged : a.changedAt = m := by
    rw [changedAt, hm]
    rfl
  refine ⟨Nat.lt_of_le_of_lt (h.requestedAt_le a haq) hlt, hresolved,
    m, hm, hchanged ▸ hlt, ?_⟩
  intro n hn
  have hlater : b.requestedAt ≤ n := by
    have hle := h.requestedAt_le b hbq
    rwa [changedAt, hn] at hle
  rw [hchanged] at hlt
  exact Nat.lt_of_lt_of_le hlt hlater

end Queue

end Approval

/-- What a call may ask an approval for: a gated call for itself, when it needs
one, and a control for what its arguments name. -/
inductive SessionSetup.Asks (s : SessionSetup) (r : Request)
    (q : Approval.Queue) : Route → Approval.Target → Prop where
  | gated (hneeds : (s.config.policy.peek r q).action = .requireApproval) :
      Asks s r q .adapter (s.config.policy.targetFor r.operation r.digest)
  | requested {target : Approval.Target}
      (htarget : s.controlTarget r.args = .ok target) :
      Asks s r q (.control .request) target

namespace SessionSetup

variable {s : SessionSetup} {st : SessionState} {operation : OperationId}
  {args : Json} {r : Request} {route : Route} {t : Taken} {a : Approval}
  {actions : List SessionAction} {action : SessionAction}
  {target : Approval.Target} {fingerprint : String} {n : Nat}
  {spec : OperationSpec} {members : Arguments} {e : Execution}

/-! ## Who asks -/

theorem executeControl_of_error {c : ApprovalControl} {message : String}
    (htarget : s.controlTarget r.args = .error message) :
    (s.executeControl r c st).state = st := by
  rw [executeControl, htarget]
  split <;> rfl

theorem executeControl_request (htarget : s.controlTarget r.args = .ok target) :
    s.executeControl r .request st = s.controlRequest r target st := by
  rw [executeControl, htarget]
  rfl

/-- A decision adds nothing to the queue. -/
theorem length_controlDecide (resolution : Approval.Resolution) :
    (s.controlDecide r target resolution st).state.approvals.entries.length =
      st.approvals.entries.length := by
  rw [controlDecide]
  split
  · rfl
  · rename_i decided queue hdecided
    obtain ⟨-, -, rfl⟩ := Approval.Queue.decide_eq_ok hdecided
    exact Approval.Queue.length_resolveWhere _

/-- A control that adds an approval to the queue is a request, and the approval
is for what its arguments name. -/
theorem executeControl_asks {c : ApprovalControl}
    (h : (s.executeControl r c st).state.approvals =
      st.approvals.enqueue target fingerprint n) :
    s.Asks r st.approvals (.control c) target := by
  have hgrown : (s.executeControl r c st).state.approvals.entries.length ≠
      st.approvals.entries.length := by
    rw [h, Approval.Queue.length_enqueue]
    exact Nat.succ_ne_self _
  cases htarget : s.controlTarget r.args with
  | error message =>
      rw [executeControl_of_error htarget] at hgrown
      exact absurd rfl hgrown
  | ok named =>
      cases c with
      | list => exact absurd rfl hgrown
      | status =>
          rw [executeControl, htarget] at hgrown
          exact absurd rfl hgrown
      | approve =>
          rw [executeControl, htarget] at hgrown
          exact absurd (length_controlDecide .approved) hgrown
      | deny =>
          rw [executeControl, htarget] at hgrown
          exact absurd (length_controlDecide .denied) hgrown
      | request =>
          rw [executeControl_request htarget] at h hgrown
          rw [controlRequest] at h hgrown
          dsimp only at h hgrown
          cases hopen : st.approvals.openFor? named with
          | some a =>
              rw [hopen] at hgrown
              exact absurd rfl hgrown
          | none =>
              rw [hopen] at h
              rw [← Approval.Queue.target_eq_of_enqueue_eq h]
              exact .requested htarget

/-- A gated call that adds an approval to the queue needs it for itself. -/
theorem executeGated_asks
    (h : (s.executeGated r st).state.approvals =
      st.approvals.enqueue target fingerprint n) :
    s.Asks r st.approvals .adapter target := by
  have hgrown : (s.executeGated r st).state.approvals.entries.length ≠
      st.approvals.entries.length := by
    rw [h, Approval.Queue.length_enqueue]
    exact Nat.succ_ne_self _
  cases haction : (s.config.policy.peek r st.approvals).action with
  | allow =>
      rw [executeGated_of_allowed haction, serve_state] at hgrown
      exact absurd rfl hgrown
  | deny =>
      rw [executeGated_of_denied haction] at hgrown
      exact absurd rfl hgrown
  | requireApproval =>
      cases hwaiting : st.approvals.unresolvedFor? r.operation r.digest with
      | some a =>
          rw [executeGated_of_waiting haction hwaiting] at hgrown
          exact absurd rfl hgrown
      | none =>
          rw [executeGated_of_asking haction hwaiting] at h
          rw [← Approval.Queue.target_eq_of_enqueue_eq h]
          exact .gated haction

/-- A call that adds an approval to the queue asks for it. -/
theorem TakesUp.asks (h : s.TakesUp operation args st t spec members e)
    (hadded : t.state.approvals =
      st.approvals.enqueue target fingerprint n) :
    s.Asks t.request st.approvals spec.route target := by
  rw [h.state_approvals] at hadded
  cases hroute : spec.route with
  | adapter =>
      rw [hroute, execute] at hadded
      have hasks := executeGated_asks hadded
      exact hasks
  | control c =>
      rw [hroute, execute] at hadded
      have hasks := executeControl_asks hadded
      exact hasks

/-! ## The approvals of a run -/

/-- A call that was taken up at a state added an approval at the end of the
queue, under its own number, and no call that the approval is for had another
one that waited. -/
structure Adds (s : SessionSetup) (st : SessionState)
    (operation : OperationId) (args : Json) (t : Taken) (a : Approval) :
    Prop where
  taken : s.take operation args st = .ok t
  entries_eq : t.state.approvals.entries = st.approvals.entries ++ [a]
  requestedAt_eq : a.requestedAt = t.request.sequence
  requestedBy_eq : a.requestedBy = t.request.fingerprint
  alone : ∀ operation digest,
    a.target.covers operation digest s.config.policy.matching = true →
      st.approvals.unresolvedFor? operation digest = none

/-- The approval was added by a call of the run. -/
def AddedIn (s : SessionSetup) (st : SessionState)
    (actions : List SessionAction) (a : Approval) : Prop :=
  ∃ before operation args after t,
    actions = before ++ .call operation args :: after ∧
      s.Adds (s.run st before) operation args t a

theorem AddedIn.cons (h : s.AddedIn (s.act st action) actions a) :
    s.AddedIn st (action :: actions) a := by
  obtain ⟨before, operation, args, after, t, rfl, hadds⟩ := h
  exact ⟨action :: before, operation, args, after, t, rfl, hadds⟩

/-- An approval was asked for before an action, or the action is the call that
asked for it. -/
theorem mem_or_adds_of_act (h : s.Orderly st)
    (ha : a ∈ (s.act st action).approvals.entries) :
    (∃ b ∈ st.approvals.entries, b.asked = a.asked) ∨
      ∃ operation args t, action = .call operation args ∧
        s.Adds st operation args t a.asked := by
  rcases act_cases s st action with
    hst | ⟨operation, args, t, rfl, ht, hst⟩ | ⟨-, hst⟩
  · rw [hst] at ha
    exact Or.inl ⟨a, ha, rfl⟩
  · rw [hst] at ha
    obtain ⟨spec, members, e, htakes⟩ := take_eq_ok ht
    have heffect := htakes.effect h.matching
    generalize hq : t.state.approvals = q at ha heffect
    cases heffect with
    | kept => exact Or.inl ⟨a, ha, rfl⟩
    | decided c target resolution =>
        obtain ⟨b, hb, rfl⟩ := Approval.Queue.mem_resolveWhere.1 ha
        exact Or.inl ⟨b, hb, (Approval.Queue.asked_of_ite b _).symm⟩
    | asked target hopen =>
        rcases Approval.Queue.mem_enqueue.1 ha with hold | rfl
        · exact Or.inl ⟨a, hold, rfl⟩
        · refine Or.inr ⟨operation, args, t, rfl, ht, ?_, rfl, rfl, ?_⟩
          · rw [hq]
            rfl
          · intro operation digest hcovers
            apply Approval.Queue.unresolvedFor?_eq_none_iff.2
            intro b hb
            obtain ⟨hbq, hbcovers⟩ := Approval.Queue.mem_covering.1 hb
            rw [← h.matching] at hcovers
            exact Approval.Queue.openFor?_eq_none_iff.1 hopen b hbq
              (Approval.Target.decidedBy_of_covers hbcovers hcovers)
  · rw [hst] at ha
    obtain ⟨b, hb, rfl⟩ := Approval.Queue.mem_resolveWhere.1 ha
    exact Or.inl ⟨b, hb, (Approval.Queue.asked_of_ite b _).symm⟩

/-- An approval was asked for before a run, or a call of the run asked for
it. -/
theorem mem_or_addedIn (h : s.Orderly st)
    (ha : a ∈ (s.run st actions).approvals.entries) :
    (∃ b ∈ st.approvals.entries, b.asked = a.asked) ∨
      s.AddedIn st actions a.asked := by
  induction actions generalizing st with
  | nil => exact Or.inl ⟨a, ha, rfl⟩
  | cons action rest ih =>
      rcases ih (h.act action) ha with ⟨b, hb, hba⟩ | hrest
      · rcases mem_or_adds_of_act h hb with
          ⟨c, hc, hcb⟩ | ⟨operation, args, t, rfl, hadds⟩
        · exact Or.inl ⟨c, hc, hcb.trans hba⟩
        · rw [hba] at hadds
          exact Or.inr ⟨[], operation, args, rest, t, rfl, hadds⟩
      · exact Or.inr hrest.cons

end SessionSetup

namespace Session

/-- After any run of a session at most one approval for a call waits.  The
approvals for the call precede one another in the order of the queue, and each
of them was added by a call of the run at whose moment none of them waited. -/
theorem approvals_for_call_follow (setup : SessionSetup) (snapshot : Json)
    (clock : Clock) (sink : ReceiptSink) (actions : List SessionAction)
    (operation : OperationId) (digest : String) :
    let first := (start setup snapshot clock sink).state
    let last := ((start setup snapshot clock sink).run actions).state
    let approvals := last.approvals.covering operation digest
    approvals.countP (fun a => a.resolution = .unresolved) ≤ 1 ∧
      approvals.Pairwise Approval.Precedes ∧
      ∀ a ∈ approvals, setup.AddedIn first actions a.asked := by
  intro first last approvals
  have hlast : last = setup.run first actions :=
    (run_eq (start setup snapshot clock sink) actions).2
  have hfirst : setup.Orderly first := setup.orderly_start snapshot clock
  have horderly : setup.Orderly last :=
    orderly_run_start setup snapshot clock sink actions
  refine ⟨horderly.kept.countP_waiting_le operation digest,
    horderly.kept.covering_precedes operation digest, ?_⟩
  intro a ha
  have haq := (Approval.Queue.mem_covering.1 ha).1
  rw [hlast] at haq
  rcases SessionSetup.mem_or_addedIn hfirst haq with ⟨b, hb, -⟩ | hadded
  · cases hb
  · exact hadded

end Session

end CallGate
