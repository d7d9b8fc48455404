import CallGate.Proofs.Operation.Registry
import CallGate.Proofs.Session.Calls
import CallGate.Session.Basic

/-!
# Runs of a session

A caller dispatches calls to a session, in any order, and may close it.  The
queue of approvals keeps the policy's matching and its order through every
run, and each of its entries that is approved was approved by a call of the
run.
-/

namespace CallGate

/-- What a caller does with a session. -/
inductive SessionAction where
  | call (operation : OperationId) (args : Json)
  | close
  deriving DecidableEq, Inhabited

namespace SessionSetup

/-- The state after an action. -/
def act (s : SessionSetup) (st : SessionState) : SessionAction → SessionState
  | .call operation args =>
    match s.take operation args st with
    | .ok t => t.state
    | .error _ => st
  | .close => (s.close st).2.1

/-- The state after some actions. -/
def run (s : SessionSetup) (st : SessionState)
    (actions : List SessionAction) : SessionState :=
  actions.foldl s.act st

end SessionSetup

namespace Session

/-- The session after an action. -/
def act (session : Session) : SessionAction → Session
  | .call operation args => (session.dispatch operation args).2
  | .close => session.close.2

/-- The session after some actions. -/
def run (session : Session) (actions : List SessionAction) : Session :=
  actions.foldl act session

end Session

namespace SessionSetup

variable {s : SessionSetup} {st : SessionState} {operation : OperationId}
  {args : Json} {t : Taken} {a : Approval} {actions : List SessionAction}
  {action : SessionAction}

theorem act_of_take (h : s.take operation args st = .ok t) :
    s.act st (.call operation args) = t.state := by
  rw [act, h]

/-- An action leaves the state as it is, is a call that was taken up, or
closes an open session. -/
theorem act_cases (s : SessionSetup) (st : SessionState)
    (action : SessionAction) :
    s.act st action = st ∨
      (∃ operation args t, action = .call operation args ∧
        s.take operation args st = .ok t ∧ s.act st action = t.state) ∨
      (action = .close ∧ s.act st action =
        { st with
          approvals := st.approvals.resolveWhere
            (fun a => a.resolution = .unresolved) .expired st.sequence
          closed := true }) := by
  cases action with
  | call operation args =>
      cases ht : s.take operation args st with
      | error e =>
          rw [act, ht]
          exact Or.inl rfl
      | ok t =>
          exact Or.inr (Or.inl ⟨operation, args, t, rfl, ht,
            act_of_take ht⟩)
  | close =>
      rw [act, close]
      split
      · exact Or.inl rfl
      · exact Or.inr (Or.inr ⟨rfl, rfl⟩)

/-! ## The order of the queue -/

/-- The queue of a session has the matching of the policy and is in order. -/
structure Orderly (s : SessionSetup) (st : SessionState) : Prop where
  matching : st.approvals.matching = s.config.policy.matching
  kept : st.approvals.WellKept st.sequence

theorem orderly_start (s : SessionSetup) (snapshot : Json) (clock : Clock) :
    s.Orderly (.start s.config snapshot clock) where
  matching := rfl
  kept := .empty _ 0

/-- The queue keeps its order through whatever a call does to it. -/
theorem QueueEffect.orderly {r : Request} {route : Route} {e : Executed}
    {q q' : Approval.Queue} {n : Nat} (h : s.QueueEffect r route e q q')
    (hkept : q.WellKept n) (hsequence : r.sequence = n + 1) :
    q'.matching = q.matching ∧ q'.WellKept (n + 1) := by
  have hlt : n < r.sequence := by omega
  cases h with
  | kept => exact ⟨rfl, hkept.mono (Nat.le_succ n)⟩
  | asked target hopen =>
      exact ⟨rfl, hsequence ▸ hkept.enqueue hlt hopen⟩
  | decided c target resolution _ hc _ _ =>
      refine ⟨rfl, hsequence ▸ hkept.resolveWhere (Nat.le_of_lt hlt) ?_ ?_⟩
      · exact fun a ha => (Approval.Queue.isOpenFor_iff.1 ha).1
      · rintro rfl
        cases c <;> cases hc

theorem Orderly.take (h : s.Orderly st)
    (ht : s.take operation args st = .ok t) : s.Orderly t.state := by
  obtain ⟨spec, members, e, htakes⟩ := take_eq_ok ht
  obtain ⟨hmatching, hkept⟩ := (htakes.effect h.matching).orderly h.kept
    htakes.request_sequence
  refine ⟨hmatching.trans h.matching, ?_⟩
  rw [htakes.state_sequence]
  exact hkept

theorem Orderly.act (h : s.Orderly st) (action : SessionAction) :
    s.Orderly (s.act st action) := by
  rcases act_cases s st action with hst | ⟨_, _, t, _, ht, hst⟩ | ⟨_, hst⟩
  · rw [hst]
    exact h
  · rw [hst]
    exact h.take ht
  · rw [hst]
    exact ⟨h.matching, h.kept.resolveWhere (Nat.le_refl _)
      (fun a ha => by simpa using ha) (by decide)⟩

theorem Orderly.run (h : s.Orderly st) (actions : List SessionAction) :
    s.Orderly (s.run st actions) := by
  induction actions generalizing st with
  | nil => exact h
  | cons action rest ih => exact ih (h.act action)

/-! ## Where an approval comes from -/

/-- The call that resolved an approval: a control at a given state that went
through, named the operation, and found the approval waiting. -/
structure Resolves (s : SessionSetup) (st : SessionState)
    (c : ApprovalControl) (args : Json) (t : Taken) (a : Approval) :
    Prop where
  taken : s.take c.id args st = .ok t
  status_ok : t.executed.response.status = .ok
  service_eq : (Json.member? "service" t.request.args).bind Json.text? =
    some a.target.operation.service
  name_eq : (Json.member? "operation" t.request.args).bind Json.text? =
    some a.target.operation.name
  /-- The approval waited before the call. -/
  waited : ∃ b ∈ st.approvals.entries, b.resolution = .unresolved ∧
    a = b.resolve a.resolution t.request.sequence
  resolved : a ∈ t.state.approvals.entries

/-- An approval with a decision had it before a call, or the call took the
decision. -/
theorem mem_or_resolves_of_take (hbuilt : s.registry.Built)
    (h : s.Orderly st) (ht : s.take operation args st = .ok t)
    (ha : a ∈ t.state.approvals.entries)
    (hdecided : a.resolution ≠ .unresolved) :
    a ∈ st.approvals.entries ∨
      ∃ c : ApprovalControl, operation = c.id ∧
        c.resolution? = some a.resolution ∧ s.Resolves st c args t a := by
  obtain ⟨spec, members, e, htakes⟩ := take_eq_ok ht
  have heffect := htakes.effect h.matching
  generalize hq : t.state.approvals = q at heffect
  have hmem := ha
  rw [hq] at ha
  cases heffect with
  | kept => exact Or.inl ha
  | asked target hopen =>
      rcases Approval.Queue.mem_enqueue.1 ha with ha | rfl
      · exact Or.inl ha
      · exact absurd rfl hdecided
  | decided c target resolution hroute hc htarget hok =>
      obtain ⟨b, hb, rfl⟩ := Approval.Queue.mem_resolveWhere.1 ha
      by_cases hopen : st.approvals.isOpenFor target b = true
      · refine Or.inr ⟨c, ?_⟩
        obtain ⟨hwaiting, hshared⟩ := Approval.Queue.isOpenFor_iff.1 hopen
        obtain ⟨hid, -⟩ :=
          (hbuilt.fits htakes.spec_eq).eq_control hroute
        obtain ⟨hservice, hname, -⟩ :=
          controlOperation_eq_ok (controlOperation_of_controlTarget htarget)
        have hoperation := (Approval.Target.decidedBy_iff.1 hshared).1
        rw [if_pos hopen] at hmem ⊢
        subst hid
        refine ⟨rfl, hc, ht, hok, ?_, ?_, ⟨b, hb, hwaiting, rfl⟩, hmem⟩
        · rw [hservice, ← hoperation, Approval.resolve]
        · rw [hname, ← hoperation, Approval.resolve]
      · rw [if_neg hopen]
        exact Or.inl hb

/-- The approval was resolved by a call of the run. -/
def ResolvedIn (s : SessionSetup) (st : SessionState)
    (actions : List SessionAction) (a : Approval) : Prop :=
  ∃ before c args after t,
    actions = before ++ .call (ApprovalControl.id c) args :: after ∧
      c.resolution? = some a.resolution ∧
      s.Resolves (s.run st before) c args t a

theorem ResolvedIn.cons (h : s.ResolvedIn (s.act st action) actions a) :
    s.ResolvedIn st (action :: actions) a := by
  obtain ⟨before, c, args, after, t, rfl, hc, hresolves⟩ := h
  exact ⟨action :: before, c, args, after, t, rfl, hc, hresolves⟩

/-- An approval with a decision had it before an action, or the action is the
call that took the decision. -/
theorem mem_or_resolves_of_act (hbuilt : s.registry.Built)
    (h : s.Orderly st) (ha : a ∈ (s.act st action).approvals.entries)
    (hdecided : a.resolution.isDecision = true) :
    a ∈ st.approvals.entries ∨
      ∃ c args t, action = .call (ApprovalControl.id c) args ∧
        c.resolution? = some a.resolution ∧ s.Resolves st c args t a := by
  rcases act_cases s st action with
    hst | ⟨operation, args, t, rfl, ht, hst⟩ | ⟨-, hst⟩
  · rw [hst] at ha
    exact Or.inl ha
  · rw [hst] at ha
    have hne : a.resolution ≠ .unresolved := by
      intro heq
      rw [heq] at hdecided
      cases hdecided
    rcases mem_or_resolves_of_take hbuilt h ht ha hne with
      hold | ⟨c, rfl, hc, hresolves⟩
    · exact Or.inl hold
    · exact Or.inr ⟨c, args, t, rfl, hc, hresolves⟩
  · rw [hst] at ha
    obtain ⟨b, hb, hab⟩ := Approval.Queue.mem_resolveWhere.1 ha
    split at hab
    · subst hab
      cases hdecided
    · subst hab
      exact Or.inl hb

/-- An approval with a decision had it before a run, or a call of the run took
the decision. -/
theorem mem_or_resolvedIn (hbuilt : s.registry.Built) (h : s.Orderly st)
    (ha : a ∈ (s.run st actions).approvals.entries)
    (hdecided : a.resolution.isDecision = true) :
    a ∈ st.approvals.entries ∨ s.ResolvedIn st actions a := by
  induction actions generalizing st with
  | nil => exact Or.inl ha
  | cons action rest ih =>
      rcases ih (h.act action) ha with hmem | hrest
      · rcases mem_or_resolves_of_act hbuilt h hmem hdecided with
          hold | ⟨c, args, t, rfl, hc, hresolves⟩
        · exact Or.inl hold
        · exact Or.inr ⟨[], c, args, rest, t, rfl, hc, hresolves⟩
      · exact Or.inr hrest.cons

end SessionSetup

namespace Session

variable {session : Session}

theorem act_eq (session : Session) (action : SessionAction) :
    (session.act action).setup = session.setup ∧
      (session.act action).state =
        session.setup.act session.state action := by
  cases action with
  | call operation args =>
      rw [act, dispatch, SessionSetup.act]
      cases session.setup.take operation args session.state with
      | error e => exact ⟨rfl, rfl⟩
      | ok t =>
          dsimp only
          split <;> exact ⟨rfl, rfl⟩
  | close =>
      rw [act, close, SessionSetup.act]
      dsimp only
      split <;> exact ⟨rfl, rfl⟩

/-- An answer tells of a call that was taken up. -/
theorem dispatch_eq_ok {operation : OperationId} {args : Json} {d : Dispatch}
    (h : (session.dispatch operation args).1 = .ok d) :
    ∃ t, session.setup.take operation args session.state = .ok t ∧
      d = ⟨t.request, t.executed.decision, t.executed.response,
        t.receipt⟩ ∧
      (session.dispatch operation args).2.state = t.state := by
  rw [dispatch] at h ⊢
  cases ht : session.setup.take operation args session.state with
  | error e =>
      rw [ht] at h
      cases h
  | ok t =>
      rw [ht] at h
      dsimp only at h ⊢
      split at h
      · cases h
      · cases h
        exact ⟨t, rfl, rfl, rfl⟩

/-- What a session's sink does has no part in its state. -/
theorem run_eq (session : Session) (actions : List SessionAction) :
    (session.run actions).setup = session.setup ∧
      (session.run actions).state =
        session.setup.run session.state actions := by
  induction actions generalizing session with
  | nil => exact ⟨rfl, rfl⟩
  | cons action rest ih =>
      obtain ⟨hsetup, hstate⟩ := act_eq session action
      obtain ⟨hsetup', hstate'⟩ := ih (session.act action)
      rw [hsetup, hstate] at hstate'
      exact ⟨hsetup'.trans hsetup, hstate'⟩

/-- The queue of a session that was started is in order after any run. -/
theorem orderly_run_start (setup : SessionSetup) (snapshot : Json)
    (clock : Clock) (sink : ReceiptSink) (actions : List SessionAction) :
    setup.Orderly ((start setup snapshot clock sink).run actions).state := by
  rw [(run_eq (start setup snapshot clock sink) actions).2]
  exact (setup.orderly_start snapshot clock).run actions

end Session

/-! ## A session with one risky operation -/

/-- The risky operation. -/
def mailSend : OperationId := ⟨"mail", "send"⟩

def mailRegistry : Registry :=
  ⟨Registry.controls.specs.insert mailSend (.viaAdapter mailSend .writeRisky)⟩

theorem mailRegistry_built : mailRegistry.Built := by
  have hregister :
      Registry.controls.register mailSend .writeRisky = .ok mailRegistry :=
    rfl
  exact .register .controls hregister

/-- The session with a given policy. -/
def mailSetup (policy : Policy) : SessionSetup :=
  { config := { policy := policy }, registry := mailRegistry }

end CallGate
