import CallGate.Proofs.Session.Runs

/-!
# Risky writes in a run

A risky write that no rule of its own lets through reaches an adapter only on
account of an approval.  The gate reads the approval off the queue at the
moment of the call; the history of the queue then tells that the approval was
given by an earlier call of the same run.  Without it the call is withheld,
and no adapter has any part in what comes of it.
-/

namespace CallGate

/-- A call was handed to an adapter. -/
def Taken.ReachesAdapter (t : Taken) : Prop := t.executed.mode.isSome = true

/-- No rule of the policy is against a call, no approval for it waits, and a
given one, which approves it, was resolved after all others. -/
structure Policy.Clears (p : Policy) (q : Approval.Queue)
    (operation : OperationId) (digest : String) (a : Approval) : Prop where
  notBlocked : p.hardBlock.contains operation = false
  notDenied : p.overrides.get? operation ≠ some .deny
  settled : ∀ b ∈ q.covering operation digest, b.resolution ≠ .unresolved
  covers : a ∈ q.covering operation digest
  approved : a.resolution = .approved
  latest : ∀ b ∈ q.covering operation digest,
    b ≠ a → b.changedAt < a.changedAt

/-- A call was refused or has to wait, it changed neither the world nor what
is recorded, and it would have had the same end whatever serves calls. -/
structure SessionSetup.Withholds (s : SessionSetup) (operation : OperationId)
    (args : Json) (st : SessionState) (t : Taken) : Prop where
  unserved : ¬t.ReachesAdapter
  ending : t.executed.response.status = .pending ∨
    t.executed.response.error.map (·.kind) = some .policyDenied
  world_eq : t.state.world = st.world
  fixtures_eq : t.state.fixtures = st.fixtures
  same_of_other : ∀ other, s.SameGate other → ∃ t',
    other.take operation args st = .ok t' ∧ t'.request = t.request ∧
      t'.executed = t.executed ∧ t'.state = t.state

namespace Approval.Queue

variable {q : Queue} {operation : OperationId} {digest : String} {n : Nat}

/-- In a queue that is in order, the last decision about a call approved it
exactly when an approval of it was resolved after all others.  Two approvals of
a call are never changed at the same time. -/
theorem latestResolution?_approved_iff (h : q.WellKept n)
    (hsettled : q.unresolvedFor? operation digest = none) :
    q.latestResolution? operation digest = some .approved ↔
      ∃ a ∈ q.covering operation digest, a.resolution = .approved ∧
        ∀ b ∈ q.covering operation digest,
          b ≠ a → b.changedAt < a.changedAt := by
  have hresolved := unresolvedFor?_eq_none_iff.1 hsettled
  rw [latestResolution?, Option.map_eq_some_iff]
  constructor
  · rintro ⟨a, hlast, happroved⟩
    obtain ⟨ha, -, hmax⟩ := lastResolved?_spec hlast
    refine ⟨a, ha, happroved, fun b hb hne => ?_⟩
    have hle := hmax b hb (hresolved b hb)
    refine Nat.lt_of_le_of_ne hle fun hat => hne ?_
    obtain ⟨haq, hacovers⟩ := mem_covering.1 ha
    obtain ⟨hbq, hbcovers⟩ := mem_covering.1 hb
    exact h.eq_of_changedAt_eq hbq haq
      (Target.decidedBy_of_covers hbcovers hacovers) hat
  · rintro ⟨a, ha, happroved, hlatest⟩
    refine ⟨a, lastResolved?_eq_some ha (hresolved a ha) ?_, happroved⟩
    intro b hb _
    by_cases hba : b = a
    · exact Or.inl hba
    · exact Or.inr (hlatest b hb hba)

end Approval.Queue

namespace SessionSetup

variable {s : SessionSetup} {st : SessionState} {operation : OperationId}
  {args : Json} {t : Taken} {spec : OperationSpec} {members : Arguments}
  {e : Execution}

/-- A risky write that no rule of its own lets through is let through by the
gate when an approval clears it. -/
theorem peek_risky_allow_iff {r : Request} (h : s.Orderly st)
    (hrisk : r.risk = .writeRisky)
    (hallow : s.config.policy.overrides.get? r.operation ≠ some .allow)
    (hgranted : s.config.policy.preGranted.contains r.operation = false) :
    (s.config.policy.peek r st.approvals).action = .allow ↔
      ∃ a, s.config.policy.Clears st.approvals r.operation r.digest a := by
  rw [Policy.peek, hrisk, Policy.decide_risky_allow_iff hallow hgranted]
  constructor
  · rintro ⟨hblock, hdeny, happroved, hsettled⟩
    obtain ⟨a, ha, happroved, hlatest⟩ :=
      (Approval.Queue.latestResolution?_approved_iff h.kept hsettled).1
        happroved
    exact ⟨a, hblock, hdeny,
      Approval.Queue.unresolvedFor?_eq_none_iff.1 hsettled, ha, happroved,
      hlatest⟩
  · rintro ⟨a, hclears⟩
    have hsettled :=
      Approval.Queue.unresolvedFor?_eq_none_iff.2 hclears.settled
    exact ⟨hclears.notBlocked, hclears.notDenied,
      (Approval.Queue.latestResolution?_approved_iff h.kept hsettled).2
        ⟨a, hclears.covers, hclears.approved, hclears.latest⟩, hsettled⟩

/-- A gated call reaches an adapter exactly when the gate lets it through. -/
theorem TakesUp.reachesAdapter_iff
    (h : s.TakesUp operation args st t spec members e)
    (hroute : spec.route = .adapter) :
    t.ReachesAdapter ↔
      (s.config.policy.peek t.request st.approvals).action = .allow := by
  rw [Taken.ReachesAdapter, h.executed_eq, h.execution_eq, hroute]
  constructor
  · intro hmode
    exact (execute_of_served hmode).2
  · intro hallow
    rw [execute, executeGated_of_allowed (by exact hallow)]
    rfl

/-- A gated call that the gate does not let through is withheld. -/
theorem TakesUp.withholds
    (h : s.TakesUp operation args st t spec members e)
    (hroute : spec.route = .adapter) (hunserved : ¬t.ReachesAdapter) :
    s.Withholds operation args st t := by
  have hmode : t.executed.mode = none := by
    rwa [Taken.ReachesAdapter, Bool.not_eq_true,
      Option.isSome_eq_false_iff, Option.isNone_iff_eq_none] at hunserved
  obtain ⟨hworld, hfixtures, hother⟩ := h.of_unserved hmode
  refine ⟨hunserved, ?_, hworld, hfixtures, hother⟩
  have hgated : t.executed = (s.executeGated t.request
      { st with sequence := st.sequence + 1 }).executed := by
    rw [h.executed_eq, h.execution_eq, hroute, execute]
  rw [hgated]
  have hne := mt (h.reachesAdapter_iff hroute).2 hunserved
  cases haction : (s.config.policy.peek t.request st.approvals).action with
  | allow => exact absurd haction hne
  | deny =>
      rw [executeGated_of_denied (by exact haction)]
      exact Or.inr rfl
  | requireApproval =>
      refine Or.inl ?_
      cases hwaiting : st.approvals.unresolvedFor? t.request.operation
          t.request.digest with
      | some a =>
          rw [executeGated_of_waiting (by exact haction)
            (by exact hwaiting)]
          rfl
      | none =>
          rw [executeGated_of_asking (by exact haction)
            (by exact hwaiting)]
          rfl

/-- The approval was given by an `approve` call of the run. -/
def ApprovedIn (s : SessionSetup) (st : SessionState)
    (actions : List SessionAction) (a : Approval) : Prop :=
  ∃ before args after t,
    actions = before ++ .call ApprovalControl.approve.id args :: after ∧
      s.Resolves (s.run st before) .approve args t a

theorem ResolvedIn.approvedIn {actions : List SessionAction} {a : Approval}
    (h : s.ResolvedIn st actions a) (happroved : a.resolution = .approved) :
    s.ApprovedIn st actions a := by
  obtain ⟨before, c, args, after, t, hactions, hc, hresolves⟩ := h
  rw [happroved] at hc
  cases c <;> cases hc
  exact ⟨before, args, after, t, hactions, hresolves⟩

end SessionSetup

namespace Session

/-- In a run of a session, a risky write that no rule of its own lets through
reaches an adapter exactly when an approval clears it that an earlier call of
the run gave; without one it is withheld.  The queue is empty at the start, so
whatever clears the call was resolved by a call of the run. -/
theorem risky_call_served_iff_approved
    {setup : SessionSetup} (hbuilt : setup.registry.Built)
    (snapshot : Json) (clock : Clock) (sink : ReceiptSink)
    (actions : List SessionAction)
    {operation : OperationId} {args : Json} {t : Taken}
    (ht : setup.take operation args
      ((start setup snapshot clock sink).run actions).state = .ok t)
    (hrisk : t.request.risk = .writeRisky)
    (hallow : setup.config.policy.overrides.get? operation ≠ some .allow)
    (hgranted : setup.config.policy.preGranted.contains operation = false) :
    let first := (start setup snapshot clock sink).state
    let last := ((start setup snapshot clock sink).run actions).state
    let approved := ∃ a,
      setup.config.policy.Clears last.approvals operation t.request.digest a ∧
        setup.ApprovedIn first actions a
    (t.ReachesAdapter ↔ approved) ∧
      (¬approved → setup.Withholds operation args last t) := by
  intro first last approved
  have hlast : last = setup.run first actions :=
    (run_eq (start setup snapshot clock sink) actions).2
  have hfirst : setup.Orderly first := setup.orderly_start snapshot clock
  have horderly : setup.Orderly last :=
    orderly_run_start setup snapshot clock sink actions
  obtain ⟨spec, members, e, htakes⟩ := SessionSetup.take_eq_ok ht
  have hfits := hbuilt.fits htakes.spec_eq
  have hroute : spec.route = .adapter :=
    hfits.route_eq_adapter_of_risky (htakes.request_risk ▸ hrisk)
  have hoperation : t.request.operation = operation :=
    htakes.request_operation.trans hfits.id_eq
  subst hoperation
  have hreaches : t.ReachesAdapter ↔ approved := by
    rw [htakes.reachesAdapter_iff hroute,
      SessionSetup.peek_risky_allow_iff horderly hrisk hallow hgranted]
    constructor
    · rintro ⟨a, hclears⟩
      have ha := (Approval.Queue.mem_covering.1 hclears.covers).1
      rw [hlast] at ha
      have hdecided : a.resolution.isDecision = true := by
        rw [hclears.approved]
        rfl
      rcases SessionSetup.mem_or_resolvedIn hbuilt hfirst ha hdecided with
        hold | hresolved
      · cases hold
      · exact ⟨a, hclears, hresolved.approvedIn hclears.approved⟩
    · rintro ⟨a, hclears, -⟩
      exact ⟨a, hclears⟩
  exact ⟨hreaches, fun h => htakes.withholds hroute (mt hreaches.1 h)⟩

/-- A risky operation is asked for, approved and asked for again: the second
call reaches the adapter, on account of the approval. -/
theorem mail_served_after_approval :
    let actions : List SessionAction :=
      [.call mailSend .null,
        .call ApprovalControl.approve.id (decisionArgs mailSend none)]
    let session := start (mailSetup {}) .null (.logical 0) .none
    ∃ t a, (mailSetup {}).take mailSend .null (session.run actions).state =
        .ok t ∧
      t.ReachesAdapter ∧
      (mailSetup {}).ApprovedIn session.state actions a ∧
      a.target = .everyCall mailSend := by
  intro actions session
  have hserved : ((mailSetup {}).take mailSend .null
      (session.run actions).state).toOption.any (fun t =>
        t.request.risk = .writeRisky && t.executed.mode.isSome) = true := by
    decide +kernel
  obtain ⟨t, ht, hchecked⟩ := exists_ok_of_any hserved
  rw [Bool.and_eq_true, decide_eq_true_eq] at hchecked
  obtain ⟨hrisk, hreaches⟩ := hchecked
  obtain ⟨a, hclears, happroved⟩ :=
    (risky_call_served_iff_approved mailRegistry_built .null (.logical 0)
      .none actions ht hrisk (by decide) (by decide)).1.1 hreaches
  have ha := (Approval.Queue.mem_covering.1 hclears.covers).1
  have htarget : ∀ b ∈ (session.run actions).state.approvals.entries,
      b.target = .everyCall mailSend := by decide +kernel
  exact ⟨t, a, ht, hreaches, happroved, htarget a ha⟩

end Session

end CallGate
