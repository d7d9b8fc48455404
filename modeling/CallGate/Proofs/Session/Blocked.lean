import CallGate.Proofs.Session.Gating
import CallGate.Proofs.Session.Takings

/-!
# Calls that a configuration blocks

There are two places at which a configuration stops calls for good: the gate,
which denies the operations that the policy blocks before any other rule is
looked at, and the guard before live backends, which no decision of the gate
opens.  What is stopped at the first reaches no adapter, and what is stopped at
the second is not shown to a live backend, so the call would have come to the
same with any other one.
-/

namespace CallGate

/-- Setups that differ at most in what serves calls: the simulators, the live
backend and the recorded outcomes. -/
structure SessionSetup.SameButServers (s other : SessionSetup) : Prop where
  config : other.config = s.config
  registry : other.registry = s.registry

/-- A call was not shown to a live backend: it reached no adapter or was
refused before one, it left the world as it was, and with any other servers the
same would have come of it. -/
structure Taking.KeptFromBackend (s : SessionSetup) (x : Taking) : Prop where
  ending : ¬x.taken.ReachesAdapter ∨ ∃ reason,
    s.config.guard.refusal? x.taken.request.operation x.taken.request.risk =
        some reason ∧
      x.taken.executed.response.error =
        some ⟨.adapterError, some .liveBlocked, reason⟩
  world_eq : x.taken.state.world = x.found.world
  same_of_other : ∀ other, s.SameButServers other →
    other.take x.operation x.args x.found = .ok x.taken

namespace SessionSetup

variable {s other : SessionSetup} {st : SessionState} {operation : OperationId}
  {args : Json} {t : Taken} {r : Request} {x : Taking} {reason : String}
  {spec : OperationSpec} {members : Arguments} {e : Execution}

/-! ## The gate -/

/-- An operation that is blocked is denied whatever else is said about it. -/
theorem peek_of_hardBlock
    (h : s.config.policy.hardBlock.contains r.operation = true)
    (q : Approval.Queue) :
    s.config.policy.peek r q = .deny .hardBlocked := by
  rw [Policy.peek, Policy.decide, if_pos h]

theorem TakesUp.hardBlocked
    (h : s.TakesUp operation args st t spec members e)
    (hroute : spec.route = .adapter)
    (hblock : s.config.policy.hardBlock.contains spec.id = true) :
    t.executed.decision = .deny .hardBlocked ∧
      s.Withholds operation args st t := by
  rw [← h.request_operation] at hblock
  constructor
  · rw [h.executed_eq, h.execution_eq, hroute, execute, executeGated_decision]
    exact peek_of_hardBlock hblock _
  · refine h.withholds hroute fun hreaches => ?_
    rw [h.reachesAdapter_iff hroute, peek_of_hardBlock hblock] at hreaches
    cases hreaches

/-! ## The guard -/

theorem executeGated_of_serve_eq (hsame : s.SameButServers other)
    (hserve : ∀ st, other.serve r st = s.serve r st) :
    other.executeGated r st = s.executeGated r st := by
  simp only [executeGated, hserve, hsame.config, approvalEvent, adapters,
    Adapters.modeOf]

theorem executeControl_of_sameButServers (hsame : s.SameButServers other)
    (c : ApprovalControl) :
    other.executeControl r c st = s.executeControl r c st := by
  simp only [executeControl, controlTarget, controlOperation, controlRequest,
    controlDecide, approvalEvent, hsame.config, hsame.registry]

/-- What serves calls has a part in a call only when it serves it. -/
theorem take_of_serve_eq (hsame : s.SameButServers other)
    (ht : s.take operation args st = .ok t)
    (hserve : ∀ st, other.serve t.request st = s.serve t.request st) :
    other.take operation args st = .ok t := by
  have hrequest : other.requestFor operation args st =
      s.requestFor operation args st := by
    rw [requestFor, requestFor, hsame.config, hsame.registry]
  rw [take] at ht ⊢
  rw [hrequest]
  cases hfound : s.requestFor operation args st with
  | error e =>
      rw [hfound] at ht
      cases ht
  | ok found =>
      obtain ⟨r, route⟩ := found
      rw [hfound] at ht
      cases ht
      have hexecute : other.execute r route
          { st with sequence := r.sequence } =
            s.execute r route { st with sequence := r.sequence } := by
        cases route with
        | adapter => exact executeGated_of_serve_eq hsame hserve
        | control c => exact executeControl_of_sameButServers hsame c
      simp only [Except.map, hexecute]

/-- A call that the guard refuses is served with the refusal. -/
theorem serve_of_refused
    (hmode : s.config.modes.of r.operation.service = .live)
    (hrefused : s.config.guard.refusal? r.operation r.risk = some reason) :
    s.serve r st = (.err ⟨.liveBlocked, reason⟩,
      { st with
        fixtures := st.fixtures.insert r.fingerprint
          (.err ⟨.liveBlocked, reason⟩) }) := by
  have hlive : s.adapters.modeOf r = .live := hmode
  have hguard : s.adapters.guard.refusal? r.operation r.risk = some reason :=
    hrefused
  rw [serve, Adapters.execute, hlive, Adapters.executeLive, hguard]
  rfl

/-- A call that the guard refuses is not shown to a live backend. -/
theorem keptFromBackend (hx : x.Valid s)
    (hmode : s.config.modes.of x.taken.request.operation.service = .live)
    (hrefused : s.config.guard.refusal? x.taken.request.operation
      x.taken.request.risk = some reason) :
    x.KeptFromBackend s := by
  have hother : ∀ other, s.SameButServers other →
      other.take x.operation x.args x.found = .ok x.taken := by
    intro other hsame
    refine take_of_serve_eq hsame hx fun st => ?_
    rw [serve_of_refused hmode hrefused, serve_of_refused
      (by rw [hsame.config]; exact hmode)
      (by rw [hsame.config]; exact hrefused)]
  cases hreached : x.taken.executed.mode with
  | none =>
      obtain ⟨-, hworld, -⟩ := hx.unserved hreached
      refine ⟨Or.inl ?_, hworld, hother⟩
      rw [Taken.ReachesAdapter, hreached]
      exact Bool.false_ne_true
  | some mode =>
      have hserved := hx.servedIn hreached
      have hlive : s.adapters.modeOf x.taken.request = .live := hmode
      have hanswer : x.served s =
          (.err ⟨.liveBlocked, reason⟩, x.found.world) := by
        have hguard : s.adapters.guard.refusal? x.taken.request.operation
            x.taken.request.risk = some reason := hrefused
        rw [Taking.served, Adapters.execute, hlive, Adapters.executeLive,
          hguard]
      refine ⟨Or.inr ⟨reason, hrefused, ?_⟩, ?_, hother⟩
      · rw [hserved.response_eq, hanswer]
        rfl
      · rw [hserved.world_eq, hanswer]

end SessionSetup

end CallGate
