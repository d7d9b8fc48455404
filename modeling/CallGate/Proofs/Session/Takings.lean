import CallGate.Proofs.Session.Closing

/-!
# The calls that a run takes up

What a session has to show for a run comes from the calls that it took up.  A
call that is not taken up changes nothing, and closing the session changes the
queue alone, so neither leaves a trace in the world, in what is recorded or in
the numbers of the calls.  A statement about a whole run is one about the list
of the calls that were taken up, each with the state that it found.
-/

namespace CallGate

/-- A call that was taken up, with the state that it found. -/
structure Taking where
  found : SessionState
  operation : OperationId
  args : Json
  taken : Taken
  deriving Inhabited

/-- The call is one that is taken up at the state. -/
def Taking.Valid (s : SessionSetup) (x : Taking) : Prop :=
  s.take x.operation x.args x.found = .ok x.taken

namespace SessionSetup

/-- What an action takes up, if it takes up a call. -/
def taking? (s : SessionSetup) (st : SessionState) :
    SessionAction → Option Taking
  | .call operation args =>
    (s.take operation args st).toOption.map (Taking.mk st operation args)
  | .close => none

/-- The calls that a run takes up, in order. -/
def takings (s : SessionSetup) (st : SessionState) :
    List SessionAction → List Taking
  | [] => []
  | action :: rest =>
    (s.taking? st action).toList ++ s.takings (s.act st action) rest

variable {s : SessionSetup} {st : SessionState} {action : SessionAction}
  {actions : List SessionAction} {x : Taking} {xs : List Taking}

theorem taking?_eq_some (h : s.taking? st action = some x) :
    x.Valid s ∧ x.found = st ∧ s.act st action = x.taken.state := by
  cases action with
  | close => cases h
  | call operation args =>
      rw [taking?] at h
      cases ht : s.take operation args st with
      | error e =>
          rw [ht] at h
          cases h
      | ok t =>
          rw [ht] at h
          cases h
          exact ⟨ht, rfl, act_of_take ht⟩

/-- An action that takes up no call changes at most the queue, by closing the
session. -/
theorem act_of_taking?_eq_none (h : s.taking? st action = none) :
    ∃ approvals closed, s.act st action =
      { st with approvals := approvals, closed := closed } := by
  rcases act_cases s st action with
    hst | ⟨operation, args, t, rfl, ht, -⟩ | ⟨-, hst⟩
  · exact ⟨st.approvals, st.closed, hst⟩
  · rw [taking?, ht] at h
    cases h
  · exact ⟨_, true, hst⟩

/-- A closed session takes up nothing. -/
theorem takings_of_closed (h : st.closed = true)
    (actions : List SessionAction) : s.takings st actions = [] := by
  induction actions with
  | nil => rfl
  | cons action rest ih =>
      cases hx : s.taking? st action with
      | none =>
          rw [takings, hx, act_of_closed h, ih]
          rfl
      | some x =>
          obtain ⟨hvalid, rfl, -⟩ := taking?_eq_some hx
          obtain ⟨spec, members, e, htakes⟩ := take_eq_ok hvalid
          rw [htakes.opened] at h
          cases h

/-- The first call that a run takes up finds the state before the run, and the
others are taken up after it. -/
theorem takings_eq_cons (h : s.takings st actions = x :: xs) :
    x.Valid s ∧ x.found = st ∧
      ∃ later, xs = s.takings x.taken.state later := by
  induction actions with
  | nil => cases h
  | cons action rest ih =>
      rw [takings] at h
      cases hy : s.taking? st action with
      | some y =>
          obtain ⟨hvalid, hfound, hst⟩ := taking?_eq_some hy
          rw [hy, hst] at h
          cases h
          exact ⟨hvalid, hfound, rest, rfl⟩
      | none =>
          rw [hy] at h
          rcases act_cases s st action with
            hst | ⟨operation, args, t, rfl, ht, -⟩ | ⟨-, hst⟩
          · rw [hst] at h
            exact ih h
          · rw [taking?, ht] at hy
            cases hy
          · rw [takings_of_closed (by rw [hst])] at h
            cases h

/-- What holds of a state and of the calls taken up before it holds after a
run, if every call that is taken up keeps it and it is not about the queue. -/
theorem invariant_run_append (Inv : SessionState → List Taking → Prop)
    (hquiet : ∀ st xs approvals closed, Inv st xs →
      Inv { st with approvals := approvals, closed := closed } xs)
    (htake : ∀ x xs, x.Valid s → Inv x.found xs →
      Inv x.taken.state (xs ++ [x]))
    (h : Inv st xs) (actions : List SessionAction) :
    Inv (s.run st actions) (xs ++ s.takings st actions) := by
  induction actions generalizing st xs with
  | nil =>
      rw [takings, List.append_nil]
      exact h
  | cons action rest ih =>
      rw [takings, ← List.append_assoc]
      refine ih ?_
      cases hx : s.taking? st action with
      | none =>
          obtain ⟨approvals, closed, hst⟩ := act_of_taking?_eq_none hx
          rw [hst, Option.toList_none, List.append_nil]
          exact hquiet st xs approvals closed h
      | some x =>
          obtain ⟨hvalid, rfl, hst⟩ := taking?_eq_some hx
          rw [hst, Option.toList_some]
          exact htake x xs hvalid h

theorem invariant_run (Inv : SessionState → List Taking → Prop)
    (hquiet : ∀ st xs approvals closed, Inv st xs →
      Inv { st with approvals := approvals, closed := closed } xs)
    (htake : ∀ x xs, x.Valid s → Inv x.found xs →
      Inv x.taken.state (xs ++ [x]))
    (h : Inv st []) (actions : List SessionAction) :
    Inv (s.run st actions) (s.takings st actions) :=
  invariant_run_append Inv hquiet htake h actions

theorem valid_of_mem_takings (hx : x ∈ s.takings st actions) :
    x.Valid s := by
  have hvalid : ∀ x ∈ s.takings st actions, x.Valid s := by
    refine invariant_run (fun _ xs => ∀ x ∈ xs, x.Valid s)
      (fun _ _ _ _ h => h) ?_ (fun x hx => by cases hx) actions
    intro y ys hy hys x hx
    rcases List.mem_append.1 hx with hx | hx
    · exact hys x hx
    · exact List.mem_singleton.1 hx ▸ hy
  exact hvalid x hx

/-- The calls that a run takes up have the next numbers. -/
theorem sequences_takings (s : SessionSetup) (st : SessionState)
    (actions : List SessionAction) :
    (s.takings st actions).map (·.taken.request.sequence) =
      List.range' (st.sequence + 1) (s.takings st actions).length := by
  refine (invariant_run
    (fun last xs => last.sequence = st.sequence + xs.length ∧
      xs.map (·.taken.request.sequence) =
        List.range' (st.sequence + 1) xs.length)
    (fun _ _ _ _ h => h) ?_ ⟨rfl, rfl⟩ actions).2
  rintro x xs hx ⟨hlast, hxs⟩
  obtain ⟨spec, members, e, htakes⟩ := take_eq_ok hx
  constructor
  · rw [htakes.state_sequence, hlast, List.length_append]
    rfl
  · rw [List.map_append, hxs, List.length_append, List.length_singleton,
      List.range'_concat, List.map_singleton, htakes.request_sequence, hlast]
    congr 2
    omega

end SessionSetup

/-! ## What adapters had to do with a call -/

namespace Taking

variable {s : SessionSetup} {x : Taking} {mode : Mode}

/-- The operation of the call goes to an adapter. -/
def ForAdapter (s : SessionSetup) (x : Taking) : Prop :=
  ∃ spec, s.registry.get? x.operation = some spec ∧ spec.route = .adapter

/-- What the adapter makes of the call in the world that the call found. -/
def served (s : SessionSetup) (x : Taking) : Outcome × World :=
  s.adapters.execute s.config.seed x.taken.request x.found.world

/-- An adapter served the call: it was let through, and the response, the world
and what is recorded are what the adapter made of it. -/
structure ServedIn (s : SessionSetup) (x : Taking) (mode : Mode) : Prop where
  mode_eq : mode = s.adapters.modeOf x.taken.request
  forAdapter : x.ForAdapter s
  allowed : x.taken.executed.decision.action = .allow
  response_eq : x.taken.executed.response =
    .ofOutcome x.taken.request.sequence x.taken.request.fingerprint
      (x.served s).1
  world_eq : x.taken.state.world = (x.served s).2
  fixtures_eq : x.taken.state.fixtures =
    if mode = .replay then x.found.fixtures
    else x.found.fixtures.insert x.taken.request.fingerprint (x.served s).1

theorem Valid.servedIn (h : x.Valid s)
    (hmode : x.taken.executed.mode = some mode) : x.ServedIn s mode := by
  obtain ⟨spec, members, e, htakes⟩ := SessionSetup.take_eq_ok h
  have hexecuted := htakes.executed_eq
  have hstate := htakes.state_eq
  rw [htakes.execution_eq] at hexecuted hstate
  obtain ⟨hroute, hallow⟩ := SessionSetup.execute_of_served
    (by rw [← hexecuted, hmode]; rfl)
  rw [hroute, SessionSetup.execute,
    SessionSetup.executeGated_of_allowed hallow] at hexecuted hstate
  rw [hexecuted] at hmode
  have hmode' := (Option.some.inj hmode).symm
  refine ⟨hmode', ⟨spec, htakes.spec_eq, hroute⟩, ?_, ?_, ?_, ?_⟩
  · rw [hexecuted]
    exact hallow
  · rw [hexecuted]
    dsimp only
    rw [(SessionSetup.serve_eq_execute s x.taken.request _).1]
    rfl
  · rw [hstate]
    exact (SessionSetup.serve_eq_execute s x.taken.request _).2
  · rw [hstate, hmode', SessionSetup.serve]
    dsimp only
    split <;> rfl

/-- A call that no adapter served was not let through to one, and it left the
world and what is recorded as they were. -/
theorem Valid.unserved (h : x.Valid s)
    (hmode : x.taken.executed.mode = none) :
    ¬(x.ForAdapter s ∧ x.taken.executed.decision.action = .allow) ∧
      x.taken.state.world = x.found.world ∧
      x.taken.state.fixtures = x.found.fixtures := by
  obtain ⟨spec, members, e, htakes⟩ := SessionSetup.take_eq_ok h
  obtain ⟨hworld, hfixtures, -⟩ := htakes.of_unserved hmode
  refine ⟨?_, hworld, hfixtures⟩
  rintro ⟨⟨spec', hspec', hroute⟩, hallowed⟩
  have hsame : spec' = spec :=
    Option.some.inj (hspec'.symm.trans htakes.spec_eq)
  subst hsame
  have hexecuted := htakes.executed_eq
  rw [htakes.execution_eq, hroute, SessionSetup.execute] at hexecuted
  rw [hexecuted, SessionSetup.executeGated_decision] at hallowed
  rw [hexecuted, SessionSetup.executeGated_of_allowed hallowed] at hmode
  cases hmode

end Taking

end CallGate
