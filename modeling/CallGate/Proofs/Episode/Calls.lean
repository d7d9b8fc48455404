import CallGate.Episode.Run
import CallGate.Proofs.Session.Runs

/-!
# The calls of an episode

A run of an episode is a sequence of calls to its session, with decisions of
the episode in between.  The sequence is written down here beside the run: each
call with the session as it is just before it.  That nothing is left out is
said by `Chain`: the calls, made one after the other, lead from the session
before the run to the session after it.
-/

namespace CallGate

/-- A call that an episode makes, with the session just before it. -/
inductive EpisodeCall where
  /-- The call of a step. -/
  | attempt (session : Session) (step : Step) (args : Json)
  /-- The denial of what the call of a step waits for. -/
  | denial (session : Session) (step : Step) (args : Json)

namespace EpisodeCall

def session : EpisodeCall → Session
  | .attempt session _ _ | .denial session _ _ => session

def step : EpisodeCall → Step
  | .attempt _ step _ | .denial _ step _ => step

/-- The operation that is called. -/
def operation : EpisodeCall → OperationId
  | .attempt _ step _ => step.operation.id
  | .denial _ _ _ => ApprovalControl.deny.id

/-- The arguments that are sent. -/
def args : EpisodeCall → Json
  | .attempt _ _ args => args
  | .denial _ step args =>
    Session.decisionArgs step.operation.id (some args)

def action (c : EpisodeCall) : SessionAction := .call c.operation c.args

/-- Calls that are made one after the other, from one state of a session to
another. -/
inductive Chain (setup : SessionSetup) :
    SessionState → List EpisodeCall → SessionState → Prop where
  | nil (st : SessionState) : Chain setup st [] st
  | cons {c : EpisodeCall} {calls : List EpisodeCall} {last : SessionState}
      (hsetup : c.session.setup = setup)
      (hrest : Chain setup (setup.act c.session.state c.action) calls last) :
      Chain setup c.session.state (c :: calls) last

namespace Chain

variable {setup : SessionSetup} {st middle last : SessionState}
  {calls more : List EpisodeCall}

theorem single (c : EpisodeCall) :
    Chain c.session.setup c.session.state [c]
      (c.session.setup.act c.session.state c.action) :=
  .cons rfl (.nil _)

theorem append (h : Chain setup st calls middle)
    (hmore : Chain setup middle more last) :
    Chain setup st (calls ++ more) last := by
  induction h with
  | nil => exact hmore
  | cons hsetup _ ih => exact .cons hsetup (ih hmore)

/-- The queue is in order before every call and after the last one. -/
theorem orderly (h : Chain setup st calls last) (hst : setup.Orderly st) :
    setup.Orderly last ∧
      ∀ c ∈ calls, c.session.setup = setup ∧
        setup.Orderly c.session.state := by
  induction h with
  | nil => exact ⟨hst, fun c hc => by cases hc⟩
  | @cons first _ _ hsetup _ ih =>
      obtain ⟨hlast, hcalls⟩ := ih (hst.act first.action)
      refine ⟨hlast, fun c hc => ?_⟩
      rcases List.mem_cons.1 hc with rfl | hc
      · exact ⟨hsetup, hst⟩
      · exact hcalls c hc

/-- The calls of a chain are a run of the session. -/
theorem last_eq (h : Chain setup st calls last) :
    last = setup.run st (calls.map action) := by
  induction h with
  | nil => rfl
  | cons _ _ ih => exact ih

end Chain

end EpisodeCall

namespace Episode

open EpisodeCall (Chain)

/-! ## What is called -/

/-- The call of an attempt. -/
def attemptCalls (e : Episode) (s : Session) (step : Step) :
    List EpisodeCall :=
  match e.arguments step with
  | .error _ => []
  | .ok args => [.attempt s step args]

/-- The call that is made when a step is gone on with. -/
def proceedCalls (e : Episode) (s : Session) (step : Step) :
    List EpisodeCall :=
  match e.blockedBy? step s with
  | some (_, args) =>
    match step.fallback with
    | some .autoDeny => [.denial s step args]
    | none => []
  | none =>
    if e.limits.maxExecutions ≤ e.state.executions then []
    else e.attemptCalls s step

/-- The call of a turn. -/
def turnCalls (e : Episode) (s : Session) : List EpisodeCall :=
  if e.state.status.isTerminal then []
  else
    match e.state.current with
    | none => []
    | some index =>
      match e.workflow.steps[index]? with
      | none => []
      | some step =>
        match e.resume step s.state.approvals with
        | .unknown _ | .waiting _ | .settled _ _ => []
        | .clear e events => e.proceedCalls (s.tell events) step

/-- The calls of turns up to a number. -/
def turnsCalls : Nat → Episode → Session → List EpisodeCall
  | 0, _, _ => []
  | fuel + 1, e, s =>
    e.turnCalls s ++
      match e.turn s with
      | (.over _, _, _) => []
      | (.onward, e, s) => turnsCalls fuel e s

/-- The calls of a run. -/
def runCalls (e : Episode) (s : Session) : List EpisodeCall :=
  turnsCalls e.maxTurns e s

variable {e : Episode} {s : Session} {step : Step}

/-! ## What is kept -/

theorem terminate_workflow (e : Episode) (status : EpisodeStatus)
    (reason : EndReason) (id : Option String) :
    (e.terminate status reason id).1.workflow = e.workflow := rfl

theorem settle_workflow (e : Episode) (step : Step) (verdict : Verdict)
    (sent : Option Sent) :
    (e.settle step verdict sent).1.workflow = e.workflow := by
  rw [settle]
  dsimp only
  split
  · rfl
  · exact terminate_workflow _ _ _ _

theorem finish_workflow (e : Episode) (pending : Nat) :
    (e.finish pending).1.workflow = e.workflow := by
  rw [finish]
  split
  · exact terminate_workflow _ _ _ _
  · split <;> exact terminate_workflow _ _ _ _

theorem expire_workflow (e : Episode) :
    e.expire.1.workflow = e.workflow := by
  rw [expire]
  split <;> exact terminate_workflow _ _ _ _

/-- What comes of a part of a run: the calls lead to the session, which has
the same setup, and the episode has the same workflow. -/
structure Leads (e : Episode) (s : Session) (calls : List EpisodeCall)
    (e' : Episode) (s' : Session) : Prop where
  chain : Chain s.setup s.state calls s'.state
  setup_eq : s'.setup = s.setup
  workflow_eq : e'.workflow = e.workflow

/-- A call that was made leads to where dispatching it leads. -/
theorem Leads.of_call {e e' : Episode} {s' : Session} (c : EpisodeCall)
    (hsetup : s'.setup = c.session.setup)
    (hstate : s'.state =
      (c.session.dispatch c.operation c.args).2.state)
    (hworkflow : e'.workflow = e.workflow) :
    Leads e c.session [c] e' s' where
  chain := by
    rw [hstate]
    have hact := (Session.act_eq c.session c.action).2
    rw [EpisodeCall.action, Session.act] at hact
    rw [hact]
    exact .single c
  setup_eq := hsetup
  workflow_eq := hworkflow

theorem Leads.of_none {e e' : Episode} {s s' : Session}
    (hsetup : s'.setup = s.setup) (hstate : s'.state = s.state)
    (hworkflow : e'.workflow = e.workflow) : Leads e s [] e' s' where
  chain := by
    rw [hstate]
    exact .nil _
  setup_eq := hsetup
  workflow_eq := hworkflow

theorem Leads.trans {e e' e'' : Episode} {s s' s'' : Session}
    {calls more : List EpisodeCall} (h : Leads e s calls e' s')
    (hmore : Leads e' s' more e'' s'') :
    Leads e s (calls ++ more) e'' s'' where
  chain := h.chain.append (h.setup_eq ▸ hmore.chain)
  setup_eq := hmore.setup_eq.trans h.setup_eq
  workflow_eq := hmore.workflow_eq.trans h.workflow_eq

/-! ## Where the calls lead -/

theorem settleOn_workflow (e : Episode) (s : Session) (step : Step)
    (verdict : Verdict) (sent : Option Sent) :
    (e.settleOn s step verdict sent).2.1.workflow = e.workflow :=
  settle_workflow e step verdict sent

theorem abort_workflow (e : Episode) (s : Session) (step : Step)
    (error : DispatchError) :
    (e.abort s step error).2.1.workflow = e.workflow := rfl

theorem dispatch_setup (s : Session) (operation : OperationId)
    (args : Json) : (s.dispatch operation args).2.setup = s.setup :=
  (Session.act_eq s (.call operation args)).1

theorem attempt_leads (e : Episode) (s : Session) (step : Step) :
    Leads e s (e.attemptCalls s step) (e.attempt s step).2.1
      (e.attempt s step).2.2 := by
  let counted : Episode :=
    { e with state := { e.state with executions := e.state.executions + 1 } }
  have hcounted : counted.arguments step = e.arguments step := rfl
  cases hargs : e.arguments step with
  | error error =>
      have hattempt : e.attempt s step = counted.settleOn s step
          (.assertionFailed [error.message]) none := by
        rw [attempt]
        dsimp only
        rw [hcounted.trans hargs]
      rw [attemptCalls, hargs, hattempt]
      exact .of_none rfl rfl (settleOn_workflow counted s step _ none)
  | ok args =>
      have hcalls : e.attemptCalls s step = [.attempt s step args] := by
        rw [attemptCalls, hargs]
      have hsetup := dispatch_setup s step.operation.id args
      have hcall : ∀ {e' s'}, s'.setup = s.setup →
          s'.state = (s.dispatch step.operation.id args).2.state →
          e'.workflow = e.workflow →
          Leads e s [.attempt s step args] e' s' := fun hs hst hw =>
        Leads.of_call (.attempt s step args) hs hst hw
      rw [hcalls, attempt]
      dsimp only
      rw [hcounted.trans hargs]
      dsimp only
      generalize s.dispatch step.operation.id args = answered
        at hsetup hcall ⊢
      obtain ⟨answer, s'⟩ := answered
      cases answer with
      | ok d => exact hcall hsetup rfl (settleOn_workflow _ s' step _ _)
      | error error =>
          rcases error with ⟨_ | _ | _⟩ | _
          · exact hcall hsetup rfl (abort_workflow counted s' step _)
          · exact hcall hsetup rfl (settleOn_workflow counted s' step _ _)
          · exact hcall hsetup rfl (settleOn_workflow counted s' step _ _)
          · exact hcall hsetup rfl (abort_workflow counted s' step _)

theorem denyBlocking_leads (e : Episode) (s : Session) (step : Step)
    (approval : String) (args : Json) :
    Leads e s [.denial s step args]
      (e.denyBlocking s step approval args).2.1
      (e.denyBlocking s step approval args).2.2 := by
  let sent := Session.decisionArgs step.operation.id (some args)
  have hsetup := dispatch_setup s ApprovalControl.deny.id sent
  have hcall : ∀ {e' s'}, s'.setup = s.setup →
      s'.state = (s.dispatch ApprovalControl.deny.id sent).2.state →
      e'.workflow = e.workflow →
      Leads e s [.denial s step args] e' s' := fun hs hst hw =>
    Leads.of_call (.denial s step args) hs hst hw
  rw [denyBlocking, Session.resolve]
  change Leads e s [.denial s step args] _ _
  generalize s.dispatch ApprovalControl.deny.id sent = answered
    at hsetup hcall ⊢
  obtain ⟨answer, s'⟩ := answered
  cases answer with
  | ok d => exact hcall hsetup rfl (settleOn_workflow e s' step _ _)
  | error error => exact hcall hsetup rfl (abort_workflow e s' step error)

theorem proceed_leads (e : Episode) (s : Session) (step : Step) :
    Leads e s (e.proceedCalls s step) (e.proceed s step).2.1
      (e.proceed s step).2.2 := by
  rw [proceed, proceedCalls]
  cases e.blockedBy? step s with
  | some blocked =>
      obtain ⟨approval, args⟩ := blocked
      dsimp only
      cases step.fallback with
      | some fallback =>
          cases fallback
          exact denyBlocking_leads e s step approval args
      | none => exact .of_none rfl rfl rfl
  | none =>
      dsimp only
      split
      · exact .of_none rfl rfl rfl
      · exact attempt_leads e s step

theorem resume_clear_workflow {e e' : Episode} {events : List AuditEvent}
    {queue : Approval.Queue} (h : e.resume step queue = .clear e' events) :
    e'.workflow = e.workflow := by
  rw [resume] at h
  split at h
  · cases h
    rfl
  · split at h
    · cases h
    · split at h
      · cases h
      · cases h
        rfl
      · cases h
      · cases h

theorem resume_settled_workflow {e e' : Episode} {events : List AuditEvent}
    {queue : Approval.Queue} (h : e.resume step queue = .settled e' events) :
    e'.workflow = e.workflow := by
  have hsettle (verdict : Verdict) :
      (e.awake.settle step verdict none).1.workflow = e.workflow :=
    settle_workflow e.awake step verdict none
  rw [resume] at h
  cases hsuspended : e.state.suspended with
  | none =>
      rw [hsuspended] at h
      cases h
  | some s =>
      rw [hsuspended] at h
      dsimp only at h
      cases hget : queue.get? s.approval with
      | none =>
          rw [hget] at h
          cases h
      | some a =>
          rw [hget] at h
          dsimp only at h
          cases hresolution : a.resolution with
          | unresolved =>
              rw [hresolution] at h
              cases h
          | approved =>
              rw [hresolution] at h
              cases h
          | denied =>
              rw [hresolution] at h
              have hs := hsettle (.approvalDenied s.approval)
              dsimp only at h
              generalize e.awake.settle step (.approvalDenied s.approval)
                none = settled at h hs
              cases h
              exact hs
          | expired =>
              rw [hresolution] at h
              have hs := hsettle (.approvalExpired s.approval)
              dsimp only at h
              generalize e.awake.settle step (.approvalExpired s.approval)
                none = settled at h hs
              cases h
              exact hs

theorem turn_leads (e : Episode) (s : Session) :
    Leads e s (e.turnCalls s) (e.turn s).2.1 (e.turn s).2.2 := by
  rw [turn, turnCalls]
  by_cases hover : e.state.status.isTerminal = true
  · rw [if_pos hover, if_pos hover]
    exact .of_none rfl rfl rfl
  · rw [if_neg hover, if_neg hover]
    cases e.state.current with
    | none => exact .of_none rfl rfl (finish_workflow e s.pendingCount)
    | some index =>
        dsimp only
        cases e.workflow.steps[index]? with
        | none => exact .of_none rfl rfl rfl
        | some step =>
            dsimp only
            cases hresume : e.resume step s.state.approvals with
            | unknown approval => exact .of_none rfl rfl rfl
            | waiting suspension => exact .of_none rfl rfl rfl
            | settled settled events =>
                exact .of_none rfl rfl (resume_settled_workflow hresume)
            | clear e' events =>
                have hnone : Leads e s [] e' (s.tell events) :=
                  .of_none rfl rfl (resume_clear_workflow hresume)
                exact hnone.trans (proceed_leads e' (s.tell events) step)

theorem turns_leads (fuel : Nat) (e : Episode) (s : Session) :
    Leads e s (turnsCalls fuel e s) (turns fuel e s).2.1
      (turns fuel e s).2.2 := by
  induction fuel generalizing e s with
  | zero => exact .of_none rfl rfl rfl
  | succ fuel ih =>
      rw [turns, turnsCalls]
      have hturn := turn_leads e s
      generalize e.turn s = taken at hturn ⊢
      obtain ⟨_ | _, e', s'⟩ := taken
      · exact hturn.trans (ih e' s')
      · exact hturn.trans (.of_none rfl rfl rfl)

/-- The calls of a run lead from the session before it to the one after it. -/
theorem run_leads (e : Episode) (s : Session) :
    Leads e s (e.runCalls s) (e.run s).2.1 (e.run s).2.2 :=
  turns_leads e.maxTurns e s

theorem endEpisode_eq (e : Episode) (s : Session) :
    (e.endEpisode s).2.1.workflow = e.workflow ∧
      (e.endEpisode s).2.2.setup = s.setup ∧
      (e.endEpisode s).2.2.state = s.setup.act s.state .close := by
  obtain ⟨hsetup, hstate⟩ := Session.act_eq s .close
  rw [Session.act] at hsetup hstate
  have hexpired : (if e.state.status.isTerminal then (e, [])
      else e.expire).1.workflow = e.workflow := by
    split
    · rfl
    · exact expire_workflow e
  rw [endEpisode]
  generalize (if e.state.status.isTerminal then (e, []) else e.expire) =
    ended at hexpired ⊢
  generalize s.close = closed at hsetup hstate ⊢
  obtain ⟨_ | _, s'⟩ := closed <;> exact ⟨hexpired, hsetup, hstate⟩

end Episode

/-! ## Episodes beside other calls -/

/-- What happens to an episode and its session: a run of the episode, calls
that others make in between, and the end of either. -/
inductive EpisodeAction where
  | run
  | call (operation : OperationId) (args : Json)
  | close
  | endEpisode

namespace Episode

/-- The episode and the session after an action. -/
def act (p : Episode × Session) : EpisodeAction → Episode × Session
  | .run => (p.1.run p.2).2
  | .call operation args => (p.1, (p.2.dispatch operation args).2)
  | .close => (p.1, p.2.close.2)
  | .endEpisode => (p.1.endEpisode p.2).2

/-- The episode and the session after some actions. -/
def play (e : Episode) (s : Session) (actions : List EpisodeAction) :
    Episode × Session :=
  actions.foldl act (e, s)

/-- An episode of a workflow with a session of a setup whose queue is in
order. -/
structure Plays (w : Workflow) (setup : SessionSetup)
    (p : Episode × Session) : Prop where
  workflow_eq : p.1.workflow = w
  setup_eq : p.2.setup = setup
  orderly : setup.Orderly p.2.state

theorem plays_start (w : Workflow) (limits : EpisodeLimits)
    (setup : SessionSetup) (snapshot : Json) (clock : Clock)
    (sink : ReceiptSink) :
    Plays w setup (start w limits, .start setup snapshot clock sink) where
  workflow_eq := rfl
  setup_eq := rfl
  orderly := setup.orderly_start snapshot clock

theorem Plays.act {w : Workflow} {setup : SessionSetup}
    {p : Episode × Session} (h : Plays w setup p) (action : EpisodeAction) :
    Plays w setup (Episode.act p action) := by
  obtain ⟨e, s⟩ := p
  obtain ⟨hworkflow, rfl, horderly⟩ := h
  cases action with
  | run =>
      have hrun := run_leads e s
      exact ⟨hrun.workflow_eq.trans hworkflow, hrun.setup_eq,
        (hrun.chain.orderly horderly).1⟩
  | call operation args =>
      obtain ⟨hsetup, hstate⟩ := Session.act_eq s (.call operation args)
      exact ⟨hworkflow, hsetup, hstate ▸ horderly.act _⟩
  | close =>
      obtain ⟨hsetup, hstate⟩ := Session.act_eq s .close
      exact ⟨hworkflow, hsetup, hstate ▸ horderly.act _⟩
  | endEpisode =>
      obtain ⟨hended, hsetup, hstate⟩ := endEpisode_eq e s
      exact ⟨hended.trans hworkflow, hsetup, hstate ▸ horderly.act _⟩

theorem Plays.play {w : Workflow} {setup : SessionSetup} {e : Episode}
    {s : Session} (h : Plays w setup (e, s)) (actions : List EpisodeAction) :
    Plays w setup (e.play s actions) := by
  rw [Episode.play]
  generalize (e, s) = p at h ⊢
  induction actions generalizing p with
  | nil => exact h
  | cons action rest ih => exact ih _ (h.act action)

/-! ## The session beside the episode -/

/-- What an action does to the session. -/
def sessionActions (p : Episode × Session) :
    EpisodeAction → List SessionAction
  | .run => (p.1.runCalls p.2).map EpisodeCall.action
  | .call operation args => [.call operation args]
  | .close | .endEpisode => [.close]

/-- What some actions do to the session, the calls of the episode and those of
others in the order in which they are made. -/
def scriptActions (p : Episode × Session) :
    List EpisodeAction → List SessionAction
  | [] => []
  | action :: rest =>
    sessionActions p action ++ scriptActions (act p action) rest

theorem act_session (p : Episode × Session) (action : EpisodeAction) :
    (act p action).2.setup = p.2.setup ∧
      (act p action).2.state =
        p.2.setup.run p.2.state (sessionActions p action) := by
  cases action with
  | run =>
      have hrun := run_leads p.1 p.2
      exact ⟨hrun.setup_eq, hrun.chain.last_eq⟩
  | call operation args => exact Session.act_eq p.2 (.call operation args)
  | close => exact Session.act_eq p.2 .close
  | endEpisode => exact (endEpisode_eq p.1 p.2).2

theorem play_session (p : Episode × Session)
    (actions : List EpisodeAction) :
    (p.1.play p.2 actions).2.setup = p.2.setup ∧
      (p.1.play p.2 actions).2.state =
        p.2.setup.run p.2.state (scriptActions p actions) := by
  induction actions generalizing p with
  | nil => exact ⟨rfl, rfl⟩
  | cons action rest ih =>
      obtain ⟨hsetup, hstate⟩ := act_session p action
      obtain ⟨hsetup', hstate'⟩ := ih (act p action)
      refine ⟨hsetup'.trans hsetup, hstate'.trans ?_⟩
      rw [hsetup, hstate, scriptActions, SessionSetup.run, SessionSetup.run,
        SessionSetup.run, List.foldl_append]

end Episode

end CallGate
