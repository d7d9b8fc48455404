import CallGate.Proofs.Episode.Blocking
import CallGate.Proofs.Session.Following

/-!
# Replaying an episode

An episode goes by what its session answers, by the approvals that wait and by
what it remembers itself.  It never sees the world behind the adapters.  A
session that follows another one agrees with it on all that an episode goes by,
so an episode takes the same turns with either.  Whatever callers do in
between, a recorded episode is then repeated by a session that replays it.
-/

namespace CallGate

/-- What an action on an episode and its session gives back. -/
inductive EpisodeAnswer where
  | ran (result : Except EpisodeError Progress)
  | called (result : Except DispatchError Dispatch)
  | closed (result : Except DispatchError SessionReport)
  | ended (result : Except EpisodeError EpisodeStatus)

namespace EpisodeCall

/-- The table has what was recorded of the call. -/
def KeptIn (table : Fixtures) (c : EpisodeCall) : Prop :=
  c.session.setup.KeptIn table c.session.state c.operation c.args

namespace Chain

variable {setup : SessionSetup} {st last : SessionState}
  {calls : List EpisodeCall} {table : Fixtures}

/-- A table that has what was recorded of the calls that a session takes up
has what was recorded of the calls of a chain. -/
theorem keptIn (h : Chain setup st calls last)
    (htable : ∀ x ∈ setup.takings st (calls.map action),
      table.get? x.taken.request.fingerprint =
        x.taken.state.fixtures.get? x.taken.request.fingerprint) :
    ∀ c ∈ calls, c.KeptIn table := by
  induction h with
  | nil =>
      intro c hc
      cases hc
  | @cons first rest _ hsetup _ ih =>
      intro c hc
      rw [List.map_cons, SessionSetup.takings] at htable
      rcases List.mem_cons.1 hc with rfl | hc
      · intro t ht
        rw [hsetup] at ht
        refine htable ⟨c.session.state, c.operation, c.args, t⟩
          (List.mem_append_left _ ?_)
        rw [action, SessionSetup.taking?, ht]
        exact List.mem_singleton_self _
      · exact ih (fun x hx => htable x (List.mem_append_right _ hx)) c hc

end Chain

end EpisodeCall

namespace Episode

open Session (Follows digestsApart_mails mailGranted)

variable {α : Type} {table : Fixtures} {e : Episode} {s s' : Session}
  {step : Step} {p p' : Episode × Session}

/-! ## Turns alike -/

/-- Two ends of a part of an episode that are the same but for the session,
which follows that of the first one in the second one. -/
structure Alike (table : Fixtures) (x x' : α × Episode × Session) :
    Prop where
  result_eq : x'.1 = x.1
  episode_eq : x'.2.1 = x.2.1
  follows : Follows table x.2.2 x'.2.2

theorem settleOn_alike (h : Follows table s s') (e : Episode) (step : Step)
    (verdict : Verdict) (sent : Option Sent) :
    Alike table (e.settleOn s step verdict sent)
      (e.settleOn s' step verdict sent) :=
  ⟨rfl, rfl, h.tell _ _⟩

theorem abort_alike (h : Follows table s s') (e : Episode) (step : Step)
    (error : DispatchError) :
    Alike table (e.abort s step error) (e.abort s' step error) :=
  ⟨rfl, rfl, h.tell _ _⟩

theorem attempt_alike (h : Follows table s s')
    (hkept : ∀ c ∈ e.attemptCalls s step, c.KeptIn table) :
    Alike table (e.attempt s step) (e.attempt s' step) := by
  let counted : Episode :=
    { e with state := { e.state with executions := e.state.executions + 1 } }
  have hcounted : counted.arguments step = e.arguments step := rfl
  rw [attempt, attempt]
  dsimp only
  cases hargs : e.arguments step with
  | error error =>
      rw [hcounted.trans hargs]
      exact settleOn_alike h counted step _ none
  | ok args =>
      rw [attemptCalls, hargs] at hkept
      have hcall := hkept (.attempt s step args) (List.mem_singleton_self _)
      obtain ⟨hanswer, hfollows⟩ := h.dispatch hcall
      rw [hcounted.trans hargs]
      dsimp only [EpisodeCall.operation, EpisodeCall.args,
        EpisodeCall.session] at hanswer hfollows ⊢
      generalize s.dispatch step.operation.id args = answered
        at hanswer hfollows ⊢
      generalize s'.dispatch step.operation.id args = answered'
        at hanswer hfollows ⊢
      obtain ⟨answer, next⟩ := answered
      obtain ⟨answer', next'⟩ := answered'
      cases hanswer
      cases answer with
      | ok d =>
          dsimp only
          rw [hfollows.pendingCount_eq]
          exact settleOn_alike hfollows _ step _ _
      | error error =>
          rcases error with ⟨_ | _ | _⟩ | _
          · exact abort_alike hfollows counted step _
          · exact settleOn_alike hfollows counted step _ none
          · exact settleOn_alike hfollows counted step _ none
          · exact abort_alike hfollows counted step _

theorem denyBlocking_alike {approval : String} {args : Json}
    (h : Follows table s s')
    (hkept : (EpisodeCall.denial s step args).KeptIn table) :
    Alike table (e.denyBlocking s step approval args)
      (e.denyBlocking s' step approval args) := by
  obtain ⟨hanswer, hfollows⟩ := h.dispatch hkept
  rw [denyBlocking, denyBlocking, Session.resolve, Session.resolve]
  dsimp only [EpisodeCall.operation, EpisodeCall.args, EpisodeCall.session]
    at hanswer hfollows
  generalize s.dispatch ApprovalControl.deny.id
    (Session.decisionArgs step.operation.id (some args)) = answered
    at hanswer hfollows ⊢
  generalize s'.dispatch ApprovalControl.deny.id
    (Session.decisionArgs step.operation.id (some args)) = answered'
    at hanswer hfollows ⊢
  obtain ⟨answer, next⟩ := answered
  obtain ⟨answer', next'⟩ := answered'
  cases hanswer
  cases answer with
  | ok d => exact settleOn_alike hfollows e step _ none
  | error error => exact abort_alike hfollows e step error

theorem blockedBy?_congr (h : Follows table s s') (e : Episode)
    (step : Step) : e.blockedBy? step s' = e.blockedBy? step s := by
  rw [blockedBy?, blockedBy?]
  simp only [h.blocking_eq]

theorem proceed_alike (h : Follows table s s')
    (hkept : ∀ c ∈ e.proceedCalls s step, c.KeptIn table) :
    Alike table (e.proceed s step) (e.proceed s' step) := by
  rw [proceedCalls] at hkept
  rw [proceed, proceed, blockedBy?_congr h]
  cases hblocked : e.blockedBy? step s with
  | some blocked =>
      obtain ⟨approval, args⟩ := blocked
      rw [hblocked] at hkept
      dsimp only at hkept ⊢
      cases hfallback : step.fallback with
      | some fallback =>
          cases fallback
          rw [hfallback] at hkept
          exact denyBlocking_alike h (hkept _ (List.mem_singleton_self _))
      | none => exact ⟨rfl, rfl, h.tell _ _⟩
  | none =>
      rw [hblocked] at hkept
      dsimp only at hkept ⊢
      by_cases hused : e.limits.maxExecutions ≤ e.state.executions
      · rw [if_pos hused, if_pos hused]
        exact ⟨rfl, rfl, h.tell _ _⟩
      · rw [if_neg hused] at hkept
        rw [if_neg hused, if_neg hused]
        exact attempt_alike h hkept

theorem turn_alike (h : Follows table s s')
    (hkept : ∀ c ∈ e.turnCalls s, c.KeptIn table) :
    Alike table (e.turn s) (e.turn s') := by
  rw [turnCalls] at hkept
  rw [turn, turn]
  by_cases hover : e.state.status.isTerminal = true
  · rw [if_pos hover, if_pos hover]
    exact ⟨rfl, rfl, h⟩
  · rw [if_neg hover] at hkept
    rw [if_neg hover, if_neg hover]
    cases hcurrent : e.state.current with
    | none =>
        dsimp only
        rw [h.pendingCount_eq]
        exact ⟨rfl, rfl, h.tell _ _⟩
    | some index =>
        rw [hcurrent] at hkept
        dsimp only at hkept ⊢
        cases hstep : e.workflow.steps[index]? with
        | none => exact ⟨rfl, rfl, h⟩
        | some step =>
            rw [hstep] at hkept
            dsimp only at hkept ⊢
            rw [h.echoes.approvals_eq]
            cases hresume : e.resume step s.state.approvals with
            | unknown approval => exact ⟨rfl, rfl, h⟩
            | waiting suspension => exact ⟨rfl, rfl, h⟩
            | settled settled events => exact ⟨rfl, rfl, h.tell _ _⟩
            | clear e' events =>
                rw [hresume] at hkept
                exact proceed_alike (h.tell events events) hkept

theorem turns_alike (fuel : Nat) (h : Follows table s s')
    (hkept : ∀ c ∈ turnsCalls fuel e s, c.KeptIn table) :
    Alike table (turns fuel e s) (turns fuel e s') := by
  induction fuel generalizing e s s' with
  | zero => exact ⟨rfl, rfl, h⟩
  | succ fuel ih =>
      rw [turnsCalls] at hkept
      have hturn := turn_alike h fun c hc =>
        hkept c (List.mem_append_left _ hc)
      rw [turns, turns]
      generalize e.turn s = taken at hkept hturn ⊢
      generalize e.turn s' = taken' at hturn ⊢
      obtain ⟨_ | _, e', after⟩ := taken
      · obtain ⟨next', e'', after'⟩ := taken'
        obtain ⟨hresult, hepisode, hfollows⟩ := hturn
        cases hresult
        cases hepisode
        exact ih hfollows fun c hc => hkept c (List.mem_append_right _ hc)
      · obtain ⟨next', e'', after'⟩ := taken'
        obtain ⟨hresult, hepisode, hfollows⟩ := hturn
        cases hresult
        cases hepisode
        exact ⟨rfl, rfl, hfollows⟩

/-- A run comes to the same with a session that follows. -/
theorem run_alike (h : Follows table s s')
    (hkept : ∀ c ∈ e.runCalls s, c.KeptIn table) :
    Alike table (e.run s) (e.run s') :=
  turns_alike e.maxTurns h hkept

theorem endEpisode_alike (h : Follows table s s') (e : Episode) :
    Alike table (e.endEpisode s) (e.endEpisode s') := by
  obtain ⟨hreport, hfollows⟩ := h.close
  rw [endEpisode, endEpisode]
  generalize s.close = closed at hreport hfollows ⊢
  generalize s'.close = closed' at hreport hfollows ⊢
  obtain ⟨report, after⟩ := closed
  obtain ⟨report', after'⟩ := closed'
  cases hreport
  cases report with
  | error error => exact ⟨rfl, rfl, hfollows.tell _ _⟩
  | ok report => exact ⟨rfl, rfl, hfollows.tell _ _⟩

/-! ## Scripts of actions -/

/-- What an action gives back. -/
def answer (p : Episode × Session) : EpisodeAction → EpisodeAnswer
  | .run => .ran (p.1.run p.2).1
  | .call operation args => .called (p.2.dispatch operation args).1
  | .close => .closed p.2.close.1
  | .endEpisode => .ended (p.1.endEpisode p.2).1

/-- What each of some actions gives back, with the state of the episode after
it. -/
def transcript (p : Episode × Session) :
    List EpisodeAction → List (EpisodeAnswer × EpisodeState)
  | [] => []
  | action :: rest =>
    (answer p action, (act p action).1.state) ::
      transcript (act p action) rest

/-- An action gives back the same when the episode is the same and the session
follows, and then they still are and do. -/
theorem act_alike (hepisode : p'.1 = p.1) (h : Follows table p.2 p'.2)
    (action : EpisodeAction)
    (htable : ∀ x ∈ p.2.setup.takings p.2.state (sessionActions p action),
      table.get? x.taken.request.fingerprint =
        x.taken.state.fixtures.get? x.taken.request.fingerprint) :
    answer p' action = answer p action ∧
      (act p' action).1 = (act p action).1 ∧
      Follows table (act p action).2 (act p' action).2 := by
  obtain ⟨e, s⟩ := p
  obtain ⟨e', s'⟩ := p'
  cases hepisode
  cases action with
  | run =>
      obtain ⟨hresult, hnext, hfollows⟩ :=
        run_alike h ((run_leads e s).chain.keptIn htable)
      exact ⟨congrArg EpisodeAnswer.ran hresult, hnext, hfollows⟩
  | call operation args =>
      have hkept : s.setup.KeptIn table s.state operation args := by
        intro t ht
        refine htable ⟨s.state, operation, args, t⟩
          (List.mem_append_left _ ?_)
        rw [SessionSetup.taking?, ht]
        exact List.mem_singleton_self _
      obtain ⟨hanswer, hfollows⟩ := h.dispatch hkept
      exact ⟨congrArg EpisodeAnswer.called hanswer, rfl, hfollows⟩
  | close =>
      obtain ⟨hreport, hfollows⟩ := h.close
      exact ⟨congrArg EpisodeAnswer.closed hreport, rfl, hfollows⟩
  | endEpisode =>
      obtain ⟨hresult, hnext, hfollows⟩ := endEpisode_alike h e
      exact ⟨congrArg EpisodeAnswer.ended hresult, hnext, hfollows⟩

/-- A whole script goes alike with a session that follows. -/
theorem play_alike (hepisode : p'.1 = p.1) (h : Follows table p.2 p'.2)
    (actions : List EpisodeAction)
    (htable : ∀ x ∈ p.2.setup.takings p.2.state (scriptActions p actions),
      table.get? x.taken.request.fingerprint =
        x.taken.state.fixtures.get? x.taken.request.fingerprint) :
    transcript p' actions = transcript p actions ∧
      (p'.1.play p'.2 actions).1 = (p.1.play p.2 actions).1 ∧
      Follows table (p.1.play p.2 actions).2
        (p'.1.play p'.2 actions).2 := by
  induction actions generalizing p p' with
  | nil => exact ⟨rfl, hepisode, h⟩
  | cons action rest ih =>
      rw [scriptActions, SessionSetup.takings_append] at htable
      obtain ⟨hanswer, hnext, hfollows⟩ := act_alike hepisode h action
        fun x hx => htable x (List.mem_append_left _ hx)
      obtain ⟨hsetup, hstate⟩ := act_session p action
      rw [← hstate, ← hsetup] at htable
      obtain ⟨hrest, hlast⟩ := ih hnext hfollows
        fun x hx => htable x (List.mem_append_right _ hx)
      refine ⟨?_, hlast⟩
      rw [transcript, transcript, hanswer, hnext, hrest]

/-- The table that the first session has recorded in the end will do, since
what is recorded of a call stays in it. -/
theorem play_alike_of_recorded (hepisode : p'.1 = p.1)
    (actions : List EpisodeAction)
    (h : Follows (p.1.play p.2 actions).2.state.fixtures p.2 p'.2)
    (hdigest : DigestsApart (p.2.setup.inputs
      (p.2.setup.takings p.2.state (scriptActions p actions)))) :
    transcript p' actions = transcript p actions ∧
      (p'.1.play p'.2 actions).1 = (p.1.play p.2 actions).1 ∧
      (p.1.play p.2 actions).2.state.Echoes
        (p'.1.play p'.2 actions).2.state := by
  have htable := SessionSetup.fixtures_run_get? hdigest
  rw [← (play_session p actions).2] at htable
  obtain ⟨htranscript, hlast, hfollows⟩ :=
    play_alike hepisode h actions htable
  exact ⟨htranscript, hlast, hfollows.echoes⟩

/-- An episode is repeated by a session that replays what was recorded of it:
with the same gate, sink and clock, and whatever the world is, the same actions
give back the same and leave the episode in the same states, and the log and
the queue are the same in the end.  Runs, decisions and other calls may come in
any order, and the session or the episode may be ended at any time. -/
theorem replayed_episode_goes_alike
    {recording replaying : SessionSetup}
    (hsame : recording.SameGate replaying)
    (hid : replaying.config.id = recording.config.id)
    (hrecording : ∀ service, recording.config.modes.of service ≠ .replay)
    (hreplaying : replaying.config.modes = .uniform .replay)
    (w : Workflow) (limits : EpisodeLimits) (snapshot snapshot' : Json)
    (clock : Clock) (sink : ReceiptSink) (actions : List EpisodeAction)
    (hrecorded : replaying.recorded =
      ((start w limits).play (.start recording snapshot clock sink)
        actions).2.state.fixtures)
    (hdigest : DigestsApart (recording.inputs (recording.takings
      (.start recording.config snapshot clock)
      (scriptActions
        (start w limits, .start recording snapshot clock sink) actions)))) :
    let first :=
      (start w limits, Session.start recording snapshot clock sink)
    let second :=
      (start w limits, Session.start replaying snapshot' clock sink)
    let last := first.1.play first.2 actions
    let last' := second.1.play second.2 actions
    transcript second actions = transcript first actions ∧
      last'.1 = last.1 ∧
      last'.2.state.receipts = last.2.state.receipts ∧
      last'.2.state.approvals = last.2.state.approvals ∧
      last'.2.state.fixtures = KeyMap.empty := by
  intro first second last last'
  have hfollows : Follows replaying.recorded first.2 second.2 :=
    Session.follows_start ⟨hsame, hrecording, hreplaying⟩ hid snapshot
      snapshot' clock sink
  rw [hrecorded] at hfollows
  have hbegin : second.1 = first.1 := rfl
  obtain ⟨htranscript, hepisode, hechoes⟩ :=
    play_alike_of_recorded hbegin actions hfollows hdigest
  exact ⟨htranscript, hepisode, hechoes.receipts_eq, hechoes.approvals_eq,
    hechoes.fixtures_eq⟩

/-- Two mails that an episode sends are sent again by replaying. -/
theorem mail_episode_replayed :
    let session :=
      Session.start (mailSetup mailGranted) .null (.logical 0) .none
    let actions : List EpisodeAction := [.run, .close, .endEpisode]
    let last := (start mailWorkflow {}).play session actions
    let replaying : SessionSetup :=
      { config := { policy := mailGranted, modes := .uniform .replay }
        registry := mailRegistry
        recorded := last.2.state.fixtures }
    let replayer := Session.start replaying .null (.logical 0) .none
    last.1.state.history.map (·.sequence) = [some 1, some 2] ∧
      last.1.state.status = .succeeded ∧
      transcript (start mailWorkflow {}, replayer) actions =
        transcript (start mailWorkflow {}, session) actions := by
  intro session actions last replaying replayer
  have hplayed : last.1.state.history.map (·.sequence) = [some 1, some 2] ∧
      last.1.state.status = .succeeded := by
    decide +kernel
  have hrequests : ((mailSetup mailGranted).takings session.state
        (scriptActions (start mailWorkflow {}, session) actions)).map
          (fun x => (x.taken.request.sequence, x.taken.request.operation,
            x.taken.request.args)) =
      [(1, mailSend, []), (2, mailSend, [])] := by
    decide +kernel
  have hinputs := congrArg
    (List.map fun r => fingerprintText 42042 r.1 r.2.1 r.2.2) hrequests
  rw [List.map_map] at hinputs
  have hdigest : DigestsApart ((mailSetup mailGranted).inputs
      ((mailSetup mailGranted).takings session.state
        (scriptActions (start mailWorkflow {}, session) actions))) := by
    rw [SessionSetup.inputs]
    exact Eq.mpr (congrArg DigestsApart hinputs) digestsApart_mails
  have hsame : (mailSetup mailGranted).SameGate replaying := ⟨rfl, rfl, rfl⟩
  have hrecording : ∀ service,
      (mailSetup mailGranted).config.modes.of service ≠ .replay := by
    intro service h
    cases h
  dsimp only [last, replaying, replayer, session] at hplayed hdigest hsame ⊢
  have hreplayed := replayed_episode_goes_alike hsame rfl hrecording rfl
    mailWorkflow {} .null .null (.logical 0) .none actions rfl hdigest
  exact ⟨hplayed.1, hplayed.2, hreplayed.1⟩

end Episode

end CallGate
