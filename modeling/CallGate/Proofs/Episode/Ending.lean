import CallGate.Proofs.Episode.Budget
import CallGate.Proofs.Episode.Consistency
import CallGate.Proofs.Session.Closing

/-!
# The end of an episode

Ending an episode closes the session first and flushes its sink, and whether
that went well is reported last.  The report has no say in what becomes of the
episode and the session: the session is closed, nothing waits in it, and the
episode is over.  An episode that is over makes no call, and a closed session
takes up none, so both stay as they are whatever is done with them later.
-/

namespace CallGate

namespace Episode

variable {w : Workflow} {limits : EpisodeLimits} {e : Episode} {s : Session}
  {p : Episode × Session}

/-! ## What becomes of the episode -/

/-- The attempts that ending an episode adds: one of the step that waits, if
there is one. -/
def expiredAttempts (e : Episode) : List Attempt :=
  e.state.suspended.toList.map e.expiredAttempt

theorem expire_eq_aborted (e : Episode) :
    e.expire.1 =
      { e with
        state := { e.state with
          status := .aborted
          reason := some .episodeTimeout
          suspended := none
          history := e.state.history ++ e.expiredAttempts } } := by
  cases hsuspended : e.state.suspended with
  | none =>
      rw [expiredAttempts, hsuspended, Option.toList_none, List.map_nil,
        List.append_nil]
      obtain ⟨w, limits, st, data⟩ := e
      cases st
      cases hsuspended
      rfl
  | some suspension =>
      rw [expire_of_suspended hsuspended, expiredAttempts, hsuspended]
      rfl

/-- The report on the end of an episode: how the episode stands, unless the
sink refused to be flushed. -/
def endReport (e : Episode) (sink : ReceiptSink) :
    Except EpisodeError EpisodeStatus :=
  match sink.flush.refusal with
  | none => .ok e.state.status
  | some error => .error (.dispatch (.persistence error))

theorem endEpisode_report (e : Episode) (s : Session) :
    (e.endEpisode s).1 = (e.endEpisode s).2.1.endReport s.sink := by
  rw [endEpisode, Session.close, endReport]
  dsimp only
  cases s.sink.flush.refusal <;> rfl

/-! ## Episodes that are over -/

theorem runCalls_of_over (h : e.state.status ≠ .running) (s : Session) :
    e.runCalls s = [] := by
  obtain ⟨-, hcalls⟩ := run_eq_of_turn_over (turn_of_over h s)
  rw [hcalls, turnCalls, if_pos (EpisodeStatus.isTerminal_iff.2 h)]

theorem playCalls_of_over (h : p.1.state.status ≠ .running)
    (actions : List EpisodeAction) : playCalls p actions = [] := by
  induction actions generalizing p with
  | nil => rfl
  | cons action rest ih =>
      have hcalls : actCalls p action = [] := by
        cases action with
        | run => exact runCalls_of_over h p.2
        | call operation args => rfl
        | close => rfl
        | endEpisode => rfl
      rw [playCalls, hcalls, ih (act_of_over h action ▸ h)]
      rfl

/-- An episode that is over stays as it is, and so does its closed session.
No call is made, a run reports how the episode ended, and so does another end
of it unless the sink refuses to be flushed. -/
structure Rests (p : Episode × Session) : Prop where
  run_eq : p.1.run p.2 = (.ok (.finished p.1.state.status), p)
  runCalls_eq : p.1.runCalls p.2 = []
  end_report : (p.1.endEpisode p.2).1 = p.1.endReport p.2.sink
  end_episode : (p.1.endEpisode p.2).2.1 = p.1
  end_state : (p.1.endEpisode p.2).2.2.state = p.2.state

theorem rests_of_over (hover : p.1.state.status ≠ .running)
    (hclosed : p.2.state.closed = true) : Rests p := by
  have hsame := endEpisode_of_over hover p.2
  refine ⟨run_of_over hover p.2, runCalls_of_over hover p.2, ?_, hsame, ?_⟩
  · rw [endEpisode_report, hsame]
  · rw [(endEpisode_eq p.1 p.2).2.2, SessionSetup.act_of_closed hclosed]

/-- Whatever is done with an episode that is over and its closed session, both
stay as they are and no call is made. -/
theorem play_rests (hover : p.1.state.status ≠ .running)
    (hclosed : p.2.state.closed = true) (actions : List EpisodeAction) :
    (p.1.play p.2 actions).1 = p.1 ∧
      (p.1.play p.2 actions).2.state = p.2.state ∧
      playCalls p actions = [] ∧ Rests (p.1.play p.2 actions) := by
  have hsame := play_of_over hover actions
  have hstate : (p.1.play p.2 actions).2.state = p.2.state := by
    rw [(play_session p actions).2, SessionSetup.run_of_closed hclosed]
  refine ⟨hsame, hstate, playCalls_of_over hover actions, rests_of_over ?_ ?_⟩
  · rwa [hsame]
  · rwa [hstate]

/-! ## Ending an episode -/

theorem isReached_play (e : Episode) (setup : SessionSetup) (snapshot : Json)
    (clock : Clock) (sink : ReceiptSink) (actions : List EpisodeAction) :
    (e.play (.start setup snapshot clock sink) actions).2.IsReached := by
  let first := (e, Session.start setup snapshot clock sink)
  obtain ⟨hsetup, hstate⟩ := play_session first actions
  refine ⟨snapshot, clock, scriptActions first actions, ?_⟩
  rw [hsetup]
  exact hstate

/-- Whatever happened to an episode and its session before, and whatever the
sink does, ending the episode closes the session, leaves nothing waiting in it,
and leaves the episode over and waiting for nothing.  An episode that was over
is kept; one that ran is aborted, with one more attempt if it was waiting.
Nothing that is done later changes any of this. -/
theorem endEpisode_comes_to_rest (h : Reached w limits e)
    (hs : s.IsReached) :
    let e' := (e.endEpisode s).2.1
    let s' := (e.endEpisode s).2.2
    (e.endEpisode s).1 = e'.endReport s.sink ∧
      s'.state.closed = true ∧
      (∀ a ∈ s'.state.approvals.entries, a.resolution ≠ .unresolved) ∧
      e'.state.status ≠ .running ∧ e'.state.suspended = none ∧
      (e.state.status ≠ .running → e' = e) ∧
      (e.state.status = .running → e' =
        { e with
          state := { e.state with
            status := .aborted
            reason := some .episodeTimeout
            suspended := none
            history := e.state.history ++ e.expiredAttempts } }) ∧
      ∀ later : Session, later.state = s'.state → ∀ actions,
        (e'.play later actions).1 = e' ∧
          (e'.play later actions).2.state = s'.state ∧
          playCalls (e', later) actions = [] ∧
          Rests (e'.play later actions) := by
  intro e' s'
  have hstate : s'.state = s.setup.act s.state .close :=
    (endEpisode_eq e s).2.2
  have hclosed : s'.state.closed = true := by
    rw [hstate]
    exact SessionSetup.closed_act_close s.setup s.state
  have hover : e'.state.status ≠ .running := endEpisode_not_running e s
  refine ⟨endEpisode_report e s, hclosed, ?_, hover, ?_,
    fun hover => endEpisode_of_over hover s, ?_, ?_⟩
  · have hsettled : SessionSetup.Settled s'.state := by
      rw [hstate]
      exact hs.settled.act .close
    exact hsettled hclosed
  · cases hsuspended : e'.state.suspended with
    | none => rfl
    | some suspension =>
        exact absurd
          ((h.endEpisode s).running_of_suspended suspension hsuspended) hover
  · intro hrunning
    rw [← expire_eq_aborted]
    exact endEpisode_of_running hrunning s
  · intro later hlater actions
    rw [← hlater]
    exact play_rests (p := (e', later)) hover (hlater ▸ hclosed) actions

/-- The sink refuses to be flushed when an episode that waits is ended: the
error is reported, and the episode is over all the same. -/
theorem endEpisode_comes_to_rest_unflushed :
    let refusal : SinkError := .io "disk full"
    let sink : ReceiptSink := .memory [] 0 (fun _ => none) (some refusal)
    let session := Session.start (mailSetup {}) .null (.logical 0) sink
    let last := (start askingWorkflow {}).play session [.run]
    let ended := last.1.endEpisode last.2
    last.1.state.suspended = some ⟨"send", "approval-1"⟩ ∧
      ended.1 = .error (.dispatch (.persistence refusal)) ∧
      ended.2.2.state.closed = true ∧
      ended.2.1.state.reason = some .episodeTimeout ∧
      ended.2.1.state.history.map (·.verdict) =
        [.passed, .approvalExpired "approval-1"] ∧
      (ended.2.1.run ended.2.2).1 = .ok (.finished .aborted) := by
  intro refusal sink session last ended
  have hlast : last.1.state.status = .running ∧
      last.1.state.suspended = some ⟨"send", "approval-1"⟩ ∧
      last.1.state.history.map (·.verdict) = [.passed] ∧
      last.2.sink.flush.refusal = some refusal := by
    decide +kernel
  obtain ⟨hrunning, hsuspended, hhistory, hrefusal⟩ := hlast
  have hreached : Reached askingWorkflow {} last.1 :=
    Reached.play (p := (start askingWorkflow {}, session)) .start [.run]
  have hsession : last.2.IsReached :=
    isReached_play (start askingWorkflow {}) (mailSetup {}) .null (.logical 0)
      sink [.run]
  obtain ⟨hreport, hclosed, -, -, -, -, habort, hlater⟩ :=
    endEpisode_comes_to_rest hreached hsession
  have hended := habort hrunning
  obtain ⟨-, -, -, hrests⟩ := hlater ended.2.2 rfl []
  refine ⟨hsuspended, ?_, hclosed, ?_, ?_, ?_⟩
  · rw [hreport, endReport, hrefusal]
  · rw [hended]
  · rw [hended]
    dsimp only
    rw [List.map_append, hhistory, expiredAttempts, hsuspended]
    rfl
  · have hrun : ended.2.1.run ended.2.2 =
        (.ok (.finished ended.2.1.state.status), ended.2) := hrests.run_eq
    rw [hrun, hended]

end Episode

end CallGate
