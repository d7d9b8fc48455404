import CallGate.Proofs.Episode.Budget

/-!
# Episodes underway

What an episode does at a step depends on how far it has come, and it may have
come there in the midst of a run.  So an episode is followed here turn by turn,
with the calls that it has made on the way, from its start to any turn of any
run.  Each turn may meet any session at all, so whatever others do to sessions
in between is allowed for.
-/

namespace CallGate

namespace Episode

variable {w : Workflow} {limits : EpisodeLimits} {e : Episode} {s : Session}
  {calls : List EpisodeCall} {p : Episode × Session}

/-- An episode of a workflow before one of its turns or after the last one,
and the calls that it has made so far. -/
inductive Underway (w : Workflow) (limits : EpisodeLimits) :
    List EpisodeCall → Episode → Prop where
  | start : Underway w limits [] (start w limits)
  | turn {calls : List EpisodeCall} {e : Episode}
      (h : Underway w limits calls e) (s : Session) :
      Underway w limits (calls ++ e.turnCalls s) (e.turn s).2.1
  | endEpisode {calls : List EpisodeCall} {e : Episode}
      (h : Underway w limits calls e) (s : Session) :
      Underway w limits calls (e.endEpisode s).2.1

namespace Underway

theorem turns (h : Underway w limits calls e) (fuel : Nat) (s : Session) :
    Underway w limits (calls ++ turnsCalls fuel e s)
      (Episode.turns fuel e s).2.1 := by
  induction fuel generalizing e s calls with
  | zero =>
      rw [turnsCalls, List.append_nil]
      exact h
  | succ fuel ih =>
      have hnext := h.turn s
      rw [Episode.turns, turnsCalls, ← List.append_assoc]
      generalize e.turn s = taken at hnext ⊢
      obtain ⟨_ | _, e', s'⟩ := taken
      · exact ih hnext s'
      · rw [List.append_nil]
        exact hnext

theorem act (h : Underway w limits calls p.1) (action : EpisodeAction) :
    Underway w limits (calls ++ actCalls p action)
      (Episode.act p action).1 := by
  cases action with
  | run => exact h.turns p.1.maxTurns p.2
  | call operation args =>
      rw [actCalls, List.append_nil]
      exact h
  | close =>
      rw [actCalls, List.append_nil]
      exact h
  | endEpisode =>
      rw [actCalls, List.append_nil]
      exact h.endEpisode p.2

/-- Whatever is done with an episode that is underway, it is underway after
that. -/
theorem play (h : Underway w limits calls p.1)
    (actions : List EpisodeAction) :
    Underway w limits (calls ++ playCalls p actions)
      (p.1.play p.2 actions).1 := by
  induction actions generalizing p calls with
  | nil =>
      rw [playCalls, List.append_nil]
      exact h
  | cons action rest ih =>
      rw [playCalls, ← List.append_assoc]
      exact ih (h.act action)

theorem steady (h : Underway w limits calls e) : Steady w limits e := by
  induction h with
  | start => exact steady_start w limits
  | @turn calls e h s ih => exact ih.move (turn_move e s)
  | @endEpisode calls e h s ih =>
      by_cases hrunning : e.state.status = .running
      · rw [endEpisode_of_running hrunning s]
        cases hsuspended : e.state.suspended with
        | none => exact ih.move (.ends _ (.expire hrunning hsuspended))
        | some suspension => exact ih.expire hsuspended
      · rw [endEpisode_of_over hrunning s]
        exact ih

end Underway

theorem IsAt.eq {i j : Nat} {step other : Step} (h : e.IsAt i step)
    (h' : e.IsAt j other) : step = other := by
  have hij : i = j := Option.some.inj (h.current_eq.symm.trans h'.current_eq)
  subst hij
  exact Option.some.inj (h.step_eq.symm.trans h'.step_eq)

end Episode

end CallGate
