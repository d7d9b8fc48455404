import CallGate.Episode.State
import CallGate.Workflow.Basic

/-!
# Criteria of success

What is said about an episode that does not meet the criteria of its workflow.
-/

namespace CallGate

namespace EpisodeState

/-- What is said about a step whose last attempt did not pass. -/
def stepComplaint? (s : EpisodeState) (step : String) : Option String :=
  if s.hasPassed step then none
  else some ("step `" ++ step ++ "` did not succeed")

/-- What is said about an episode that does not meet a criterion. -/
def criterionComplaints (w : Workflow) (s : EpisodeState) (pending : Nat) :
    Criterion → List String
  | .stepSucceeded step => (s.stepComplaint? step).toList
  | .allStepsSucceeded => w.steps.filterMap fun step => s.stepComplaint? step.id
  | .maxFailures max =>
    if s.failureCount > max then [s!"failures: {s.failureCount} exceeds {max}"]
    else []
  | .pendingMax max =>
    if pending > max then [Expectation.tooManyPending pending max] else []

/-- What is said about an episode that does not meet the criteria of its
workflow. -/
def complaints (w : Workflow) (s : EpisodeState) (pending : Nat) :
    List String :=
  w.success.flatMap (criterionComplaints w s pending)

end EpisodeState

end CallGate
