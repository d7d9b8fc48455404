import CallGate.Episode.Basic

/-!
# What it is to meet the criteria of success

The criteria are checked by what is to be said about an episode.  Here each of
them is put as a statement about its history and the approvals that wait: the
last attempt of a step is the one after which the step has no other.  Nothing
is said about an episode exactly when all criteria hold, and a step has no last
attempt exactly when it has none at all.
-/

namespace CallGate

theorem Verdict.isPassed_iff {v : Verdict} :
    v.isPassed = true ↔ v = .passed := by
  cases v with
  | passed => simp [isPassed]
  | assertionFailed failures => simp [isPassed]
  | approvalDenied approval => simp [isPassed]
  | approvalExpired approval => simp [isPassed]

namespace EpisodeState

variable {s : EpisodeState} {id : String} {a : Attempt}

/-- The attempt is the last one of the step. -/
def IsLatest (s : EpisodeState) (id : String) (a : Attempt) : Prop :=
  ∃ before after, s.history = before ++ a :: after ∧ a.step = id ∧
    ∀ b ∈ after, b.step ≠ id

theorem latest?_eq_some_iff : s.latest? id = some a ↔ s.IsLatest id a := by
  rw [latest?, List.find?_eq_some_iff_append, decide_eq_true_iff]
  constructor
  · rintro ⟨hid, later, earlier, hreverse, hlater⟩
    refine ⟨earlier.reverse, later.reverse, ?_, hid, ?_⟩
    · rw [← List.reverse_reverse s.history, hreverse]
      simp
    · intro b hb
      simpa using hlater b (List.mem_reverse.1 hb)
  · rintro ⟨before, after, hhistory, hid, hafter⟩
    refine ⟨hid, after.reverse, before.reverse, ?_, ?_⟩
    · rw [hhistory]
      simp
    · intro b hb
      simpa using hafter b (List.mem_reverse.1 hb)

theorem latest?_eq_none_iff :
    s.latest? id = none ↔ ∀ a ∈ s.history, a.step ≠ id := by
  simp [latest?]

theorem latest?_isNone_iff :
    (s.latest? id).isNone = true ↔ ∀ a ∈ s.history, a.step ≠ id := by
  rw [Option.isNone_iff_eq_none, latest?_eq_none_iff]

/-- The last attempt of the step passed. -/
def Succeeded (s : EpisodeState) (id : String) : Prop :=
  ∃ a, s.IsLatest id a ∧ a.verdict = .passed

theorem hasPassed_iff : s.hasPassed id = true ↔ s.Succeeded id := by
  rw [hasPassed, Option.any_eq_true]
  refine exists_congr fun a => ?_
  rw [latest?_eq_some_iff, Verdict.isPassed_iff]

theorem stepComplaint?_eq_none_iff :
    s.stepComplaint? id = none ↔ s.Succeeded id := by
  rw [stepComplaint?, ← hasPassed_iff]
  by_cases h : s.hasPassed id = true
  · simp [h]
  · simp [h]

theorem failureCount_eq (s : EpisodeState) :
    s.failureCount = s.history.countP fun a => a.verdict ≠ .passed := by
  refine List.countP_congr fun a _ => ?_
  rw [Bool.not_eq_true', decide_eq_true_iff, ne_eq, ← Verdict.isPassed_iff,
    Bool.not_eq_true]

end EpisodeState

/-- The criterion is met by an episode of the workflow while so many approvals
wait. -/
def Criterion.Holds (w : Workflow) (s : EpisodeState) (pending : Nat) :
    Criterion → Prop
  | .stepSucceeded id => s.Succeeded id
  | .allStepsSucceeded => ∀ step ∈ w.steps, s.Succeeded step.id
  | .maxFailures max =>
    (s.history.countP fun a => a.verdict ≠ .passed) ≤ max
  | .pendingMax max => pending ≤ max

namespace EpisodeState

variable {s : EpisodeState} {w : Workflow} {pending : Nat}

theorem criterionComplaints_eq_nil_iff {c : Criterion} :
    criterionComplaints w s pending c = [] ↔ c.Holds w s pending := by
  cases c with
  | stepSucceeded id =>
      rw [criterionComplaints, Criterion.Holds, Option.toList_eq_nil_iff]
      exact stepComplaint?_eq_none_iff
  | allStepsSucceeded =>
      rw [criterionComplaints, Criterion.Holds, List.filterMap_eq_nil_iff]
      exact forall₂_congr fun step _ => stepComplaint?_eq_none_iff
  | maxFailures max =>
      rw [criterionComplaints, Criterion.Holds, ← failureCount_eq]
      by_cases h : s.failureCount > max
      · simp [h]
      · simp [h, Nat.le_of_not_gt h]
  | pendingMax max =>
      rw [criterionComplaints, Criterion.Holds]
      by_cases h : pending > max
      · simp [h]
      · simp [h, Nat.le_of_not_gt h]

/-- Nothing is said about an episode exactly when it meets all criteria of its
workflow. -/
theorem complaints_eq_nil_iff_holds :
    s.complaints w pending = [] ↔ ∀ c ∈ w.success, c.Holds w s pending := by
  rw [complaints, List.flatMap_eq_nil_iff]
  exact forall₂_congr fun c _ => criterionComplaints_eq_nil_iff

end EpisodeState

end CallGate
