import CallGate.Proofs.Workflow.Compile

/-!
# Where the steps of a workflow are

A compiled workflow knows the place of a step in two ways: a step carries its
own place, and a jump carries the place of its target.  An episode goes by
these numbers and does not look for ids, so both have to agree with the list
of steps.
-/

namespace CallGate

namespace Workflow

/-- The place of the step with an id. -/
def place? (w : Workflow) (id : String) : Option Nat :=
  w.steps.findIdx? fun step => step.id = id

/-- Every step carries its place and every jump the place of its target. -/
structure LaidOut (w : Workflow) : Prop where
  index_eq : ∀ (i : Nat) (step : Step),
    w.steps[i]? = some step → step.index = i
  jump_eq : ∀ step ∈ w.steps, ∀ target index,
    step.onFailure = .jump target index → w.place? target = some index

end Workflow

namespace Compile

variable {registry : Registry} {ids : List String}

theorem stepOf_eq_ok {index : Nat} {s : WrittenStep} {spec : OperationSpec}
    {step : Step} (h : stepOf ids index s spec = .ok step) :
    step.index = index ∧ step.id = s.id ∧
      recourseOf ids s = .ok step.onFailure := by
  obtain ⟨recourse, hrecourse, rfl⟩ := exists_recourse_of_stepOf h
  exact ⟨rfl, rfl, hrecourse⟩

theorem idxOf?_of_recourseOf {s : WrittenStep} {target : String}
    {index : Nat} (h : recourseOf ids s = .ok (.jump target index)) :
    ids.idxOf? target = some index := by
  rw [recourseOf] at h
  split at h
  · cases h
  · cases h
  · split at h
    · rename_i hindex
      cases h
      exact hindex
    · cases h

/-- A compiled step comes from what is written at its place. -/
theorem getElem?_stepsOf {first i : Nat}
    {pairs : List (WrittenStep × OperationSpec)} {steps : List Step}
    (h : stepsOf ids first pairs = .ok steps) {step : Step}
    (hstep : steps[i]? = some step) :
    ∃ p, pairs[i]? = some p ∧ stepOf ids (first + i) p.1 p.2 = .ok step := by
  induction pairs generalizing first i steps with
  | nil =>
      cases h
      cases hstep
  | cons p rest ih =>
      obtain ⟨s, more, hfirst, hrest, rfl⟩ := stepsOf_cons_eq_ok h
      cases i with
      | zero =>
          cases hstep
          exact ⟨p, rfl, hfirst⟩
      | succ i =>
          obtain ⟨q, hq, hstepOf⟩ := ih hrest hstep
          refine ⟨q, hq, ?_⟩
          rwa [Nat.add_right_comm] at hstepOf

theorem map_id_stepsOf {first : Nat}
    {pairs : List (WrittenStep × OperationSpec)} {steps : List Step}
    (h : stepsOf ids first pairs = .ok steps) :
    steps.map (·.id) = pairs.map (·.1.id) := by
  induction pairs generalizing first steps with
  | nil =>
      cases h
      rfl
  | cons p rest ih =>
      obtain ⟨s, more, hfirst, hrest, rfl⟩ := stepsOf_cons_eq_ok h
      rw [List.map_cons, List.map_cons, ih hrest, (stepOf_eq_ok hfirst).2.1]

theorem length_specsOf {written : List WrittenStep}
    {specs : List OperationSpec} (h : specsOf registry written = .ok specs) :
    specs.length = written.length := by
  induction written generalizing specs with
  | nil =>
      cases h
      rfl
  | cons s rest ih =>
      obtain ⟨spec, more, -, hrest, rfl⟩ := specsOf_cons_eq_ok h
      rw [List.length_cons, List.length_cons, ih hrest]

end Compile

/-- The steps of a compiled workflow are where they say they are. -/
theorem WorkflowDocument.laidOut_of_compile {d : WorkflowDocument}
    {registry : Registry} {w : Workflow} (h : d.compile registry = .ok w) :
    w.LaidOut := by
  obtain ⟨specs, hpasses⟩ := exists_passes_of_compile h
  have hsteps := hpasses.steps_ok
  have hids : w.steps.map (·.id) = d.stepIds := by
    have hfirst : (d.steps.zip specs).map Prod.fst = d.steps :=
      List.map_fst_zip
        (Nat.le_of_eq (Compile.length_specsOf hpasses.specs_ok).symm)
    calc
      w.steps.map (·.id) = (d.steps.zip specs).map (·.1.id) :=
        Compile.map_id_stepsOf hsteps
      _ = ((d.steps.zip specs).map Prod.fst).map (·.id) := by
        rw [List.map_map]
        rfl
      _ = d.stepIds := by rw [hfirst, stepIds]
  constructor
  · intro i step hstep
    obtain ⟨p, -, hstepOf⟩ := Compile.getElem?_stepsOf hsteps hstep
    have hindex := (Compile.stepOf_eq_ok hstepOf).1
    rwa [Nat.zero_add] at hindex
  · intro step hstep target index hjump
    obtain ⟨i, hi⟩ := List.getElem?_of_mem hstep
    obtain ⟨p, -, hstepOf⟩ := Compile.getElem?_stepsOf hsteps hi
    have hrecourse := (Compile.stepOf_eq_ok hstepOf).2.2
    rw [hjump] at hrecourse
    have hplace := Compile.idxOf?_of_recourseOf hrecourse
    rw [← hids, List.idxOf?, List.findIdx?_map] at hplace
    exact hplace

end CallGate
