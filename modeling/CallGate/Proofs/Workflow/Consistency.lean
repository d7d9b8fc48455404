import CallGate.Proofs.KeyMap
import CallGate.Proofs.Workflow.WellFormed

/-!
# What a compiled workflow says more than once

A compiled workflow says some things more than once.  A step carries its own
place, a jump carries the place of its target, a map leads from ids to places,
and the ways that failures go are listed beside the steps.  All of this comes
from one document and one registry, and all of it agrees.
-/

namespace CallGate

/-! ## What a document says -/

/-- The way that the jump of a step goes. -/
def WrittenStep.jumpEdge? (s : WrittenStep) : Option FailureEdge :=
  match s.onFailure with
  | .jump target => some ⟨s.id, target, .onFailure⟩
  | .fail | .continue => none

/-- The ways that failures go: those of the jumps, in the order of the steps,
and then one to each step of each failure path. -/
def WorkflowDocument.failureEdges (d : WorkflowDocument) : List FailureEdge :=
  d.steps.filterMap WrittenStep.jumpEdge? ++
    d.failurePaths.flatMap fun path =>
      path.recovery.map fun id => ⟨path.trigger, id, .declared path.name⟩

/-- A workflow has the steps of a document, with what the registry knows of
their operations, and says the same of them wherever it says something. -/
structure Workflow.Renders (w : Workflow) (d : WorkflowDocument)
    (known : Registry) : Prop where
  length_eq : w.steps.length = d.steps.length
  declared : ∀ (i : Nat) (step : Step), w.steps[i]? = some step →
    step.index = i ∧ ∃ s, d.steps[i]? = some s ∧ step.id = s.id ∧
      known.get? s.call.target = some step.operation
  expect_ne_nil : ∀ step ∈ w.steps, step.expect ≠ []
  position?_iff : ∀ id i,
    w.position? id = some i ↔ ∃ s, d.steps[i]? = some s ∧ s.id = id
  step?_iff : ∀ id step,
    w.step? id = some step ↔ step ∈ w.steps ∧ step.id = id
  jump_leads : ∀ step ∈ w.steps, ∀ target index,
    step.onFailure = .jump target index →
      ∃ other, w.steps[index]? = some other ∧ other.id = target
  failureEdges_eq : w.failureEdges = d.failureEdges
  failureEdges_within : ∀ edge ∈ w.failureEdges,
    (∃ step ∈ w.steps, step.id = edge.source) ∧
      ∃ step ∈ w.steps, step.id = edge.target

/-! ## Steps one by one -/

namespace Compile

section Made

variable {known : Registry} {d : WorkflowDocument} {steps : List Step}

/-- What a step has in common with the written one that it comes from, all
steps have in common with the written ones. -/
theorem Made.map_eq {α : Type} (h : Made known d steps) {f : Step → α}
    {g : WrittenStep → α} (heq : ∀ {i : Nat} {s : WrittenStep} {step : Step},
      Makes known d.stepIds i s step → f step = g s) :
    steps.map f = d.steps.map g := by
  apply List.ext_getElem?
  intro i
  rw [List.getElem?_map, List.getElem?_map]
  cases hs : d.steps[i]? with
  | none =>
      have hnone : steps[i]? = none := by
        rw [List.getElem?_eq_none_iff] at hs ⊢
        rwa [h.length_eq]
      rw [hnone]
      rfl
  | some s =>
      obtain ⟨step, hstep, hmakes⟩ := h.exists_step hs
      rw [hstep, Option.map_some, Option.map_some, heq hmakes]

theorem Made.map_id (h : Made known d steps) :
    steps.map (·.id) = d.stepIds :=
  h.map_eq Makes.id_eq

theorem Made.mem_stepIds_iff (h : Made known d steps) {id : String} :
    id ∈ d.stepIds ↔ ∃ step ∈ steps, step.id = id := by
  rw [← h.map_id, List.mem_map]

theorem Makes.expect_ne_nil {i : Nat} {s : WrittenStep} {step : Step}
    (h : Makes known d.stepIds i s step) : step.expect ≠ [] := by
  rw [h.expect_eq]
  split
  · exact List.cons_ne_nil _ _
  · rename_i hsome
    exact fun hnil => hsome (List.isEmpty_iff.2 hnil)

/-- The jump of a step goes where the written one says. -/
theorem Makes.jumpEdge?_eq {i : Nat} {s : WrittenStep} {step : Step}
    (h : Makes known d.stepIds i s step) : jumpEdge? step = s.jumpEdge? := by
  rw [jumpEdge?, WrittenStep.jumpEdge?, h.id_eq]
  rcases recourseOf_eq_ok_iff.1 h.recourse_eq with
    ⟨hpolicy, hrecourse⟩ | ⟨hpolicy, hrecourse⟩ |
      ⟨target, index, hpolicy, -, hrecourse⟩
  · rw [hpolicy, hrecourse]
  · rw [hpolicy, hrecourse]
  · rw [hpolicy, hrecourse]

theorem Made.filterMap_jumpEdge? (h : Made known d steps) :
    steps.filterMap jumpEdge? = d.steps.filterMap WrittenStep.jumpEdge? := by
  have hedges : steps.map jumpEdge? = d.steps.map WrittenStep.jumpEdge? :=
    h.map_eq Makes.jumpEdge?_eq
  calc
    steps.filterMap jumpEdge? = (steps.map jumpEdge?).filterMap id := by
      rw [List.filterMap_map, Function.id_comp]
    _ = (d.steps.map WrittenStep.jumpEdge?).filterMap id := by rw [hedges]
    _ = d.steps.filterMap WrittenStep.jumpEdge? := by
      rw [List.filterMap_map, Function.id_comp]

/-- The written step at a place has an id when the step there does. -/
theorem Made.exists_id_iff (h : Made known d steps) {i : Nat} {id : String} :
    (∃ step, steps[i]? = some step ∧ step.id = id) ↔
      ∃ s, d.steps[i]? = some s ∧ s.id = id := by
  rw [← Option.map_eq_some_iff, ← Option.map_eq_some_iff,
    ← List.getElem?_map, ← List.getElem?_map, h.map_id]
  rfl

theorem Made.index_eq (h : Made known d steps) {i : Nat} {step : Step}
    (hstep : steps[i]? = some step) : step.index = i := by
  obtain ⟨s, -, hmakes⟩ := h.makes i step hstep
  exact hmakes.index_eq

/-- In the map from ids to places each step is at its own place. -/
theorem Made.get?_positions_iff (h : Made known d steps)
    (hnodup : d.stepIds.Nodup) {id : String} {i : Nat} :
    (KeyMap.ofList (steps.map fun s => (s.id, s.index))).get? id = some i ↔
      ∃ step, steps[i]? = some step ∧ step.id = id := by
  have hdistinct :
      ((steps.map fun s => (s.id, s.index)).map (·.1)).Nodup := by
    rw [List.map_map]
    exact h.map_id ▸ hnodup
  rw [KeyMap.ofList, KeyMap.get?_insertAll_empty_iff hdistinct, List.mem_map]
  constructor
  · rintro ⟨step, hmem, heq⟩
    cases heq
    obtain ⟨j, hj⟩ := List.getElem?_of_mem hmem
    rw [h.index_eq hj]
    exact ⟨step, hj, rfl⟩
  · rintro ⟨step, hstep, rfl⟩
    refine ⟨step, List.mem_of_getElem? hstep, ?_⟩
    rw [h.index_eq hstep]

/-- The place of a jump is the place of its target. -/
theorem Made.exists_of_jump (h : Made known d steps)
    (hnodup : d.stepIds.Nodup) {step : Step} (hstep : step ∈ steps)
    {target : String} {index : Nat}
    (hjump : step.onFailure = .jump target index) :
    ∃ other, steps[index]? = some other ∧ other.id = target := by
  obtain ⟨i, s, -, hmakes⟩ := h.exists_of_mem hstep
  have hrecourse := hmakes.recourse_eq
  rw [hjump] at hrecourse
  have hindex := idxOf?_of_recourseOf hrecourse
  exact h.exists_id_iff.2 ((idxOf?_stepIds_eq_some_iff hnodup).1 hindex)

end Made

end Compile

/-! ## Workflows -/

namespace WorkflowDocument

open Compile

variable {d : WorkflowDocument} {known : Registry} {w : Workflow}
  {specs : List OperationSpec} {id : String}

theorem Passes.made (h : d.Passes known specs w) : Made known d w.steps :=
  made_of_stepsOf h.specs_ok h.steps_ok

theorem Passes.nodup_stepIds (h : d.Passes known specs w) :
    d.stepIds.Nodup :=
  (checkStructure_eq_ok_iff.1 h.structure_ok).2.2

theorem Passes.position?_iff (h : d.Passes known specs w) {i : Nat} :
    w.position? id = some i ↔
      ∃ step, w.steps[i]? = some step ∧ step.id = id := by
  rw [Workflow.position?, ← h.made.get?_positions_iff h.nodup_stepIds,
    congrArg Workflow.positions h.eq_withSteps]
  rfl

theorem Passes.step?_iff (h : d.Passes known specs w) {step : Step} :
    w.step? id = some step ↔ step ∈ w.steps ∧ step.id = id := by
  rw [Workflow.step?, Option.bind_eq_some_iff]
  constructor
  · rintro ⟨i, hi, hstep⟩
    obtain ⟨other, hother, hid⟩ := h.position?_iff.1 hi
    cases hother.symm.trans hstep
    exact ⟨List.mem_of_getElem? hstep, hid⟩
  · rintro ⟨hmem, hid⟩
    obtain ⟨i, hi⟩ := List.getElem?_of_mem hmem
    exact ⟨i, h.position?_iff.2 ⟨step, hi, hid⟩, hi⟩

theorem Passes.failureEdges_eq (h : d.Passes known specs w) :
    w.failureEdges = d.failureEdges := by
  rw [failureEdges, ← h.made.filterMap_jumpEdge?,
    congrArg Workflow.failureEdges h.eq_withSteps]
  rfl

/-- The ways that failures go are between steps. -/
theorem Passes.mem_stepIds_of_failureEdges (h : d.Passes known specs w)
    {edge : FailureEdge} (hedge : edge ∈ d.failureEdges) :
    edge.source ∈ d.stepIds ∧ edge.target ∈ d.stepIds := by
  obtain ⟨-, hjumps⟩ :=
    (exists_stepsOf_zip_iff h.specs_ok).1 ⟨w.steps, h.steps_ok⟩
  rcases List.mem_append.1 hedge with hjump | hdeclared
  · obtain ⟨s, hs, hsome⟩ := List.mem_filterMap.1 hjump
    rw [WrittenStep.jumpEdge?] at hsome
    split at hsome
    · rename_i target hpolicy
      cases hsome
      exact ⟨List.mem_map_of_mem hs, hjumps s hs target hpolicy⟩
    · cases hsome
    · cases hsome
  · obtain ⟨path, hpath, hmem⟩ := List.mem_flatMap.1 hdeclared
    obtain ⟨id, hid, rfl⟩ := List.mem_map.1 hmem
    obtain ⟨htrigger, hrecovery⟩ := checkFailurePath_eq_ok_iff.1
      (forEach_eq_ok_iff.1 h.paths_ok path hpath)
    exact ⟨htrigger, hrecovery id hid⟩

/-- A workflow that a document compiles to renders the document. -/
theorem renders_of_compile (h : d.compile known = .ok w) :
    w.Renders d known := by
  obtain ⟨specs, hpasses⟩ := exists_passes_of_compile h
  have hmade : Made known d w.steps := hpasses.made
  constructor
  · exact hmade.length_eq
  · intro i step hstep
    obtain ⟨s, hs, hmakes⟩ := hmade.makes i step hstep
    exact ⟨hmakes.index_eq, s, hs, hmakes.id_eq, hmakes.operation_eq⟩
  · intro step hstep
    obtain ⟨i, s, -, hmakes⟩ := hmade.exists_of_mem hstep
    exact hmakes.expect_ne_nil
  · intro id i
    rw [hpasses.position?_iff, hmade.exists_id_iff]
  · intro id step
    exact hpasses.step?_iff
  · intro step hstep target index hjump
    exact hmade.exists_of_jump hpasses.nodup_stepIds hstep hjump
  · exact hpasses.failureEdges_eq
  · intro edge hedge
    rw [hpasses.failureEdges_eq] at hedge
    obtain ⟨hsource, htarget⟩ := hpasses.mem_stepIds_of_failureEdges hedge
    exact ⟨hmade.mem_stepIds_iff.1 hsource, hmade.mem_stepIds_iff.1 htarget⟩

end WorkflowDocument

end CallGate
