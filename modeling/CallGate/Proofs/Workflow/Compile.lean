import CallGate.Proofs.Operation.Registry
import CallGate.Workflow.Compile

/-!
# What compiling gives

A workflow that was compiled calls operations of its registry only: every step
carries what the registry knows of its operation.
-/

namespace CallGate

namespace Compile

variable {registry : Registry} {ids : List String}

theorem specsOf_cons_eq_ok {s : WrittenStep} {rest : List WrittenStep}
    {specs : List OperationSpec}
    (h : specsOf registry (s :: rest) = .ok specs) :
    ∃ spec more, registry.get? s.call.target = some spec ∧
    specsOf registry rest = .ok more ∧ specs = spec :: more := by
  rw [specsOf, specOf] at h
  cases hget : registry.get? s.call.target with
  | none =>
      rw [hget] at h
      cases h
  | some spec =>
      rw [hget] at h
      cases hrest : specsOf registry rest with
      | error e =>
          rw [hrest] at h
          cases h
      | ok more =>
          rw [hrest] at h
          cases h
          exact ⟨spec, more, rfl, rfl, rfl⟩

/-- A step takes over what is written, the operation that is known, and where
its failures lead. -/
theorem exists_recourse_of_stepOf {index : Nat} {s : WrittenStep}
    {spec : OperationSpec} {step : Step}
    (h : stepOf ids index s spec = .ok step) :
    ∃ recourse, recourseOf ids s = .ok recourse ∧
      step = ⟨index, s.id, s.description, spec, s.call.args,
        if s.expect.isEmpty then Expectation.ordinary else s.expect, recourse,
        s.maxAttempts, s.fallback⟩ := by
  rw [stepOf] at h
  split at h
  · cases h
  · cases hrecourse : recourseOf ids s with
    | error e =>
        rw [hrecourse] at h
        cases h
    | ok recourse =>
        rw [hrecourse] at h
        cases h
        exact ⟨recourse, rfl, rfl⟩

theorem stepsOf_cons_eq_ok {index : Nat} {p : WrittenStep × OperationSpec}
    {rest : List (WrittenStep × OperationSpec)} {steps : List Step}
    (h : stepsOf ids index (p :: rest) = .ok steps) :
    ∃ first more, stepOf ids index p.1 p.2 = .ok first ∧
      stepsOf ids (index + 1) rest = .ok more ∧ steps = first :: more := by
  rw [stepsOf] at h
  cases hfirst : stepOf ids index p.1 p.2 with
  | error e =>
      rw [hfirst] at h
      cases h
  | ok first =>
      rw [hfirst] at h
      cases hrest : stepsOf ids (index + 1) rest with
      | error e =>
          rw [hrest] at h
          cases h
      | ok more =>
          rw [hrest] at h
          cases h
          exact ⟨first, more, rfl, rfl, rfl⟩

theorem get?_of_mem_specsOf {written : List WrittenStep}
    {specs : List OperationSpec} (h : specsOf registry written = .ok specs)
    {spec : OperationSpec} (hspec : spec ∈ specs) :
    ∃ id, registry.get? id = some spec := by
  induction written generalizing specs with
  | nil =>
      cases h
      cases hspec
  | cons s rest ih =>
      obtain ⟨first, more, hget, hrest, rfl⟩ := specsOf_cons_eq_ok h
      rcases List.mem_cons.1 hspec with rfl | hmore
      · exact ⟨s.call.target, hget⟩
      · exact ih hrest hmore

theorem operation_of_mem_stepsOf {index : Nat}
    {pairs : List (WrittenStep × OperationSpec)} {steps : List Step}
    (h : stepsOf ids index pairs = .ok steps) {step : Step}
    (hstep : step ∈ steps) : ∃ p ∈ pairs, step.operation = p.2 := by
  induction pairs generalizing index steps with
  | nil =>
      cases h
      cases hstep
  | cons p rest ih =>
      obtain ⟨first, more, hfirst, hrest, rfl⟩ := stepsOf_cons_eq_ok h
      rcases List.mem_cons.1 hstep with rfl | hmore
      · obtain ⟨recourse, -, rfl⟩ := exists_recourse_of_stepOf hfirst
        exact ⟨p, List.mem_cons_self, rfl⟩
      · obtain ⟨q, hq, hoperation⟩ := ih hrest hmore
        exact ⟨q, List.mem_cons_of_mem _ hq, hoperation⟩

end Compile

namespace WorkflowDocument

variable {d : WorkflowDocument} {registry : Registry} {w : Workflow}

/-- The checks that a document went through on the way to a workflow, `specs`
being the operations that its steps call. -/
structure Passes (d : WorkflowDocument) (registry : Registry)
    (specs : List OperationSpec) (w : Workflow) : Prop where
  structure_ok : Compile.checkStructure d.steps = .ok ()
  specs_ok : Compile.specsOf registry d.steps = .ok specs
  steps_ok : Compile.stepsOf d.stepIds 0 (d.steps.zip specs) = .ok w.steps
  paths_ok : Compile.forEach (Compile.checkFailurePath d.stepIds)
    d.failurePaths = .ok ()
  cycles_ok : Compile.checkFailureCycles w.steps = .ok ()
  intent_ok : Compile.checkApprovalIntent [] w.steps = .ok ()
  templates_ok : Compile.forEach (Compile.checkTemplates d.stepIds) w.steps =
    .ok ()
  criteria_ok : Compile.forEach (Compile.checkCriterion d.stepIds) d.success =
    .ok ()
  eq_withSteps : w = d.withSteps w.steps

theorem exists_passes_of_compile (h : d.compile registry = .ok w) :
    ∃ specs, d.Passes registry specs w := by
  rw [compile] at h
  obtain ⟨_, hstructure, h⟩ := exists_of_bind_eq_ok h
  obtain ⟨specs, hspecs, h⟩ := exists_of_bind_eq_ok h
  obtain ⟨steps, hsteps, h⟩ := exists_of_bind_eq_ok h
  obtain ⟨_, hpaths, h⟩ := exists_of_bind_eq_ok h
  obtain ⟨_, hcycles, h⟩ := exists_of_bind_eq_ok h
  obtain ⟨_, hintent, h⟩ := exists_of_bind_eq_ok h
  obtain ⟨_, htemplates, h⟩ := exists_of_bind_eq_ok h
  obtain ⟨_, hcriteria, h⟩ := exists_of_bind_eq_ok h
  cases h
  exact ⟨specs, hstructure, hspecs, hsteps, hpaths, hcycles, hintent,
    htemplates, hcriteria, rfl⟩

/-- Which workflow comes of a document is known from its steps. -/
theorem compile_eq_of_steps {steps : List Step}
    (h : (d.compile registry).toOption.map (·.steps) = some steps) :
    d.compile registry = .ok (d.withSteps steps) := by
  cases hw : d.compile registry with
  | error e =>
      rw [hw] at h
      cases h
  | ok w =>
      rw [hw] at h
      cases h
      obtain ⟨specs, hpasses⟩ := exists_passes_of_compile hw
      exact congrArg Except.ok hpasses.eq_withSteps

/-- The operation of a compiled step is one of the registry's. -/
theorem get?_of_compile (h : d.compile registry = .ok w) {step : Step}
    (hstep : step ∈ w.steps) :
    ∃ id, registry.get? id = some step.operation := by
  obtain ⟨specs, hpasses⟩ := exists_passes_of_compile h
  obtain ⟨p, hp, hoperation⟩ :=
    Compile.operation_of_mem_stepsOf hpasses.steps_ok hstep
  rw [hoperation]
  exact Compile.get?_of_mem_specsOf hpasses.specs_ok (List.of_mem_zip hp).2

end WorkflowDocument

end CallGate
