import CallGate.Proofs.Document.Restored
import CallGate.Proofs.Workflow.Consistency

/-!
# Compiled workflows that can be restored

All that a document says can be read again, and compiling adds places and the
operations that the registry knows.  So a compiled workflow is read as what it
was when the ids of its operations are legible.
-/

namespace CallGate

open Decoder

variable {m : Medium} {t : Tree}

theorem readsAgain_natural {bound n : ℕ} (h : n < bound) :
    (natural bound).ReadsAgain .ofNat n :=
  natural_eq_ok h

theorem readsAgain_text (s : String) : text.ReadsAgain .str s :=
  fun _ => rfl

/-! ## Steps -/

theorem Recourse.readsAgain {r : Recourse}
    (h : ∀ target index, r = .jump target index → index < UInt64.size) :
    decode.ReadsAgain encode r := by
  intro m
  cases r with
  | fail => exact tagged_eq_ok rfl rfl rfl
  | «continue» => exact tagged_eq_ok rfl rfl rfl
  | jump target index =>
      have hindex := readsAgain_natural (h target index rfl)
      refine tagged_eq_ok rfl rfl (Reads.record_eq_ok rfl ?_)
      simp only [Reads.gives_seq, Reads.gives_map]
      exact ⟨target, (readsAgain_text target).field rfl, index,
        hindex.field rfl, rfl⟩

theorem ApprovalFallback.readsAgain (f : ApprovalFallback) :
    decode.ReadsAgain encode f := by
  intro m
  cases f
  rfl

/-- What is written about a step can be read, up to the operation. -/
structure Step.PartsReadAgain (s : Step) : Prop where
  index : word64.ReadsAgain .ofNat s.index
  args : value.ReadsAgain (fun v => v) s.args
  expect : (list Expectation.decode).ReadsAgain
    (fun es => .arr (es.map Expectation.encode)) s.expect
  onFailure : Recourse.decode.ReadsAgain Recourse.encode s.onFailure
  maxAttempts : (nullable word32).ReadsAgain (.orNull .ofNat) s.maxAttempts

namespace Step

variable {s : Step}

theorem isLegible_of_decode (h : decode m t = .ok s) :
    s.operation.id.IsLegible := by
  obtain ⟨w, hw⟩ := Reads.exists_of_record h
  simp only [Reads.gives_seq, Reads.gives_map] at hw
  obtain ⟨index, -, id, -, description, -, operation, hoperation, args, -,
    expect, -, onFailure, -, maxAttempts, -, fallback, -, rfl⟩ := hw
  obtain ⟨t, ht⟩ := Reads.exists_of_required hoperation
  exact OperationSpec.isLegible_of_decode ht

theorem PartsReadAgain.readsAgain (h : s.PartsReadAgain)
    (hlegible : s.operation.id.IsLegible) : decode.ReadsAgain encode s := by
  have hoperation := OperationSpec.readsAgain hlegible
  have hfallback := Decoder.ReadsAgain.nullable (o := s.fallback)
    (fun f _ => f.readsAgain) nofun
  intro m
  refine Reads.record_eq_ok rfl ?_
  simp only [Reads.gives_seq, Reads.gives_map]
  exact ⟨_, h.index.field rfl, _, (readsAgain_text s.id).field rfl, _,
    (readsAgain_text s.description).field rfl, _, hoperation.field rfl, _,
    h.args.field rfl, _, h.expect.field rfl, _, h.onFailure.field rfl, _,
    h.maxAttempts.field rfl, _, hfallback.field rfl, rfl⟩

end Step

theorem FailureEdge.readsAgain (e : FailureEdge) :
    decode.ReadsAgain encode e := by
  intro m
  rcases e with ⟨source, target, _ | name⟩ <;> rfl

theorem ContentDigest.readsAgain (d : ContentDigest) :
    decode.ReadsAgain encode d :=
  fun _ => rfl

/-! ## Steps of documents -/

/-- What a written step says of the compiled one can be read again. -/
structure WrittenStep.PartsReadAgain (s : WrittenStep) : Prop where
  args : value.ReadsAgain (fun v => v) s.call.args
  expect : ∀ e ∈ s.expect, Expectation.decode.ReadsAgain Expectation.encode e
  maxAttempts : (nullable word32).ReadsAgain (.orNull .ofNat) s.maxAttempts

theorem WrittenStep.partsReadAgain {s : WrittenStep}
    (h : decode m t = .ok s) : s.PartsReadAgain := by
  obtain ⟨w, hw⟩ := Reads.exists_of_record h
  simp only [Reads.gives_seq, Reads.gives_map] at hw
  obtain ⟨id, -, description, -, call, hcall, expect, hexpect, onFailure, -,
    maxAttempts, hmaxAttempts, fallback, -, rfl⟩ := hw
  obtain ⟨u, hu⟩ := Reads.exists_of_required hcall
  obtain ⟨w', hw'⟩ := Reads.exists_of_record hu
  simp only [Reads.gives_seq, Reads.gives_map] at hw'
  obtain ⟨service, -, operation, -, args, hargs, rfl⟩ := hw'
  constructor
  · exact stable_value.readsAgain_of_defaulted (fun _ => rfl) hargs
  · intro e he
    rcases Reads.exists_of_defaulted hexpect with ⟨t, ht⟩ | rfl
    · obtain ⟨u, hu⟩ := exists_of_mem_list ht he
      exact Expectation.stable.readsAgain hu
    · cases he
  · exact ((stable_natural _).nullable nofun).readsAgain_of_defaulted
      (fun _ => rfl) hmaxAttempts

namespace Compile

variable {known : Registry} {d : WorkflowDocument} {ids : List String}
  {steps : List Step} {i : ℕ} {s : WrittenStep} {step : Step}

/-- A step that is made of a written one can be read again, up to the
operation, when places are not too large for it. -/
theorem Makes.partsReadAgain (h : Makes known ids i s step)
    (hparts : s.PartsReadAgain) (hi : i < UInt64.size)
    (hids : ids.length ≤ UInt64.size) : step.PartsReadAgain := by
  constructor
  · rw [h.index_eq]
    exact readsAgain_natural hi
  · rw [h.args_eq]
    exact hparts.args
  · rw [h.expect_eq]
    split
    · exact fun _ => rfl
    · exact .list hparts.expect
  · apply Recourse.readsAgain
    intro target index hjump
    have hrecourse := h.recourse_eq
    rw [hjump] at hrecourse
    have hindex := idxOf?_of_recourseOf hrecourse
    obtain ⟨hlt, -⟩ := List.idxOf?_eq_some_iff.1 hindex
    exact hlt.trans_le hids
  · rw [h.attempts_eq]
    exact hparts.maxAttempts

end Compile

namespace Workflow

/-- The operations that a workflow names. -/
def named (w : Workflow) : List OperationId :=
  w.steps.map (·.operation.id)

theorem isLegible_of_decode {w : Workflow} (h : decode m t = .ok w) :
    ∀ id ∈ w.named, id.IsLegible := by
  obtain ⟨written, hw⟩ := Reads.exists_of_record h
  simp only [Reads.gives_seq, Reads.gives_map] at hw
  obtain ⟨name, -, objective, -, actors, -, constraints, -, approvals, -,
    steps, hsteps, positions, -, failureEdges, -, success, -, world, -,
    structural, -, tags, -, metadata, -, rfl⟩ := hw
  obtain ⟨t, ht⟩ := Reads.exists_of_required hsteps
  rw [named, List.forall_mem_map]
  intro step hstep
  obtain ⟨u, hu⟩ := exists_of_mem_list ht hstep
  exact Step.isLegible_of_decode hu

end Workflow

namespace WorkflowDocument

variable {known : Registry} {d : WorkflowDocument} {w : Workflow}
  {specs : List OperationSpec}

theorem partsReadAgain_of_mem (h : decode m t = .ok d) {s : WrittenStep}
    (hs : s ∈ d.steps) : s.PartsReadAgain := by
  obtain ⟨written, hw⟩ := Reads.exists_of_record h
  simp only [Reads.gives_seq, Reads.gives_map] at hw
  obtain ⟨name, -, objective, -, world, -, actors, -, constraints, -,
    approvals, -, steps, hsteps, success, -, failurePaths, -, tags, -,
    metadata, -, rfl⟩ := hw
  obtain ⟨t, ht⟩ := Reads.exists_of_required hsteps
  obtain ⟨u, hu⟩ := exists_of_mem_list ht hs
  exact WrittenStep.partsReadAgain hu

/-- The steps of a workflow are read again when their operations are
legible. -/
theorem Passes.steps_readAgain (hpasses : d.Passes known specs w)
    (h : decode m t = .ok d) (hsize : d.steps.length ≤ UInt64.size)
    (hlegible : ∀ id ∈ w.named, id.IsLegible) :
    ∀ step ∈ w.steps, Step.decode.ReadsAgain Step.encode step := by
  intro step hstep
  obtain ⟨i, s, hs, hmakes⟩ := hpasses.made.exists_of_mem hstep
  have hparts := partsReadAgain_of_mem h (List.mem_of_getElem? hs)
  have hi : i < d.steps.length := (List.getElem?_eq_some_iff.1 hs).1
  have hids : d.stepIds.length ≤ UInt64.size := by
    rwa [stepIds, List.length_map]
  exact (hmakes.partsReadAgain hparts (hi.trans_le hsize) hids).readsAgain
    (hlegible _ (List.mem_map_of_mem hstep))

/-- The places of the steps are read again. -/
theorem Passes.positions_readAgain (hpasses : d.Passes known specs w)
    (hsize : d.steps.length ≤ UInt64.size) :
    (textMap word64).ReadsAgain
      (fun map => .obj (map.entries.map fun e => (e.1, .ofNat e.2)))
      w.positions := by
  apply Decoder.ReadsAgain.textMap
  intro e he
  have hplace : w.position? e.1 = some e.2 := KeyMap.mem_entries_iff.1 he
  obtain ⟨step, hstep, -⟩ := hpasses.position?_iff.1 hplace
  have hlt := (List.getElem?_eq_some_iff.1 hstep).1
  rw [hpasses.made.length_eq] at hlt
  exact readsAgain_natural (hlt.trans_le hsize)

/-- What a workflow takes over from a document is read again, so only steps
and places are left to look at. -/
theorem withSteps_readsAgain (h : decode m t = .ok d) {steps : List Step}
    (hsteps : ∀ step ∈ steps, Step.decode.ReadsAgain Step.encode step)
    (hpositions : (textMap word64).ReadsAgain
      (fun map => .obj (map.entries.map fun e => (e.1, .ofNat e.2)))
      (d.withSteps steps).positions) :
    Workflow.decode.ReadsAgain Workflow.encode (d.withSteps steps) := by
  have hedges := Decoder.ReadsAgain.list fun e
    (_ : e ∈ (d.withSteps steps).failureEdges) => e.readsAgain
  have hstructural := (d.withSteps steps).structural.readsAgain
  obtain ⟨written, hw⟩ := Reads.exists_of_record h
  simp only [Reads.gives_seq, Reads.gives_map] at hw
  obtain ⟨name, hname, objective, hobjective, world, hworld, actors, hactors,
    constraints, hconstraints, approvals, happrovals, written, -, success,
    hsuccess, failurePaths, -, tags, htags, metadata, hmetadata, rfl⟩ := hw
  intro m'
  refine Reads.record_eq_ok rfl ?_
  simp only [Reads.gives_seq, Reads.gives_map]
  exact ⟨name, (stable_text.readsAgain_of_required hname).field rfl, objective,
    (Objective.stable.readsAgain_of_defaulted (fun _ => rfl) hobjective).field
      rfl, actors,
    (Actor.stable.list.readsAgain_of_defaulted (fun _ => rfl) hactors).field
      rfl, constraints,
    (Constraint.stable.list.readsAgain_of_defaulted (fun _ => rfl)
      hconstraints).field rfl, approvals,
    (ApprovalStage.stable.list.readsAgain_of_defaulted (fun _ => rfl)
      happrovals).field rfl, steps,
    (Decoder.ReadsAgain.list hsteps).field rfl, _,
    hpositions.field rfl, _, hedges.field rfl, success,
    (Criterion.stable.list.readsAgain_of_defaulted (fun _ => rfl)
      hsuccess).field rfl, world,
    (stable_value.readsAgain_of_defaulted (fun _ => rfl) hworld).field rfl, _,
    hstructural.field rfl, tags,
    (stable_text.list.readsAgain_of_defaulted (fun _ => rfl) htags).field rfl,
    metadata,
    (stable_values.readsAgain_of_defaulted (fun _ => rfl) hmetadata).field rfl,
    rfl⟩

/-- A workflow that a document compiles to is read from what is written for it
when all operations that it names are legible. -/
theorem readsAgain_of_compile (h : decode m t = .ok d)
    (hsize : d.steps.length ≤ UInt64.size) (hcompile : d.compile known = .ok w)
    (hlegible : ∀ id ∈ w.named, id.IsLegible) :
    Workflow.decode.ReadsAgain Workflow.encode w := by
  obtain ⟨specs, hpasses⟩ := exists_passes_of_compile hcompile
  have hsteps := hpasses.steps_readAgain h hsize hlegible
  have hpositions := hpasses.positions_readAgain hsize
  rw [hpasses.eq_withSteps] at hpositions ⊢
  exact withSteps_readsAgain h hsteps hpositions

end WorkflowDocument

end CallGate
