import CallGate.Proofs.Session.Runs
import CallGate.Proofs.Workflow.Cycle
import CallGate.Proofs.Workflow.Layout
import CallGate.Proofs.Workflow.Template
import Mathlib.Data.List.TakeWhile

/-!
# Which documents compile

A document is well-formed by conditions on the document and the registry
alone: nothing in them mentions the passes of the compiler, the order in which
it makes its checks, or what it remembers on the way.  The documents that
compile are exactly the well-formed ones.
-/

namespace CallGate

/-- What is left of a text whose first character is not blank is not blank. -/
theorem Text.trimLeft_eq_nil_of_forall {cs : List Char}
    (h : ∀ c ∈ trimLeft cs, isBlank c = true) : trimLeft cs = [] := by
  cases hleft : trimLeft cs with
  | nil => rfl
  | cons c rest =>
      have hblank : isBlank c = true := by
        apply h
        rw [hleft]
        exact List.mem_cons_self
      have hfirst := List.head?_dropWhile_not isBlank cs
      rw [← trimLeft, hleft] at hfirst
      simp [hblank] at hfirst

theorem Text.trim_eq_empty_iff {s : String} :
    Text.trim s = "" ↔ Text.isBlankText s = true := by
  have hnil : ∀ cs : List Char,
      trimLeft cs = [] ↔ ∀ c ∈ cs, isBlank c = true := by
    intro cs
    rw [trimLeft, List.dropWhile_eq_nil_iff]
  rw [trim, isBlankText, List.all_eq_true, ← hnil, ← String.toList_eq_nil_iff,
    String.toList_ofList, trimChars, List.reverse_eq_nil_iff, hnil]
  constructor
  · intro h
    apply trimLeft_eq_nil_of_forall
    intro c hc
    exact h c (List.mem_reverse.2 hc)
  · intro h
    rw [h]
    exact nofun

theorem ApprovalControl.id_injective {c c' : ApprovalControl}
    (h : c.id = c'.id) : c = c' := by
  have hlabel : c.label = c'.label := congrArg OperationId.name h
  cases c <;> cases c' <;> simp_all [ApprovalControl.label]

/-! ## Well-formed documents -/

/-- The step asks for an approval, reports on it or gives it, and plain
strings in its arguments name the operation that it is about. -/
structure WrittenStep.Prepares (s : WrittenStep) (operation : OperationId) :
    Prop where
  control : ∃ c : ApprovalControl,
    (c = .request ∨ c = .status ∨ c = .approve) ∧ s.call.target = c.id
  service_eq : s.call.args.get? "service" = some (.str operation.service)
  name_eq : s.call.args.get? "operation" = some (.str operation.name)

namespace WorkflowDocument

/-- A failure of the step at a place leads to another place. -/
inductive FailsTo (d : WorkflowDocument) : Nat → Nat → Prop where
  | next (i : Nat) (s : WrittenStep) (hs : d.steps[i]? = some s)
      (hpolicy : s.onFailure = .continue) (hnext : i + 1 < d.steps.length) :
      FailsTo d i (i + 1)
  | jump (i j : Nat) (s t : WrittenStep) (hs : d.steps[i]? = some s)
      (ht : d.steps[j]? = some t) (hpolicy : s.onFailure = .jump t.id) :
      FailsTo d i j

/-- A failure leads from one place to another, and the step may be attempted
any number of times. -/
def FailsForever (d : WorkflowDocument) (i j : Nat) : Prop :=
  (∃ s, d.steps[i]? = some s ∧ s.maxAttempts = none) ∧ d.FailsTo i j

/-- A document that fits together, given the operations that are known. -/
structure WellFormed (d : WorkflowDocument) (known : Registry) : Prop where
  steps_ne_nil : d.steps ≠ []
  ids_nodup : d.stepIds.Nodup
  ids_not_blank : ∀ id ∈ d.stepIds, Text.trim id ≠ ""
  calls_known : ∀ s ∈ d.steps, ∃ spec, known.get? s.call.target = some spec
  attempts_ne_zero : ∀ s ∈ d.steps, s.maxAttempts ≠ some 0
  jumps_known : ∀ s ∈ d.steps, ∀ target,
    s.onFailure = .jump target → target ∈ d.stepIds
  paths_known : ∀ path ∈ d.failurePaths,
    path.trigger ∈ d.stepIds ∧ ∀ id ∈ path.recovery, id ∈ d.stepIds
  criteria_known : ∀ id, .stepSucceeded id ∈ d.success → id ∈ d.stepIds
  /-- On every cycle of failures some step bounds its attempts. -/
  cycles_bounded : ∀ i, ¬Relation.TransGen d.FailsForever i i
  risks_prepared : ∀ (i : Nat) (s : WrittenStep) (spec : OperationSpec),
    d.steps[i]? = some s →
      known.get? s.call.target = some spec → spec.risk = .writeRisky →
      s.fallback = some .autoDeny ∨
        ∃ j < i, ∃ t, d.steps[j]? = some t ∧ t.Prepares s.call.target
  references_back : ∀ (i : Nat) (s : WrittenStep) (text : String),
    d.steps[i]? = some s → s.call.args.HasText text →
      ∃ refs, Template.Refers text.toList refs ∧ ∀ id path,
        .step id path ∈ refs → ∃ j < i, ∃ t, d.steps[j]? = some t ∧ t.id = id

end WorkflowDocument

/-! ## The checks one by one -/

namespace Compile

theorem forEach_eq_ok_iff {α ε : Type} {check : α → Except ε Unit}
    {items : List α} :
    forEach check items = .ok () ↔ ∀ a ∈ items, check a = .ok () := by
  induction items with
  | nil => simp [forEach]
  | cons a rest ih =>
      rw [forEach, List.forall_mem_cons]
      cases hcheck : check a with
      | error e => simp
      | ok _ => simp [ih]

theorem checkIds_eq_ok_iff {seen ids : List String} :
    checkIds seen ids = .ok () ↔
      (∀ id ∈ ids, Text.isBlankText id = false ∧ id ∉ seen) ∧ ids.Nodup := by
  induction ids generalizing seen with
  | nil => simp [checkIds]
  | cons id rest ih =>
      rw [checkIds, List.forall_mem_cons, List.nodup_cons]
      split
      · rename_i hblank
        simp [hblank]
      · split
        · rename_i hseen
          have hmem : id ∈ seen := List.contains_iff_mem.1 hseen
          simp [hmem]
        · rename_i hblank hseen
          have hnew : id ∉ seen := fun h => hseen (List.contains_iff_mem.2 h)
          have hwritten : Text.isBlankText id = false := by
            simpa using hblank
          rw [ih]
          constructor
          · rintro ⟨hrest, hnodup⟩
            refine ⟨⟨⟨hwritten, hnew⟩, fun other hother => ?_⟩, ?_, hnodup⟩
            · obtain ⟨hother', hfresh⟩ := hrest other hother
              refine ⟨hother', fun h => ?_⟩
              exact hfresh (List.mem_append_left _ h)
            · intro hid
              exact (hrest id hid).2 (List.mem_append_right _
                List.mem_cons_self)
          · rintro ⟨⟨-, hrest⟩, hid, hnodup⟩
            refine ⟨fun other hother => ?_, hnodup⟩
            obtain ⟨hother', hfresh⟩ := hrest other hother
            refine ⟨hother', fun h => ?_⟩
            rcases List.mem_append.1 h with hold | hlast
            · exact hfresh hold
            · rw [List.mem_singleton.1 hlast] at hother
              exact hid hother

theorem checkStructure_eq_ok_iff {steps : List WrittenStep} :
    checkStructure steps = .ok () ↔
      steps ≠ [] ∧ (∀ id ∈ steps.map (·.id), Text.trim id ≠ "") ∧
        (steps.map (·.id)).Nodup := by
  rw [checkStructure]
  split
  · rename_i hempty
    simp [List.isEmpty_iff.1 hempty]
  · rename_i hsome
    have hne : steps ≠ [] := fun h => hsome (List.isEmpty_iff.2 h)
    rw [checkIds_eq_ok_iff]
    simp [hne, Text.trim_eq_empty_iff]

theorem exists_specsOf_iff {known : Registry} {written : List WrittenStep} :
    (∃ specs, specsOf known written = .ok specs) ↔
      ∀ s ∈ written, ∃ spec, known.get? s.call.target = some spec := by
  induction written with
  | nil => simp [specsOf]
  | cons s rest ih =>
      rw [List.forall_mem_cons, ← ih, specsOf, specOf]
      cases known.get? s.call.target with
      | none => simp
      | some spec =>
          cases specsOf known rest with
          | error e => simp [Except.map]
          | ok specs => simp [Except.map]

theorem exists_recourseOf_iff {ids : List String} {s : WrittenStep} :
    (∃ recourse, recourseOf ids s = .ok recourse) ↔
      ∀ target, s.onFailure = .jump target → target ∈ ids := by
  rw [recourseOf]
  cases s.onFailure with
  | fail => simp
  | «continue» => simp
  | jump target =>
      cases hindex : ids.idxOf? target with
      | none =>
          have habsent : target ∉ ids := List.idxOf?_eq_none_iff.1 hindex
          simp [hindex, habsent]
      | some index =>
          have hmem : target ∈ ids :=
            List.isSome_idxOf?.1 (Option.isSome_of_eq_some hindex)
          simp [hindex, hmem]

theorem exists_stepsOf_iff {ids : List String} {first : Nat}
    {pairs : List (WrittenStep × OperationSpec)} :
    (∃ steps, stepsOf ids first pairs = .ok steps) ↔
      ∀ p ∈ pairs, p.1.maxAttempts ≠ some 0 ∧
        ∀ target, p.1.onFailure = .jump target → target ∈ ids := by
  induction pairs generalizing first with
  | nil => simp [stepsOf]
  | cons p rest ih =>
      rw [List.forall_mem_cons, ← @ih (first + 1),
        ← exists_recourseOf_iff, stepsOf, stepOf]
      by_cases hzero : p.1.maxAttempts = some 0
      · simp [hzero]
      · rw [if_neg hzero]
        cases recourseOf ids p.1 with
        | error e => simp [Except.map]
        | ok recourse =>
            cases stepsOf ids (first + 1) rest with
            | error e => simp [Except.map]
            | ok steps => simp [Except.map, hzero]

/-- A step of a workflow comes from the written one at its place. -/
structure Makes (known : Registry) (ids : List String) (i : Nat)
    (s : WrittenStep) (step : Step) : Prop where
  index_eq : step.index = i
  id_eq : step.id = s.id
  args_eq : step.args = s.call.args
  expect_eq : step.expect =
    if s.expect.isEmpty then Expectation.ordinary else s.expect
  operation_eq : known.get? s.call.target = some step.operation
  recourse_eq : recourseOf ids s = .ok step.onFailure
  attempts_eq : step.maxAttempts = s.maxAttempts
  fallback_eq : step.fallback = s.fallback

/-- The steps of a workflow come one by one from those of a document. -/
structure Made (known : Registry) (d : WorkflowDocument) (steps : List Step) :
    Prop where
  length_eq : steps.length = d.steps.length
  makes : ∀ (i : Nat) (step : Step), steps[i]? = some step →
    ∃ s, d.steps[i]? = some s ∧ Makes known d.stepIds i s step

theorem getElem?_specsOf {known : Registry} {written : List WrittenStep}
    {specs : List OperationSpec} (h : specsOf known written = .ok specs)
    {i : Nat} {spec : OperationSpec} (hspec : specs[i]? = some spec) :
    ∃ s, written[i]? = some s ∧ known.get? s.call.target = some spec := by
  induction written generalizing specs i with
  | nil =>
      cases h
      cases hspec
  | cons s rest ih =>
      obtain ⟨first, more, hget, hrest, rfl⟩ := specsOf_cons_eq_ok h
      cases i with
      | zero =>
          cases hspec
          exact ⟨s, rfl, hget⟩
      | succ i => exact ih hrest hspec

theorem makes_of_stepOf {known : Registry} {ids : List String} {i : Nat}
    {s : WrittenStep} {spec : OperationSpec} {step : Step}
    (h : stepOf ids i s spec = .ok step)
    (hspec : known.get? s.call.target = some spec) :
    Makes known ids i s step := by
  obtain ⟨recourse, hrecourse, rfl⟩ := exists_recourse_of_stepOf h
  exact ⟨rfl, rfl, rfl, rfl, hspec, hrecourse, rfl, rfl⟩

theorem made_of_stepsOf {known : Registry} {d : WorkflowDocument}
    {specs : List OperationSpec} {steps : List Step}
    (hspecs : specsOf known d.steps = .ok specs)
    (hsteps : stepsOf d.stepIds 0 (d.steps.zip specs) = .ok steps) :
    Made known d steps := by
  have hlength := length_specsOf hspecs
  constructor
  · have hids := congrArg List.length (map_id_stepsOf hsteps)
    simpa [hlength] using hids
  · intro i step hstep
    obtain ⟨⟨s, spec⟩, hpair, hstepOf⟩ := getElem?_stepsOf hsteps hstep
    rw [List.getElem?_zip_eq_some] at hpair
    obtain ⟨hs, hspec⟩ := hpair
    obtain ⟨s', hs', hget⟩ := getElem?_specsOf hspecs hspec
    rw [hs] at hs'
    cases hs'
    rw [Nat.zero_add] at hstepOf
    exact ⟨s, hs, makes_of_stepOf hstepOf hget⟩

section Made

variable {known : Registry} {d : WorkflowDocument} {steps : List Step}

theorem Made.exists_step (h : Made known d steps) {i : Nat} {s : WrittenStep}
    (hs : d.steps[i]? = some s) :
    ∃ step, steps[i]? = some step ∧ Makes known d.stepIds i s step := by
  have hi : i < steps.length := by
    rw [h.length_eq]
    exact (List.getElem?_eq_some_iff.1 hs).1
  have hstep : steps[i]? = some steps[i] := List.getElem?_eq_getElem hi
  obtain ⟨s', hs', hmakes⟩ := h.makes i _ hstep
  rw [hs] at hs'
  cases hs'
  exact ⟨_, hstep, hmakes⟩

theorem Made.exists_of_mem (h : Made known d steps) {step : Step}
    (hstep : step ∈ steps) :
    ∃ i s, d.steps[i]? = some s ∧ Makes known d.stepIds i s step := by
  obtain ⟨i, hi⟩ := List.getElem?_of_mem hstep
  exact ⟨i, h.makes i step hi⟩

/-- When ids are different, the place at which an id is found is the place of
the step with this id. -/
theorem idxOf?_stepIds_eq_some_iff (hnodup : d.stepIds.Nodup) {id : String}
    {j : Nat} :
    d.stepIds.idxOf? id = some j ↔ ∃ t, d.steps[j]? = some t ∧ t.id = id := by
  have hget : ∀ k : Nat, d.stepIds[k]? = (d.steps[k]?).map (·.id) := by
    intro k
    rw [WorkflowDocument.stepIds, List.getElem?_map]
  have hplace : (∃ t, d.steps[j]? = some t ∧ t.id = id) ↔
      d.stepIds[j]? = some id := by
    rw [hget, Option.map_eq_some_iff]
  rw [hplace, List.idxOf?_eq_some_iff, List.getElem?_eq_some_iff]
  constructor
  · rintro ⟨hj, hid, -⟩
    exact ⟨hj, hid⟩
  · rintro ⟨hj, hid⟩
    refine ⟨hj, hid, fun k hk heq => ?_⟩
    have hsame : d.stepIds[k] = d.stepIds[j] := heq.trans hid.symm
    rw [hnodup.getElem_inj_iff] at hsame
    omega

theorem recourseOf_eq_ok_iff {ids : List String} {s : WrittenStep}
    {recourse : Recourse} :
    recourseOf ids s = .ok recourse ↔
      (s.onFailure = .fail ∧ recourse = .fail) ∨
        (s.onFailure = .continue ∧ recourse = .continue) ∨
        ∃ target index, s.onFailure = .jump target ∧
          ids.idxOf? target = some index ∧ recourse = .jump target index := by
  rw [recourseOf]
  cases s.onFailure with
  | fail => simp [eq_comm]
  | «continue» => simp [eq_comm]
  | jump target =>
      cases hindex : ids.idxOf? target with
      | none => simp [hindex]
      | some index => simp [hindex, eq_comm]

theorem Made.failureSuccessor_iff (h : Made known d steps)
    (hnodup : d.stepIds.Nodup) {i j : Nat} :
    failureSuccessor steps i = some j ↔ d.FailsTo i j := by
  constructor
  · intro hnext
    rw [failureSuccessor] at hnext
    split at hnext
    · cases hnext
    · rename_i step hstep
      obtain ⟨s, hs, hmakes⟩ := h.makes i step hstep
      rcases recourseOf_eq_ok_iff.1 hmakes.recourse_eq with
        ⟨-, hrecourse⟩ | ⟨hpolicy, hrecourse⟩ |
          ⟨target, index, hpolicy, hindex, hrecourse⟩
      · rw [hrecourse] at hnext
        cases hnext
      · rw [hrecourse, h.length_eq] at hnext
        dsimp only at hnext
        split at hnext
        · rename_i hlt
          cases hnext
          exact .next i s hs hpolicy hlt
        · cases hnext
      · rw [hrecourse] at hnext
        cases hnext
        obtain ⟨t, ht, rfl⟩ := (idxOf?_stepIds_eq_some_iff hnodup).1 hindex
        exact .jump i j s t hs ht hpolicy
  · intro hfails
    cases hfails with
    | next s hs hpolicy hlt =>
        obtain ⟨step, hstep, hmakes⟩ := h.exists_step hs
        have hrecourse : step.onFailure = .continue := by
          have heq := hmakes.recourse_eq
          rw [recourseOf, hpolicy] at heq
          exact (Except.ok.inj heq).symm
        have hlt' : i + 1 < steps.length := h.length_eq ▸ hlt
        simp [failureSuccessor, hstep, hrecourse, hlt']
    | jump _ s t hs ht hpolicy =>
        obtain ⟨step, hstep, hmakes⟩ := h.exists_step hs
        have hindex : d.stepIds.idxOf? t.id = some j :=
          (idxOf?_stepIds_eq_some_iff hnodup).2 ⟨t, ht, rfl⟩
        have hrecourse : step.onFailure = .jump t.id j := by
          have heq := hmakes.recourse_eq
          rw [recourseOf, hpolicy] at heq
          simp only [hindex] at heq
          exact (Except.ok.inj heq).symm
        simp [failureSuccessor, hstep, hrecourse]

theorem WorkflowDocument.FailsTo.lt {i j : Nat} (h : d.FailsTo i j) :
    i < d.steps.length ∧ j < d.steps.length := by
  cases h with
  | next s hs _ hlt => exact ⟨(List.getElem?_eq_some_iff.1 hs).1, hlt⟩
  | jump _ s t hs ht _ =>
      exact ⟨(List.getElem?_eq_some_iff.1 hs).1,
        (List.getElem?_eq_some_iff.1 ht).1⟩

/-- The step at a place may have any number of attempts. -/
def isFree (steps : List Step) (i : Nat) : Bool :=
  ((steps[i]?).bind (·.maxAttempts)).isNone

theorem checkFailureCycles_eq_ok_iff {steps : List Step}
    (hbounds : ∀ i j, failureSuccessor steps i = some j →
      i < steps.length ∧ j < steps.length) :
    checkFailureCycles steps = .ok () ↔
      ∀ i, ¬Cycle.OnCycle (failureSuccessor steps) (isFree steps) i := by
  have hfound : Cycle.find? (failureSuccessor steps) steps.length
      (isUnbounded steps) = none ↔
      ∀ i, ¬Cycle.OnCycle (failureSuccessor steps) (isFree steps) i :=
    Cycle.find?_eq_none_iff (p := isFree steps) hbounds
  rw [← hfound, checkFailureCycles]
  cases Cycle.find? (failureSuccessor steps) steps.length
    (isUnbounded steps) with
  | none => simp
  | some c => simp

theorem Made.checkFailureCycles_iff (h : Made known d steps)
    (hnodup : d.stepIds.Nodup) :
    checkFailureCycles steps = .ok () ↔
      ∀ i, ¬Relation.TransGen d.FailsForever i i := by
  have honward : Cycle.Onward (failureSuccessor steps) (isFree steps) =
      d.FailsForever := by
    funext i j
    apply propext
    rw [Cycle.Onward, h.failureSuccessor_iff hnodup,
      WorkflowDocument.FailsForever, and_congr_left_iff]
    intro hfails
    have hi : i < d.steps.length := (WorkflowDocument.FailsTo.lt hfails).1
    have hs : d.steps[i]? = some d.steps[i] := List.getElem?_eq_getElem hi
    obtain ⟨step, hstep, hmakes⟩ := h.exists_step hs
    simp [isFree, hstep, hs, hmakes.attempts_eq]
  have hbounds : ∀ i j, failureSuccessor steps i = some j →
      i < steps.length ∧ j < steps.length := by
    intro i j hnext
    rw [h.length_eq]
    exact WorkflowDocument.FailsTo.lt
      ((h.failureSuccessor_iff hnodup).1 hnext)
  rw [checkFailureCycles_eq_ok_iff hbounds, ← honward]
  rfl

/-! ## Approvals -/

theorem checkApprovalIntent_eq_ok_iff {named : List OperationId}
    {steps : List Step} :
    checkApprovalIntent named steps = .ok () ↔
      ∀ (i : Nat) (step : Step), steps[i]? = some step →
        step.operation.risk = .writeRisky →
        step.fallback = some .autoDeny ∨ step.operation.id ∈ named ∨
          ∃ j < i, ∃ t, steps[j]? = some t ∧
            t.approvalTarget? = some step.operation.id := by
  induction steps generalizing named with
  | nil => simp [checkApprovalIntent]
  | cons first rest ih =>
      rw [checkApprovalIntent]
      split
      · rename_i hbad
        simp only [Bool.and_eq_true, decide_eq_true_eq, Bool.not_eq_true',
          Option.isNone_iff_eq_none] at hbad
        obtain ⟨⟨hrisk, hnamed⟩, hfallback⟩ := hbad
        refine iff_of_false nofun fun hall => ?_
        rcases hall 0 first rfl hrisk with hdeny | hmem | ⟨j, hj, -⟩
        · rw [hfallback] at hdeny
          cases hdeny
        · rw [List.contains_iff_mem.2 hmem] at hnamed
          cases hnamed
        · exact Nat.not_lt_zero j hj
      · rename_i hgood
        rw [ih]
        constructor
        · intro hall i step hstep hrisk
          cases i with
          | zero =>
              cases hstep
              by_contra hbad
              push Not at hbad
              obtain ⟨hdeny, hnamed, -⟩ := hbad
              apply hgood
              have hfallback : first.fallback = none := by
                cases hf : first.fallback with
                | none => rfl
                | some fallback =>
                    cases fallback
                    exact absurd hf hdeny
              simp [hrisk, hnamed, hfallback]
          | succ i =>
              rcases hall i step hstep hrisk with
                hdeny | hmem | ⟨j, hj, t, ht, htarget⟩
              · exact Or.inl hdeny
              · rcases List.mem_append.1 hmem with hfirst | hnamed
                · refine Or.inr (Or.inr ⟨0, Nat.succ_pos i, first, rfl, ?_⟩)
                  exact Option.mem_toList.1 hfirst
                · exact Or.inr (Or.inl hnamed)
              · exact Or.inr (Or.inr ⟨j + 1, by omega, t, ht, htarget⟩)
        · intro hall i step hstep hrisk
          rcases hall (i + 1) step hstep hrisk with
            hdeny | hnamed | ⟨j, hj, t, ht, htarget⟩
          · exact Or.inl hdeny
          · exact Or.inr (Or.inl (List.mem_append_right _ hnamed))
          · cases j with
            | zero =>
                cases ht
                refine Or.inr (Or.inl (List.mem_append_left _ ?_))
                exact Option.mem_toList.2 htarget
            | succ j =>
                exact Or.inr (Or.inr ⟨j, by omega, t, ht, htarget⟩)

theorem namedOperation?_eq_some_iff {args : Json} {operation : OperationId} :
    Step.namedOperation? args = some operation ↔
      args.get? "service" = some (.str operation.service) ∧
        args.get? "operation" = some (.str operation.name) := by
  have htext : ∀ (v : Option Json) (text : String),
      v.bind Json.text? = some text ↔ v = some (.str text) := by
    intro v text
    cases v with
    | none => simp
    | some v => cases v <;> simp [Json.text?]
  rw [← htext, ← htext, Step.namedOperation?]
  cases (args.get? "service").bind Json.text? with
  | none => simp
  | some service =>
      cases (args.get? "operation").bind Json.text? with
      | none => simp
      | some name =>
          cases operation
          simp

theorem Makes.approvalTarget?_iff (hbuilt : known.Built) {i : Nat}
    {s : WrittenStep} {step : Step} (h : Makes known d.stepIds i s step)
    {operation : OperationId} :
    step.approvalTarget? = some operation ↔ s.Prepares operation := by
  rcases hbuilt.fits h.operation_eq with ⟨hservice, risk, hspec⟩ |
    ⟨c, htarget, hspec⟩
  · refine iff_of_false ?_ ?_
    · rw [Step.approvalTarget?, hspec]
      exact nofun
    · rintro ⟨⟨c, -, htarget⟩, -, -⟩
      rw [htarget] at hservice
      exact hservice rfl
  · have hcontrol : (∃ c' : ApprovalControl,
        (c' = .request ∨ c' = .status ∨ c' = .approve) ∧
          s.call.target = c'.id) ↔
        (c = .request ∨ c = .status ∨ c = .approve) := by
      constructor
      · rintro ⟨c', hc', heq⟩
        rw [htarget] at heq
        rwa [ApprovalControl.id_injective heq]
      · exact fun hc => ⟨c, hc, htarget⟩
    have hprepares : s.Prepares operation ↔
        (c = .request ∨ c = .status ∨ c = .approve) ∧
          Step.namedOperation? s.call.args = some operation := by
      rw [← hcontrol, namedOperation?_eq_some_iff]
      exact ⟨fun ⟨hc, hs, hn⟩ => ⟨hc, hs, hn⟩,
        fun ⟨hc, hs, hn⟩ => ⟨hc, hs, hn⟩⟩
    rw [hprepares, Step.approvalTarget?, hspec, h.args_eq]
    cases c <;> simp [OperationSpec.viaControl]

theorem Made.checkApprovalIntent_iff (h : Made known d steps)
    (hbuilt : known.Built) :
    checkApprovalIntent [] steps = .ok () ↔
      ∀ (i : Nat) (s : WrittenStep) (spec : OperationSpec),
        d.steps[i]? = some s → known.get? s.call.target = some spec →
        spec.risk = .writeRisky → s.fallback = some .autoDeny ∨
          ∃ j < i, ∃ t, d.steps[j]? = some t ∧ t.Prepares s.call.target := by
  rw [checkApprovalIntent_eq_ok_iff]
  constructor
  · intro hall i s spec hs hspec hrisk
    obtain ⟨step, hstep, hmakes⟩ := h.exists_step hs
    have hoperation : step.operation = spec := by
      have heq := hmakes.operation_eq
      rw [hspec] at heq
      exact (Option.some.inj heq).symm
    have hid : step.operation.id = s.call.target :=
      (hbuilt.fits hmakes.operation_eq).id_eq
    rw [← hmakes.fallback_eq]
    rcases hall i step hstep (hoperation ▸ hrisk) with
      hdeny | hnamed | ⟨j, hj, t, ht, htarget⟩
    · exact Or.inl hdeny
    · cases hnamed
    · obtain ⟨u, hu, humakes⟩ := h.makes j t ht
      rw [hid] at htarget
      exact Or.inr
        ⟨j, hj, u, hu, (humakes.approvalTarget?_iff hbuilt).1 htarget⟩
  · intro hall i step hstep hrisk
    obtain ⟨s, hs, hmakes⟩ := h.makes i step hstep
    have hid : step.operation.id = s.call.target :=
      (hbuilt.fits hmakes.operation_eq).id_eq
    rw [hmakes.fallback_eq, hid]
    rcases hall i s step.operation hs hmakes.operation_eq hrisk with
      hdeny | ⟨j, hj, u, hu, hprepares⟩
    · exact Or.inl hdeny
    · obtain ⟨t, ht, htmakes⟩ := h.exists_step hu
      exact Or.inr (Or.inr ⟨j, hj, t, ht,
        (htmakes.approvalTarget?_iff hbuilt).2 hprepares⟩)

/-! ## References -/

theorem checkReference_eq_ok_iff {ids : List String} {step : Step}
    {r : Template.Reference} :
    checkReference ids step r = .ok () ↔ ∀ id path, r = .step id path →
      ∃ j < step.index, ids.idxOf? id = some j := by
  cases r with
  | world path => simp [checkReference]
  | step id path =>
      rw [checkReference]
      cases hindex : ids.idxOf? id with
      | none => simp [hindex]
      | some j =>
          by_cases hlt : j < step.index
          · simp [hindex, hlt]
          · simp [hindex, hlt]

theorem checkTemplates_eq_ok_iff {ids : List String} {step : Step} :
    checkTemplates ids step = .ok () ↔
      Template.ReferTo (fun r => checkReference ids step r = .ok ())
        (Template.references step.args) := by
  rw [checkTemplates]
  cases Template.references step.args with
  | error e => simp [Template.ReferTo]
  | ok refs => simp [Template.ReferTo, forEach_eq_ok_iff]

theorem Made.checkTemplates_iff (h : Made known d steps)
    (hnodup : d.stepIds.Nodup) :
    forEach (checkTemplates d.stepIds) steps = .ok () ↔
      ∀ (i : Nat) (s : WrittenStep) (text : String), d.steps[i]? = some s →
        s.call.args.HasText text → ∃ refs, Template.Refers text.toList refs ∧
          ∀ id path, .step id path ∈ refs →
            ∃ j < i, ∃ t, d.steps[j]? = some t ∧ t.id = id := by
  have hone : ∀ (i : Nat) (s : WrittenStep) (step : Step),
      Makes known d.stepIds i s step →
      (checkTemplates d.stepIds step = .ok () ↔
        ∀ text, s.call.args.HasText text →
          ∃ refs, Template.Refers text.toList refs ∧
            ∀ id path, .step id path ∈ refs →
              ∃ j < i, ∃ t, d.steps[j]? = some t ∧ t.id = id) := by
    intro i s step hmakes
    rw [checkTemplates_eq_ok_iff, Template.referTo_references_iff,
      hmakes.args_eq]
    refine forall₂_congr fun text _ => exists_congr fun refs =>
      and_congr_right fun _ => ?_
    simp only [checkReference_eq_ok_iff, hmakes.index_eq,
      idxOf?_stepIds_eq_some_iff hnodup]
    constructor
    · intro hall id path hmem
      exact hall _ hmem id path rfl
    · rintro hall r hmem id path rfl
      exact hall id path hmem
  rw [forEach_eq_ok_iff]
  constructor
  · intro hall i s text hs
    obtain ⟨step, hstep, hmakes⟩ := h.exists_step hs
    exact (hone i s step hmakes).1 (hall step (List.mem_of_getElem? hstep))
      text
  · intro hall step hmem
    obtain ⟨i, s, hs, hmakes⟩ := h.exists_of_mem hmem
    exact (hone i s step hmakes).2 fun text => hall i s text hs

/-! ## Names of steps elsewhere -/

theorem checkFailurePath_eq_ok_iff {ids : List String} {path : FailurePath} :
    checkFailurePath ids path = .ok () ↔
      path.trigger ∈ ids ∧ ∀ id ∈ path.recovery, id ∈ ids := by
  have hone : ∀ id : String, (if ids.contains id then .ok () else
      .error (.unknownFailurePathStep path.name id) :
        Except CompileError Unit) = .ok () ↔ id ∈ ids := by
    intro id
    by_cases hid : id ∈ ids <;> simp [hid]
  rw [checkFailurePath, forEach_eq_ok_iff, List.forall_mem_cons]
  simp only [hone]

theorem forEach_checkCriterion_eq_ok_iff {ids : List String}
    {criteria : List Criterion} :
    forEach (checkCriterion ids) criteria = .ok () ↔
      ∀ id, .stepSucceeded id ∈ criteria → id ∈ ids := by
  have hone : ∀ c, checkCriterion ids c = .ok () ↔
      ∀ id, c = .stepSucceeded id → id ∈ ids := by
    intro c
    cases c with
    | stepSucceeded id =>
        by_cases hid : id ∈ ids <;> simp [checkCriterion, hid]
    | _ => simp [checkCriterion]
  rw [forEach_eq_ok_iff]
  simp only [hone]
  constructor
  · exact fun hall id hmem => hall _ hmem id rfl
  · rintro hall c hmem id rfl
    exact hall id hmem

end Made

end Compile

/-! ## The checks together -/

namespace WorkflowDocument

open Compile

/-- A document compiles when all its checks go through. -/
theorem exists_compile_iff {d : WorkflowDocument} {known : Registry} :
    (∃ w, d.compile known = .ok w) ↔
      checkStructure d.steps = .ok () ∧
      ∃ specs, specsOf known d.steps = .ok specs ∧
      ∃ steps, stepsOf d.stepIds 0 (d.steps.zip specs) = .ok steps ∧
        forEach (checkFailurePath d.stepIds) d.failurePaths = .ok () ∧
        checkFailureCycles steps = .ok () ∧
        checkApprovalIntent [] steps = .ok () ∧
        forEach (checkTemplates d.stepIds) steps = .ok () ∧
        forEach (checkCriterion d.stepIds) d.success = .ok () := by
  have hunit : ∀ {x : Except CompileError Unit} {P : Unit → Prop},
      (∃ a, x = .ok a ∧ P a) ↔ x = .ok () ∧ P () := by
    intro x P
    exact ⟨fun ⟨_, hx, hP⟩ => ⟨hx, hP⟩, fun ⟨hx, hP⟩ => ⟨(), hx, hP⟩⟩
  have hlast : ∀ {x : Except CompileError Unit},
      (∃ a, x = .ok a) ↔ x = .ok () := by
    intro x
    exact ⟨fun ⟨_, hx⟩ => hx, fun hx => ⟨(), hx⟩⟩
  have hpure : ∀ w : Workflow,
      ∃ b, (pure w : Except CompileError Workflow) = .ok b :=
    fun w => ⟨w, rfl⟩
  rw [compile]
  simp only [exists_bind_eq_ok_iff, hunit, hpure, and_true, hlast]

/-- The steps of a compiled workflow are those of its document, and no cycle
of failures among them goes on for ever. -/
theorem stepsOf_of_compile {d : WorkflowDocument} {known : Registry}
    {w : Workflow} (h : d.compile known = .ok w) :
    ∃ specs, specsOf known d.steps = .ok specs ∧
      stepsOf d.stepIds 0 (d.steps.zip specs) = .ok w.steps ∧
      checkFailureCycles w.steps = .ok () := by
  obtain ⟨specs, hpasses⟩ := exists_passes_of_compile h
  exact ⟨specs, hpasses.specs_ok, hpasses.steps_ok, hpasses.cycles_ok⟩

theorem exists_stepsOf_zip_iff {d : WorkflowDocument} {known : Registry}
    {specs : List OperationSpec} (hspecs : specsOf known d.steps = .ok specs) :
    (∃ steps, stepsOf d.stepIds 0 (d.steps.zip specs) = .ok steps) ↔
      (∀ s ∈ d.steps, s.maxAttempts ≠ some 0) ∧
        ∀ s ∈ d.steps, ∀ target,
          s.onFailure = .jump target → target ∈ d.stepIds := by
  have hfirst : (d.steps.zip specs).map Prod.fst = d.steps :=
    List.map_fst_zip (Nat.le_of_eq (length_specsOf hspecs).symm)
  rw [exists_stepsOf_iff, ← forall₂_and, ← List.forall_mem_map
    (f := Prod.fst) (P := fun s : WrittenStep => s.maxAttempts ≠ some 0 ∧
      ∀ target, s.onFailure = .jump target → target ∈ d.stepIds), hfirst]

/-- No step of a compiled workflow may have no attempt at all. -/
theorem maxAttempts_ne_zero_of_compile {d : WorkflowDocument}
    {known : Registry} {w : Workflow} (h : d.compile known = .ok w)
    {step : Step} (hstep : step ∈ w.steps) : step.maxAttempts ≠ some 0 := by
  obtain ⟨specs, hspecs, hsteps, -⟩ := stepsOf_of_compile h
  obtain ⟨hattempts, -⟩ :=
    (exists_stepsOf_zip_iff hspecs).1 ⟨w.steps, hsteps⟩
  obtain ⟨i, s, hs, hmakes⟩ :=
    (made_of_stepsOf hspecs hsteps).exists_of_mem hstep
  rw [hmakes.attempts_eq]
  exact hattempts s (List.mem_of_getElem? hs)

/-- A document compiles exactly when it is well-formed. -/
theorem exists_compile_iff_wellFormed (d : WorkflowDocument)
    {known : Registry} (hbuilt : known.Built) :
    (∃ w, d.compile known = .ok w) ↔ d.WellFormed known := by
  rw [exists_compile_iff, checkStructure_eq_ok_iff]
  constructor
  · rintro ⟨⟨hne, hblank, hnodup⟩, specs, hspecs, steps, hsteps, hpaths,
      hcycles, hintent, htemplates, hcriteria⟩
    have hmade : Made known d steps := made_of_stepsOf hspecs hsteps
    obtain ⟨hattempts, hjumps⟩ :=
      (exists_stepsOf_zip_iff hspecs).1 ⟨steps, hsteps⟩
    constructor
    · exact hne
    · exact hnodup
    · exact hblank
    · exact exists_specsOf_iff.1 ⟨specs, hspecs⟩
    · exact hattempts
    · exact hjumps
    · intro path hpath
      exact checkFailurePath_eq_ok_iff.1
        (forEach_eq_ok_iff.1 hpaths path hpath)
    · exact forEach_checkCriterion_eq_ok_iff.1 hcriteria
    · exact (hmade.checkFailureCycles_iff hnodup).1 hcycles
    · exact (hmade.checkApprovalIntent_iff hbuilt).1 hintent
    · exact (hmade.checkTemplates_iff hnodup).1 htemplates
  · intro h
    obtain ⟨specs, hspecs⟩ := exists_specsOf_iff.2 h.calls_known
    obtain ⟨steps, hsteps⟩ := (exists_stepsOf_zip_iff hspecs).2
      ⟨h.attempts_ne_zero, h.jumps_known⟩
    have hmade : Made known d steps := made_of_stepsOf hspecs hsteps
    refine ⟨⟨h.steps_ne_nil, h.ids_not_blank, h.ids_nodup⟩, specs, hspecs,
      steps, hsteps, ?_, ?_, ?_, ?_, ?_⟩
    · rw [forEach_eq_ok_iff]
      intro path hpath
      exact checkFailurePath_eq_ok_iff.2 (h.paths_known path hpath)
    · exact (hmade.checkFailureCycles_iff h.ids_nodup).2 h.cycles_bounded
    · exact (hmade.checkApprovalIntent_iff hbuilt).2 h.risks_prepared
    · exact (hmade.checkTemplates_iff h.ids_nodup).2 h.references_back
    · exact forEach_checkCriterion_eq_ok_iff.2 h.criteria_known

/-- A document whose first step asks for the approval that the second one
waits for.  The second step goes back to the first one, but not for ever. -/
def askingDocument : WorkflowDocument where
  name := "asked mail"
  objective := {}
  world := .null
  actors := []
  constraints := []
  approvals := []
  steps :=
    [⟨"ask", "", ⟨"approvals", "request",
        .obj [("operation", .str "send"), ("service", .str "mail")]⟩,
        [], .fail, none, none⟩,
      ⟨"send", "", ⟨"mail", "send",
        .obj [("about", .str "$\x7bsteps.ask.approval_id\x7d")]⟩,
        [], .jump "ask", some 2, none⟩]
  success := [.stepSucceeded "send"]
  failurePaths := []
  tags := []
  metadata := KeyMap.empty

theorem askingDocument_wellFormed :
    (∃ w, askingDocument.compile mailRegistry = .ok w) ∧
      askingDocument.WellFormed mailRegistry := by
  have hcompiles :
      (askingDocument.compile mailRegistry).toOption.any (fun _ => true) =
        true := by
    decide +kernel
  obtain ⟨w, hw, -⟩ := exists_ok_of_any hcompiles
  exact ⟨⟨w, hw⟩,
    (exists_compile_iff_wellFormed askingDocument mailRegistry_built).1
      ⟨w, hw⟩⟩

end WorkflowDocument

end CallGate
