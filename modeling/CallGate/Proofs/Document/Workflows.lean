import CallGate.Proofs.Document.Calls
import CallGate.Workflow.Basic

/-!
# Workflows that are written and read again

Workflows as they are written and workflows that can be run are stable, with
all that they are made of.
-/

namespace CallGate

open Decoder

/-! ## Who takes part and why -/

theorem Objective.stable : Objective.decode.Stable Objective.encode := by
  apply Reads.Stable.record
  · intro w o h m
    simp only [Reads.gives_seq, Reads.gives_map] at h ⊢
    obtain ⟨statement, hstatement, success, hsuccess, rfl⟩ := h
    exact ⟨statement, stable_text.defaulted (fun _ => rfl) hstatement rfl,
      success, stable_text.list.defaulted (fun _ => rfl) hsuccess rfl, rfl⟩
  · intro o
    rfl

theorem Actor.stable : Actor.decode.Stable Actor.encode := by
  apply Reads.Stable.record
  · intro w a h m
    simp only [Reads.gives_seq, Reads.gives_map] at h ⊢
    obtain ⟨id, hid, role, hrole, email, hemail, slack, hslack, rfl⟩ := h
    exact ⟨id, stable_text.required hid rfl, role,
      stable_text.required hrole (by simp), email,
      stable_text.optional nofun hemail (by simp), slack,
      stable_text.optional nofun hslack (by simp), rfl⟩
  · rintro ⟨_, _, _ | _, _ | _⟩ <;> rfl

theorem Constraint.stable : Constraint.decode.Stable Constraint.encode := by
  apply Reads.Stable.record
  · intro w c h m
    simp only [Reads.gives_seq, Reads.gives_map] at h ⊢
    obtain ⟨name, hname, description, hdescription, required, hrequired,
      rfl⟩ := h
    exact ⟨name, stable_text.required hname rfl, description,
      stable_text.defaulted (fun _ => rfl) hdescription rfl, required,
      stable_bool.defaulted (fun _ => rfl) hrequired rfl, rfl⟩
  · intro c
    rfl

theorem ApprovalStage.stable :
    ApprovalStage.decode.Stable ApprovalStage.encode := by
  apply Reads.Stable.record
  · intro w s h m
    simp only [Reads.gives_seq, Reads.gives_map] at h ⊢
    obtain ⟨stage, hstage, approver, happrover, required, hrequired, evidence,
      hevidence, rfl⟩ := h
    exact ⟨stage, stable_text.required hstage (by simp), approver,
      stable_text.required happrover rfl, required,
      stable_bool.defaulted (fun _ => rfl) hrequired (by simp), evidence,
      stable_text.optional nofun hevidence (by simp), rfl⟩
  · rintro ⟨_, _, _, _ | _⟩ <;> rfl

theorem FailurePath.stable : FailurePath.decode.Stable FailurePath.encode := by
  apply Reads.Stable.record
  · intro w p h m
    simp only [Reads.gives_seq, Reads.gives_map] at h ⊢
    obtain ⟨name, hname, trigger, htrigger, recovery, hrecovery, notes, hnotes,
      rfl⟩ := h
    exact ⟨name, stable_text.required hname rfl, trigger,
      stable_text.required htrigger (by simp), recovery,
      stable_text.list.defaulted (fun _ => rfl) hrecovery (by simp), notes,
      stable_text.optional nofun hnotes (by simp), rfl⟩
  · rintro ⟨_, _, _, _ | _⟩ <;> rfl

theorem Criterion.stable : Criterion.decode.Stable Criterion.encode := by
  intro m t c h m'
  obtain ⟨s, read, t', hmem, hread⟩ := exists_of_tagged h
  simp only [List.mem_cons, Prod.mk.injEq, List.not_mem_nil, or_false] at hmem
  rcases hmem with ⟨rfl, rfl⟩ | ⟨rfl, rfl⟩ | ⟨rfl, rfl⟩ | ⟨rfl, rfl⟩
  · obtain ⟨step, rfl, hagain⟩ := stable_text.exists_of_single hread
    exact tagged_eq_ok rfl rfl (hagain .aside)
  · obtain rfl := eq_of_bare hread
    exact tagged_eq_ok rfl rfl rfl
  · obtain ⟨max, rfl, hagain⟩ := (stable_natural _).exists_of_single hread
    exact tagged_eq_ok rfl rfl (hagain .aside)
  · obtain ⟨max, rfl, hagain⟩ := (stable_natural _).exists_of_single hread
    exact tagged_eq_ok rfl rfl (hagain .aside)

/-! ## Steps -/

theorem ApprovalFallback.stable :
    ApprovalFallback.decode.Stable ApprovalFallback.encode :=
  stable_label fun f => by cases f; rfl

theorem FailurePolicy.stable :
    FailurePolicy.decode.Stable FailurePolicy.encode :=
  stable_andThen_text fun _ _ h => FailurePolicy.read_display h

theorem Expectation.stable : Expectation.decode.Stable Expectation.encode := by
  intro m t e h m'
  obtain ⟨s, read, t', hmem, hread⟩ := exists_of_tagged h
  have hfield := stable_text.nullable nofun
  simp only [List.mem_cons, Prod.mk.injEq, List.not_mem_nil, or_false] at hmem
  rcases hmem with ⟨rfl, rfl⟩ | ⟨rfl, rfl⟩ | ⟨rfl, rfl⟩ | ⟨rfl, rfl⟩ |
    ⟨rfl, rfl⟩
  · obtain ⟨status, rfl, hagain⟩ := ResponseStatus.stable.exists_of_single hread
    exact tagged_eq_ok rfl rfl (hagain .aside)
  · obtain ⟨w, hw⟩ := Reads.exists_of_record hread
    simp only [Reads.gives_seq, Reads.gives_map] at hw
    obtain ⟨field, hf, text, htext, rfl⟩ := hw
    refine tagged_eq_ok rfl rfl (Reads.record_eq_ok rfl ?_)
    simp only [Reads.gives_seq, Reads.gives_map]
    exact ⟨field, hfield.defaulted (fun _ => rfl) hf rfl, text,
      stable_text.required htext rfl, rfl⟩
  · obtain ⟨w, hw⟩ := Reads.exists_of_record hread
    simp only [Reads.gives_seq, Reads.gives_map] at hw
    obtain ⟨field, hf, value, hvalue, rfl⟩ := hw
    refine tagged_eq_ok rfl rfl (Reads.record_eq_ok rfl ?_)
    simp only [Reads.gives_seq, Reads.gives_map]
    exact ⟨field, hfield.defaulted (fun _ => rfl) hf rfl, value,
      stable_value.required hvalue rfl, rfl⟩
  · obtain ⟨field, rfl, hagain⟩ := stable_text.exists_of_single hread
    exact tagged_eq_ok rfl rfl (hagain .aside)
  · obtain ⟨max, rfl, hagain⟩ := (stable_natural _).exists_of_single hread
    exact tagged_eq_ok rfl rfl (hagain .aside)

theorem WrittenCall.stable : WrittenCall.decode.Stable WrittenCall.encode := by
  apply Reads.Stable.record
  · intro w c h m
    simp only [Reads.gives_seq, Reads.gives_map] at h ⊢
    obtain ⟨service, hservice, operation, hoperation, args, hargs, rfl⟩ := h
    exact ⟨service, stable_text.required hservice rfl, operation,
      stable_text.required hoperation rfl, args,
      stable_value.defaulted (fun _ => rfl) hargs rfl, rfl⟩
  · intro c
    rfl

theorem WrittenStep.stable : WrittenStep.decode.Stable WrittenStep.encode := by
  apply Reads.Stable.record
  · intro w s h m
    simp only [Reads.gives_seq, Reads.gives_map] at h ⊢
    obtain ⟨id, hid, description, hdescription, call, hcall, expect, hexpect,
      onFailure, honFailure, maxAttempts, hmaxAttempts, fallback, hfallback,
      rfl⟩ := h
    exact ⟨id, stable_text.required hid (by simp), description,
      stable_text.defaulted (fun _ => rfl) hdescription (by simp), call,
      WrittenCall.stable.required hcall (by simp), expect,
      Expectation.stable.list.defaulted (fun _ => rfl) hexpect (by simp),
      onFailure,
      FailurePolicy.stable.defaulted (fun _ => rfl) honFailure (by simp),
      maxAttempts, (stable_natural _).optional nofun hmaxAttempts (by simp),
      fallback, ApprovalFallback.stable.optional nofun hfallback (by simp), rfl⟩
  · rintro ⟨_, _, _, _, _, _ | _, _ | _⟩ <;> rfl

/-! ## Written workflows -/

theorem stable_values : (textMap value).Stable fun map => .obj map.entries := by
  intro m t map h m'
  have hentries : (map.entries.map fun e => (e.1, id e.2)) = map.entries :=
    List.map_id _
  have hagain := stable_value.textMap m t map h m'
  dsimp only at hagain
  rw [hentries] at hagain
  exact hagain

theorem WorkflowDocument.stable :
    WorkflowDocument.decode.Stable WorkflowDocument.encode := by
  apply Reads.Stable.record
  · intro w d h m
    simp only [Reads.gives_seq, Reads.gives_map] at h ⊢
    obtain ⟨name, hname, objective, hobjective, world, hworld, actors, hactors,
      constraints, hconstraints, approvals, happrovals, steps, hsteps, success,
      hsuccess, failurePaths, hfailurePaths, tags, htags, metadata, hmetadata,
      rfl⟩ := h
    exact ⟨name, stable_text.required hname rfl, objective,
      Objective.stable.defaulted (fun _ => rfl) hobjective rfl, world,
      stable_value.defaulted (fun _ => rfl) hworld rfl, actors,
      Actor.stable.list.defaulted (fun _ => rfl) hactors rfl, constraints,
      Constraint.stable.list.defaulted (fun _ => rfl) hconstraints rfl,
      approvals,
      ApprovalStage.stable.list.defaulted (fun _ => rfl) happrovals rfl, steps,
      WrittenStep.stable.list.required hsteps rfl, success,
      Criterion.stable.list.defaulted (fun _ => rfl) hsuccess rfl, failurePaths,
      FailurePath.stable.list.defaulted (fun _ => rfl) hfailurePaths rfl, tags,
      stable_text.list.defaulted (fun _ => rfl) htags rfl, metadata,
      stable_values.defaulted (fun _ => rfl) hmetadata rfl, rfl⟩
  · intro d
    rfl

/-! ## Workflows that can be run -/

theorem Recourse.stable : Recourse.decode.Stable Recourse.encode := by
  intro m t r h m'
  obtain ⟨s, read, t', hmem, hread⟩ := exists_of_tagged h
  simp only [List.mem_cons, Prod.mk.injEq, List.not_mem_nil, or_false] at hmem
  rcases hmem with ⟨rfl, rfl⟩ | ⟨rfl, rfl⟩ | ⟨rfl, rfl⟩
  · obtain rfl := eq_of_bare hread
    exact tagged_eq_ok rfl rfl rfl
  · obtain rfl := eq_of_bare hread
    exact tagged_eq_ok rfl rfl rfl
  · obtain ⟨w, hw⟩ := Reads.exists_of_record hread
    simp only [Reads.gives_seq, Reads.gives_map] at hw
    obtain ⟨target, htarget, index, hindex, rfl⟩ := hw
    refine tagged_eq_ok rfl rfl (Reads.record_eq_ok rfl ?_)
    simp only [Reads.gives_seq, Reads.gives_map]
    exact ⟨target, stable_text.required htarget rfl, index,
      (stable_natural _).required hindex rfl, rfl⟩

theorem Step.stable : Step.decode.Stable Step.encode := by
  apply Reads.Stable.record
  · intro w s h m
    simp only [Reads.gives_seq, Reads.gives_map] at h ⊢
    obtain ⟨index, hindex, id, hid, description, hdescription, operation,
      hoperation, args, hargs, expect, hexpect, onFailure, honFailure,
      maxAttempts, hmaxAttempts, fallback, hfallback, rfl⟩ := h
    exact ⟨index, (stable_natural _).required hindex rfl, id,
      stable_text.required hid rfl, description,
      stable_text.required hdescription rfl, operation,
      OperationSpec.stable.required hoperation rfl, args,
      stable_value.required hargs rfl, expect,
      Expectation.stable.list.required hexpect rfl, onFailure,
      Recourse.stable.required honFailure rfl, maxAttempts,
      (stable_natural _).orNull nofun hmaxAttempts rfl, fallback,
      ApprovalFallback.stable.orNull nofun hfallback rfl, rfl⟩
  · intro s
    rfl

theorem FailureEdge.stable_origin : decodeOrigin.Stable encodeOrigin := by
  intro m t o h m'
  obtain ⟨s, beside, m'', c, hmem, hread⟩ := exists_of_kindAndContent h
  simp only [List.mem_cons, Prod.mk.injEq, List.not_mem_nil, or_false] at hmem
  have hne : "kind" ≠ "name" := by decide
  rcases hmem with ⟨rfl, rfl⟩ | ⟨rfl, rfl⟩
  · obtain rfl := eq_of_nothing hread
    rfl
  · obtain ⟨t', ht⟩ := exists_of_something hread
    obtain ⟨name, hname, rfl⟩ := map_eq_ok_iff.1 ht
    apply (kindAndContent_of_lookup hne rfl).trans
    exact map_eq_ok_iff.2 ⟨name, stable_text _ _ _ hname m', rfl⟩

theorem FailureEdge.stable : FailureEdge.decode.Stable FailureEdge.encode := by
  apply Reads.Stable.record
  · intro w e h m
    simp only [Reads.gives_seq, Reads.gives_map] at h ⊢
    obtain ⟨source, hsource, target, htarget, origin, horigin, rfl⟩ := h
    exact ⟨source, stable_text.required hsource rfl, target,
      stable_text.required htarget rfl, origin,
      stable_origin.required horigin rfl, rfl⟩
  · intro e
    rfl

theorem ContentDigest.stable :
    ContentDigest.decode.Stable ContentDigest.encode := by
  have halgorithm : (label [(ContentDigest.algorithm, ())]).Stable
      fun _ => .str ContentDigest.algorithm :=
    stable_label fun _ => rfl
  apply Reads.Stable.record
  · intro w d h m
    simp only [Reads.gives_seq, Reads.gives_map] at h ⊢
    obtain ⟨algorithm, hname, value, hvalue, rfl⟩ := h
    exact ⟨algorithm, halgorithm.required hname rfl, value,
      stable_text.required hvalue rfl, rfl⟩
  · intro d
    rfl

theorem Workflow.stable : Workflow.decode.Stable Workflow.encode := by
  apply Reads.Stable.record
  · intro w f h m
    simp only [Reads.gives_seq, Reads.gives_map] at h ⊢
    obtain ⟨name, hname, objective, hobjective, actors, hactors, constraints,
      hconstraints, approvals, happrovals, steps, hsteps, positions, hpositions,
      failureEdges, hfailureEdges, success, hsuccess, world, hworld, structural,
      hstructural, tags, htags, metadata, hmetadata, rfl⟩ := h
    exact ⟨name, stable_text.required hname rfl, objective,
      Objective.stable.required hobjective rfl, actors,
      Actor.stable.list.required hactors rfl, constraints,
      Constraint.stable.list.required hconstraints rfl, approvals,
      ApprovalStage.stable.list.required happrovals rfl, steps,
      Step.stable.list.required hsteps rfl, positions,
      (stable_natural _).textMap.required hpositions rfl, failureEdges,
      FailureEdge.stable.list.required hfailureEdges rfl, success,
      Criterion.stable.list.required hsuccess rfl, world,
      stable_value.required hworld rfl, structural,
      ContentDigest.stable.required hstructural rfl, tags,
      stable_text.list.required htags rfl, metadata,
      stable_values.required hmetadata rfl, rfl⟩
  · intro f
    rfl

end CallGate
