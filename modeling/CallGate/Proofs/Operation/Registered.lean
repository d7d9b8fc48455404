import CallGate.Proofs.Workflow.Restored

/-!
# Registered ids and what is written about them

Nothing but a reserved service or an id that is there already keeps an
operation out of a registry.  Documents, however, are read id by id, and only
legible ids are read as they were written.  So what holds of the operations of
a registry holds of the documents about them as far as their ids are legible.
-/

namespace CallGate

/-- What the ids in a registry are like that was grown by some actions, and
which documents about its operations are read as they were written. -/
structure Registry.IdsAsOffered (r : Registry) (actions : List RegistryAction) :
    Prop where
  taken : ∀ id risk, .register id risk ∈ actions →
    id.service ≠ ApprovalControl.service → r.contains id = true
  offered : ∀ id, r.contains id = true → (∃ c : ApprovalControl, id = c.id) ∨
    id ∈ (actions.flatMap RegistryAction.offered).map (·.1)
  legible : (∀ entry ∈ actions.flatMap RegistryAction.offered,
    entry.1.IsLegible) → ∀ id, r.contains id = true → id.IsLegible
  shared : ∀ a b, r.contains a = true → r.contains b = true → a ≠ b →
    a.display = b.display → '.' ∈ a.service.toList ∨ '.' ∈ b.service.toList
  read_iff : ∀ id, r.contains id = true →
    (OperationId.read id.display = .ok id ↔ id.IsLegible)
  target_iff : ∀ (target : Approval.Target) m,
    r.contains target.operation = true →
      (Approval.Target.decode m (.ofJson target.encode) = .ok target ↔
        target.operation.IsLegible)
  policy_iff : ∀ (p : Policy) m, (∀ id ∈ p.named, r.contains id = true) →
    (Policy.decode m (.ofJson p.encode) = .ok p ↔ ∀ id ∈ p.named, id.IsLegible)
  workflow_iff : ∀ m t d w, WorkflowDocument.decode m t = .ok d →
    d.steps.length ≤ UInt64.size → d.compile r = .ok w →
      (∀ id ∈ w.named, r.contains id = true) ∧
        ∀ m', Workflow.decode m' (.ofJson w.encode) = .ok w ↔
          ∀ id ∈ w.named, id.IsLegible

namespace Registry

variable {r : Registry}

theorem contains_of_mem_named (hbuilt : r.Built) {d : WorkflowDocument}
    {w : Workflow} (h : d.compile r = .ok w) {id : OperationId}
    (hid : id ∈ w.named) : r.contains id = true := by
  obtain ⟨step, hstep, rfl⟩ := List.mem_map.1 hid
  obtain ⟨id, hget⟩ := WorkflowDocument.get?_of_compile h hstep
  rw [(hbuilt.fits hget).id_eq, contains_eq_isSome, hget]
  rfl

/-- Ids get into a registry as they are offered.  What is written about an
operation is read as what was written exactly when the ids in it are
legible. -/
theorem ids_restored_iff_legible (actions : List RegistryAction) :
    (controls.run actions).IdsAsOffered actions := by
  have hbuilt : (controls.run actions).Built := Built.controls.run actions
  have hoffered (id : OperationId)
      (hid : (controls.run actions).contains id = true) :
      (∃ c : ApprovalControl, id = c.id) ∨
        id ∈ (actions.flatMap RegistryAction.offered).map (·.1) :=
    (offered_of_contains_run hid).imp_left contains_controls_iff.1
  constructor
  · exact fun id risk => contains_run_of_register
  · exact hoffered
  · intro hlegible id hid
    rcases hoffered id hid with ⟨c, rfl⟩ | hmem
    · exact OperationId.isLegible_control c
    · obtain ⟨entry, hentry, rfl⟩ := List.mem_map.1 hmem
      exact hlegible entry hentry
  · exact fun a b _ _ => OperationId.dotted_of_display_eq
  · exact fun id _ => OperationId.read_display_iff
  · exact fun target m _ => ⟨Approval.Target.isLegible_of_decode,
      fun h => Approval.Target.readsAgain h m⟩
  · exact fun p m _ => ⟨Policy.isLegible_of_decode,
      fun h => Policy.readsAgain h m⟩
  · intro m t d w hread hsize hcompile
    refine ⟨fun id => contains_of_mem_named hbuilt hcompile, fun m' => ?_⟩
    exact ⟨Workflow.isLegible_of_decode, fun h =>
      WorkflowDocument.readsAgain_of_compile hread hsize hcompile h m'⟩

/-- Two ids that differ in where the service ends are both taken and are
written the same, which is read as the second one. -/
theorem dotted_twins_registered :
    let a : OperationId := ⟨"a.b", "c"⟩
    let b : OperationId := ⟨"a", "b.c"⟩
    let r := controls.run [.register a .read, .register b .read]
    r.contains a = true ∧ r.contains b = true ∧ a ≠ b ∧
      a.display = b.display ∧ OperationId.read a.display ≠ .ok a ∧
      OperationId.read b.display = .ok b := by
  intro a b r
  have h := ids_restored_iff_legible [.register a .read, .register b .read]
  have ha : r.contains a = true :=
    h.taken a .read List.mem_cons_self (by decide)
  have hb : r.contains b = true :=
    h.taken b .read (List.mem_cons_of_mem _ List.mem_cons_self) (by decide)
  have hdotted : ¬a.IsLegible := fun hlegible => hlegible.undotted (by decide)
  have hlegible : b.IsLegible := by decide
  exact ⟨ha, hb, by decide, by decide, mt (h.read_iff a ha).1 hdotted,
    (h.read_iff b hb).2 hlegible⟩

end Registry

end CallGate
