import CallGate.Operation.Registry
import CallGate.Proofs.Computation
import CallGate.Proofs.KeyMap

/-!
# Registries built by registering

A session or a workflow gets its registry by registering operations one after
the other, so facts about it are invariants of registering: every operation is
known under its own id, the operations on the queue of approvals are there as
they were at the start, and nothing else belongs to their service.
-/

namespace CallGate

namespace Registry

/-- The registries that come about by registering operations. -/
inductive Built : Registry → Prop where
  | controls : Built .controls
  | register {r r' : Registry} {id : OperationId} {risk : RiskClass}
      (built : Built r) (h : r.register id risk = .ok r') : Built r'

/-- What is known under an id is either an operation of that id that goes to
the adapter of a service other than `approvals`, or a control with its id. -/
def Fits (id : OperationId) (spec : OperationSpec) : Prop :=
  (id.service ≠ ApprovalControl.service ∧
      ∃ risk, spec = .viaAdapter id risk) ∨
    ∃ c : ApprovalControl, id = c.id ∧ spec = .viaControl c

theorem Fits.id_eq {id : OperationId} {spec : OperationSpec}
    (h : Fits id spec) : spec.id = id := by
  rcases h with ⟨-, risk, rfl⟩ | ⟨c, rfl, rfl⟩
  · rfl
  · rfl

/-- An operation with the route of a control is that control. -/
theorem Fits.eq_control {id : OperationId} {spec : OperationSpec}
    {c : ApprovalControl} (h : Fits id spec)
    (hroute : spec.route = .control c) : id = c.id ∧ spec = .viaControl c := by
  rcases h with ⟨-, risk, rfl⟩ | ⟨c', rfl, rfl⟩
  · cases hroute
  · cases hroute
    exact ⟨rfl, rfl⟩

/-- A risky operation goes to an adapter. -/
theorem Fits.route_eq_adapter_of_risky {id : OperationId}
    {spec : OperationSpec} (h : Fits id spec)
    (hrisk : spec.risk = .writeRisky) : spec.route = .adapter := by
  rcases h with ⟨-, risk, rfl⟩ | ⟨c, rfl, rfl⟩
  · rfl
  · cases hrisk

/-- The registry with the new entry, when an operation is registered. -/
theorem register_eq_ok {r r' : Registry} {id : OperationId} {risk : RiskClass}
    (h : r.register id risk = .ok r') :
    id.service ≠ ApprovalControl.service ∧ r.contains id = false ∧
      r' = ⟨r.specs.insert id (.viaAdapter id risk)⟩ := by
  rw [Registry.register] at h
  split at h
  · cases h
  · rename_i hservice
    split at h
    · cases h
    · rename_i hnew
      cases h
      exact ⟨hservice, by simpa using hnew, rfl⟩

theorem controls_get?_eq_some {id : OperationId} {spec : OperationSpec}
    (h : Registry.controls.get? id = some spec) :
    ∃ c : ApprovalControl, id = c.id ∧ spec = .viaControl c := by
  rcases KeyMap.mem_or_get?_of_get?_insertAll h with hmem | hempty
  · obtain ⟨c, -, hc⟩ := List.mem_map.1 hmem
    cases hc
    exact ⟨c, rfl, rfl⟩
  · cases hempty

theorem controls_get?_control (c : ApprovalControl) :
    Registry.controls.get? c.id = some (.viaControl c) := by
  cases c <;> decide

/-- Whatever a built registry knows fits its id. -/
theorem Built.fits {r : Registry} (h : r.Built) {id : OperationId}
    {spec : OperationSpec} (hget : r.get? id = some spec) : Fits id spec := by
  induction h generalizing id spec with
  | controls => exact Or.inr (controls_get?_eq_some hget)
  | @register r _ new risk _ hregister ih =>
      obtain ⟨hservice, -, rfl⟩ := register_eq_ok hregister
      by_cases hid : id = new
      · subst hid
        rw [Registry.get?, KeyMap.get?_insert_self] at hget
        cases hget
        exact Or.inl ⟨hservice, risk, rfl⟩
      · rw [Registry.get?, KeyMap.get?_insert_of_ne _ hid] at hget
        exact ih hget

/-- A built registry knows every control. -/
theorem Built.get?_control {r : Registry} (h : r.Built) (c : ApprovalControl) :
    r.get? c.id = some (.viaControl c) := by
  induction h with
  | controls => exact controls_get?_control c
  | @register _ _ new _ _ hregister ih =>
      obtain ⟨hservice, -, rfl⟩ := register_eq_ok hregister
      have hne : c.id ≠ new := by
        rintro rfl
        exact hservice rfl
      rw [Registry.get?, KeyMap.get?_insert_of_ne _ hne]
      exact ih

/-- Registering operations one after the other builds a registry. -/
theorem Built.registerAll {r r' : Registry} (h : r.Built)
    {entries : List (OperationId × RiskClass)}
    (hall : r.registerAll entries = .ok r') : r'.Built := by
  induction entries generalizing r with
  | nil =>
      cases hall
      exact h
  | cons entry rest ih =>
      obtain ⟨next, hnext, hrest⟩ := exists_of_bind_eq_ok hall
      exact ih (.register h hnext) hrest

end Registry

end CallGate
