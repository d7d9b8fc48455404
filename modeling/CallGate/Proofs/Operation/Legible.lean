import CallGate.Proofs.Document.Names
import CallGate.Proofs.Operation.Growth

/-!
# Ids that can be read

The written id of an operation stands for the operation as long as the first
dot is the one between service and name, neither of them is empty, and there
are no blanks around the whole.  Ids are put together without any of this being
looked at, and registering them does not look at it either.
-/

namespace CallGate

namespace OperationId

variable {a b id : OperationId}

/-- Service and name are not empty, the service has no dot, and the id neither
begins nor ends with a blank. -/
structure IsLegible (id : OperationId) : Prop where
  service_ne : id.service ≠ ""
  name_ne : id.name ≠ ""
  undotted : '.' ∉ id.service.toList
  trimmed : Text.Trimmed id.display.toList

theorem cutAtFirst_display (h : '.' ∉ id.service.toList) :
    Text.cutAtFirst '.' id.display.toList =
      some (id.service.toList, id.name.toList) :=
  Text.cutAtFirst_eq_some_iff.2 ⟨toList_display id, h⟩

/-- The legible ids are those that are read from what is written for them. -/
theorem read_display_iff : read id.display = .ok id ↔ id.IsLegible := by
  constructor
  · intro h
    rw [read] at h
    split at h
    · rename_i service name hcut
      split_ifs at h with hempty
      obtain ⟨htext, hundotted⟩ := Text.cutAtFirst_eq_some_iff.1 hcut
      obtain rfl : (⟨.ofList service, .ofList name⟩ : OperationId) = id :=
        Except.ok.inj h
      rw [Bool.or_eq_true, List.isEmpty_iff, List.isEmpty_iff, not_or]
        at hempty
      have hdisplay : (display ⟨.ofList service, .ofList name⟩).toList =
          service ++ '.' :: name := by
        rw [toList_display, String.toList_ofList, String.toList_ofList]
      refine ⟨?_, ?_, ?_, ?_⟩
      · simpa using hempty.1
      · simpa using hempty.2
      · rwa [String.toList_ofList]
      · rw [hdisplay, ← htext]
        exact Text.trimmed_trimChars _
    · cases h
  · intro h
    have hempty : ¬(id.service.toList.isEmpty ||
        id.name.toList.isEmpty) = true := by
      simp [h.service_ne, h.name_ne]
    rw [read, Text.trimChars_of_trimmed h.trimmed,
      cutAtFirst_display h.undotted]
    dsimp only
    rw [if_neg hempty, String.ofList_toList, String.ofList_toList]

instance (id : OperationId) : Decidable id.IsLegible :=
  decidable_of_iff _ read_display_iff

/-- What was read is legible. -/
theorem isLegible_of_read {text : String} (h : read text = .ok id) :
    id.IsLegible :=
  read_display_iff.1 (read_display h)

/-- Ids that are written the same are the same unless one of the services has
a dot. -/
theorem dotted_of_display_eq (hne : a ≠ b) (h : a.display = b.display) :
    '.' ∈ a.service.toList ∨ '.' ∈ b.service.toList := by
  by_contra hdots
  rw [not_or] at hdots
  have ha := cutAtFirst_display hdots.1
  rw [h, cutAtFirst_display hdots.2, Option.some.injEq, Prod.mk.injEq] at ha
  refine hne ?_
  cases a
  cases b
  rw [mk.injEq]
  exact ⟨(String.toList_inj.1 ha.1).symm, (String.toList_inj.1 ha.2).symm⟩

/-- Legible ids that are written the same are the same. -/
theorem eq_of_display_eq (ha : a.IsLegible) (hb : b.IsLegible)
    (h : a.display = b.display) : a = b := by
  have hread := read_display_iff.2 ha
  rw [h, read_display_iff.2 hb] at hread
  exact (Except.ok.inj hread).symm

theorem isLegible_control (c : ApprovalControl) : c.id.IsLegible := by
  cases c <;> decide +kernel

end OperationId

end CallGate
