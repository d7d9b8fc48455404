import CallGate.Approval.Target
import CallGate.Proofs.Document.Sessions
import CallGate.Proofs.Operation.Legible

/-!
# Documents about operations that can be restored

What is written about an operation has its written id in it.  So it is read
as what it was written for when the id is legible.  Whatever is read from any
document has legible ids, so otherwise it is refused or read as something
else.
-/

namespace CallGate

variable {α : Type}

/-- What is written is read as the thing that it was written for. -/
def Decoder.ReadsAgain (read : Decoder α) (write : α → Json) (a : α) : Prop :=
  ∀ m, read m (.ofJson (write a)) = .ok a

namespace Decoder.ReadsAgain

variable {read : Decoder α} {write : α → Json} {a : α} {name : String}
  {members : List (String × Json)} {m : Medium}

/-- Such a thing is read from its member, whatever its absence means. -/
theorem field {missing : Written → Except Misfit α}
    (h : read.ReadsAgain write a)
    (hmember : Json.member? name members = some (write a)) :
    Reads.field name read missing (.of m members) = .ok a :=
  Reads.field_eq_ok hmember (h m)

theorem nullable {o : Option α} (h : ∀ a, o = some a → read.ReadsAgain write a)
    (hwrite : ∀ a, write a ≠ .null) :
    (Decoder.nullable read).ReadsAgain (.orNull write) o :=
  fun m => Decoder.nullable_eq_ok (fun a ha => h a ha m) hwrite

theorem list {as : List α} (h : ∀ a ∈ as, read.ReadsAgain write a) :
    (Decoder.list read).ReadsAgain (fun as => .arr (as.map write)) as :=
  fun m => Decoder.list_eq_ok fun a ha => h a ha m

theorem textMap {map : KeyMap String α}
    (h : ∀ e ∈ map.entries, read.ReadsAgain write e.2) :
    (Decoder.textMap read).ReadsAgain
      (fun map => .obj (map.entries.map fun e => (e.1, write e.2))) map :=
  fun m => Decoder.textMap_eq_ok fun e he => h e he m

end Decoder.ReadsAgain

/-- What can be read from any document is read again from what is written for
it. -/
theorem Decoder.Stable.readsAgain {read : Decoder α} {write : α → Json}
    (hread : read.Stable write) {m : Medium} {t : Tree} {a : α}
    (h : read m t = .ok a) : read.ReadsAgain write a :=
  hread m t a h

section Fields

variable {read : Decoder α} {write : α → Json} {name : String} {w : Written}
  {a default : α}

theorem Reads.exists_of_required (h : Reads.required name read w = .ok a) :
    ∃ t, read w.medium t = .ok a :=
  (Reads.exists_of_field h).resolve_right nofun

theorem Reads.exists_of_defaulted
    (h : Reads.defaulted name read default w = .ok a) :
    (∃ t, read w.medium t = .ok a) ∨ a = default :=
  (Reads.exists_of_field h).imp_right fun h => (Except.ok.inj h).symm

theorem Decoder.Stable.readsAgain_of_required (hread : read.Stable write)
    (h : Reads.required name read w = .ok a) : read.ReadsAgain write a := by
  obtain ⟨t, ht⟩ := Reads.exists_of_required h
  exact hread.readsAgain ht

theorem Decoder.Stable.readsAgain_of_defaulted (hread : read.Stable write)
    (hdefault : read.ReadsAgain write default)
    (h : Reads.defaulted name read default w = .ok a) :
    read.ReadsAgain write a := by
  rcases Reads.exists_of_defaulted h with ⟨t, ht⟩ | rfl
  · exact hread.readsAgain ht
  · exact hdefault

end Fields

/-! ## Operations -/

namespace OperationId

variable {id : OperationId} {m : Medium} {t : Tree}

theorem isLegible_of_decode (h : decode m t = .ok id) : id.IsLegible := by
  obtain ⟨text, -, hread⟩ := exists_of_bind_eq_ok h
  exact isLegible_of_read hread

theorem IsLegible.readsAgain (h : id.IsLegible) :
    decode.ReadsAgain encode id :=
  fun _ => read_display_iff.2 h

end OperationId

namespace OperationSpec

variable {spec : OperationSpec} {m : Medium} {t : Tree}

theorem isLegible_of_decode (h : decode m t = .ok spec) :
    spec.id.IsLegible := by
  obtain ⟨w, hw⟩ := Reads.exists_of_record h
  simp only [Reads.gives_seq, Reads.gives_map] at hw
  obtain ⟨id, hid, risk, -, route, -, rfl⟩ := hw
  obtain ⟨t, ht⟩ := Reads.exists_of_required hid
  exact OperationId.isLegible_of_decode ht

theorem readsAgain (h : spec.id.IsLegible) :
    decode.ReadsAgain encode spec := by
  have hrisk : RiskClass.decode.ReadsAgain RiskClass.encode spec.risk := by
    intro m
    cases spec.risk <;> rfl
  have hroute : Route.decode.ReadsAgain Route.encode spec.route := by
    intro m
    rcases spec.route with _ | c
    · rfl
    · cases c <;> rfl
  intro m
  refine Reads.record_eq_ok rfl ?_
  simp only [Reads.gives_seq, Reads.gives_map]
  exact ⟨_, h.readsAgain.field rfl, _, hrisk.field rfl, _, hroute.field rfl,
    rfl⟩

end OperationSpec

namespace Approval.Target

variable {target : Approval.Target} {m : Medium} {t : Tree}

theorem isLegible_of_decode (h : decode m t = .ok target) :
    target.operation.IsLegible := by
  obtain ⟨w, hw⟩ := Reads.exists_of_record h
  simp only [Reads.gives_seq, Reads.gives_map] at hw
  obtain ⟨operation, hoperation, digest, -, rfl⟩ := hw
  obtain ⟨t, ht⟩ := Reads.exists_of_required hoperation
  exact OperationId.isLegible_of_decode ht

theorem readsAgain (h : target.operation.IsLegible) :
    decode.ReadsAgain encode target := by
  intro m
  obtain ⟨operation, digest⟩ := target
  refine Reads.record_eq_ok ?_ ?_
  · cases digest <;> rfl
  · simp only [Reads.gives_seq, Reads.gives_map]
    refine ⟨operation, ?_, digest, ?_, rfl⟩
    · cases digest <;> exact h.readsAgain.field rfl
    · rw [Reads.optional, Reads.defaulted]
      cases digest with
      | none => exact Reads.field_of_missing rfl rfl
      | some digest =>
          apply Reads.field_eq_ok (v := .str digest)
          · rfl
          · rfl

end Approval.Target

/-! ## Policies -/

namespace Policy

/-- The operations that a policy names. -/
def named (p : Policy) : List OperationId :=
  p.hardBlock.keys ++ p.overrides.keys ++ p.preGranted.keys

theorem isLegible_of_mem_set {m : Medium} {t : Tree} {s : OperationSet}
    (h : OperationSet.decode m t = .ok s) : ∀ id ∈ s.keys, id.IsLegible := by
  intro id hid
  obtain ⟨u, hu⟩ := Decoder.exists_of_mem_setOf h hid
  exact OperationId.isLegible_of_decode hu

theorem isLegible_of_mem_overrides {m : Medium} {t : Tree}
    {overrides : KeyMap OperationId Override}
    (h : Decoder.mapOf OperationId.read Override.decode m t = .ok overrides) :
    ∀ id ∈ overrides.keys, id.IsLegible := by
  intro id hid
  obtain ⟨e, he, rfl⟩ := List.mem_map.1 hid
  obtain ⟨name, -, hname, -⟩ := Decoder.exists_of_mem_mapOf h he
  exact OperationId.isLegible_of_read hname

theorem readsAgain_set {s : OperationSet} (h : ∀ id ∈ s.keys, id.IsLegible) :
    OperationSet.decode.ReadsAgain OperationSet.encode s :=
  fun m => Decoder.setOf_eq_ok fun id hid => (h id hid).readsAgain m

theorem readsAgain_overrides {overrides : KeyMap OperationId Override}
    (h : ∀ id ∈ overrides.keys, id.IsLegible) :
    (Decoder.mapOf OperationId.read Override.decode).ReadsAgain
      (fun map => .obj (KeyMap.ofList (map.entries.map fun e =>
        (e.1.display, e.2.encode))).entries) overrides := by
  intro m
  apply Decoder.mapOf_eq_ok
  intro e he
  refine ⟨OperationId.read_display_iff.2 (h e.1 (List.mem_map_of_mem he)), ?_⟩
  rcases e with ⟨id, _ | _ | _⟩ <;> rfl

theorem forall_mem_named {p : Policy} {P : OperationId → Prop} :
    (∀ id ∈ p.named, P id) ↔
      (∀ id ∈ p.hardBlock.keys, P id) ∧ (∀ id ∈ p.overrides.keys, P id) ∧
        ∀ id ∈ p.preGranted.keys, P id := by
  rw [named, List.forall_mem_append, List.forall_mem_append, and_assoc]

theorem isLegible_of_decode {m : Medium} {t : Tree} {p : Policy}
    (h : decode m t = .ok p) : ∀ id ∈ p.named, id.IsLegible := by
  obtain ⟨w, hw⟩ := Reads.exists_of_record h
  simp only [Reads.gives_seq, Reads.gives_map] at hw
  obtain ⟨writeSafe, -, hardBlock, hhardBlock, overrides, hoverrides,
    preGranted, hpreGranted, matching, -, rfl⟩ := hw
  have hempty : ∀ id ∈ ([] : List OperationId), id.IsLegible :=
    List.forall_mem_nil _
  rw [forall_mem_named]
  refine ⟨?_, ?_, ?_⟩
  · rcases Reads.exists_of_defaulted hhardBlock with ⟨t, ht⟩ | rfl
    · exact isLegible_of_mem_set ht
    · exact hempty
  · rcases Reads.exists_of_defaulted hoverrides with ⟨t, ht⟩ | rfl
    · exact isLegible_of_mem_overrides ht
    · exact hempty
  · rcases Reads.exists_of_defaulted hpreGranted with ⟨t, ht⟩ | rfl
    · exact isLegible_of_mem_set ht
    · exact hempty

theorem readsAgain {p : Policy} (h : ∀ id ∈ p.named, id.IsLegible) :
    decode.ReadsAgain encode p := by
  obtain ⟨hhardBlock, hoverrides, hpreGranted⟩ := forall_mem_named.1 h
  have hwriteSafe : Decoder.bool.ReadsAgain .bool p.writeSafeEnabled :=
    fun m => rfl
  have hmatching : Approval.Matching.decode.ReadsAgain
      Approval.Matching.encode p.matching := by
    intro m
    cases p.matching <;> rfl
  intro m
  refine Reads.record_eq_ok rfl ?_
  simp only [Reads.gives_seq, Reads.gives_map]
  exact ⟨_, hwriteSafe.field rfl, _, (readsAgain_set hhardBlock).field rfl, _,
    (readsAgain_overrides hoverrides).field rfl, _,
    (readsAgain_set hpreGranted).field rfl, _, hmatching.field rfl, rfl⟩

end Policy

end CallGate
