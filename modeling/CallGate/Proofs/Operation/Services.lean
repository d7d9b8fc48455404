import CallGate.Proofs.Operation.Registry
import CallGate.Proofs.Text.ByteOrder

/-!
# The services of a registry

The ids of a registry are in the order of their services first, so the
operations of a service are neighbours, and of equal neighbours one is left
when repeats are dropped.  The services with an operation that goes to an
adapter are listed once each, in the order of their bytes.
-/

namespace CallGate.Registry

variable {r : Registry} {name : String} {names : List String}

theorem mem_dropRepeats : name ∈ dropRepeats names ↔ name ∈ names := by
  induction names with
  | nil => rfl
  | cons first rest ih =>
      rw [dropRepeats, List.mem_cons, ← ih]
      cases dropRepeats rest with
      | nil => simp
      | cons next more =>
          dsimp only
          split
          · rename_i hsame
            simp [hsame]
          · simp

/-- Names in order are in strict order when repeats are dropped. -/
theorem dropRepeats_ascending (h : names.Pairwise (· ≤ ·)) :
    (dropRepeats names).Pairwise (· < ·) := by
  induction names with
  | nil => exact .nil
  | cons first rest ih =>
      obtain ⟨hfirst, hrest⟩ := List.pairwise_cons.1 h
      have hascending := ih hrest
      have hbelow : ∀ name ∈ dropRepeats rest, first ≤ name :=
        fun name hname => hfirst name (mem_dropRepeats.1 hname)
      rw [dropRepeats]
      cases hdropped : dropRepeats rest with
      | nil => exact List.pairwise_singleton _ _
      | cons next more =>
          rw [hdropped] at hascending hbelow
          dsimp only
          split
          · exact hascending
          · rename_i hne
            have hlt : first < next :=
              lt_of_le_of_ne (hbelow next List.mem_cons_self) hne
            refine List.pairwise_cons.2 ⟨fun name hname => ?_, hascending⟩
            rcases List.mem_cons.1 hname with rfl | hmore
            · exact hlt
            · exact hlt.trans ((List.pairwise_cons.1 hascending).1 name hmore)

theorem service_le_of_lt {a b : OperationId} (h : compare a b = .lt) :
    a.service ≤ b.service := by
  rcases Ordering.then_eq_lt.1 h with hlt | ⟨heq, -⟩
  · exact le_of_lt (compareOfLessAndEq_eq_lt.1 hlt)
  · exact le_of_eq (Std.LawfulEqOrd.eq_of_compare heq)

theorem Built.id_of_mem (h : r.Built) {e : OperationId × OperationSpec}
    (he : e ∈ r.specs.entries) : e.2.id = e.1 :=
  (h.fits (KeyMap.mem_entries_iff.1 he)).id_eq

/-- The operations of a built registry are in the order of their services. -/
theorem Built.services_le (h : r.Built) :
    (r.list.map (·.id.service)).Pairwise (· ≤ ·) := by
  rw [list, KeyMap.values, List.map_map, List.pairwise_map]
  refine List.Pairwise.imp_of_mem ?_ r.specs.ascending
  intro a b ha hb hlt
  rw [Function.comp_apply, Function.comp_apply, h.id_of_mem ha,
    h.id_of_mem hb]
  exact service_le_of_lt hlt

theorem Built.services_lt (h : r.Built) : r.services.Pairwise (· < ·) := by
  refine dropRepeats_ascending (h.services_le.sublist ?_)
  exact List.filter_sublist.map _

theorem Built.mem_services_iff (h : r.Built) :
    name ∈ r.services ↔ ∃ id spec, r.get? id = some spec ∧
      spec.route = .adapter ∧ id.service = name := by
  have hadapter (spec : OperationSpec) :
      spec.route.control?.isNone = true ↔ spec.route = .adapter := by
    cases spec.route <;> simp [Route.control?]
  rw [services, mem_dropRepeats, List.mem_map]
  constructor
  · rintro ⟨spec, hspec, rfl⟩
    obtain ⟨hmem, hroute⟩ := List.mem_filter.1 hspec
    obtain ⟨e, he, rfl⟩ := List.mem_map.1 hmem
    refine ⟨e.1, e.2, KeyMap.mem_entries_iff.1 he, (hadapter _).1 hroute, ?_⟩
    rw [h.id_of_mem he]
  · rintro ⟨id, spec, hget, hroute, rfl⟩
    have he : (id, spec) ∈ r.specs.entries := KeyMap.mem_entries_iff.2 hget
    refine ⟨spec, List.mem_filter.2 ⟨?_, (hadapter _).2 hroute⟩, ?_⟩
    · exact List.mem_map.2 ⟨_, he, rfl⟩
    · rw [h.id_of_mem he]

end CallGate.Registry
