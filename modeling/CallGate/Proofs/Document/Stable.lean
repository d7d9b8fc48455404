import CallGate.Proofs.Document.Record
import CallGate.Proofs.Document.Values
import Mathlib.Data.List.Perm.Basic

/-!
# Documents that are written and read again

A way of reading is stable under a way of writing when whatever is read can be
written and is read again, the same, from what is written.  The parts that
documents are put together from are stable if their own parts are.
-/

namespace CallGate

variable {α β κ : Type}

/-- What is read from any document can be written as a value and is read from
that value again. -/
def Decoder.Stable (read : Decoder α) (write : α → Json) : Prop :=
  ∀ m t a, read m t = .ok a → ∀ m', read m' (.ofJson (write a)) = .ok a

namespace Decoder

variable {read : Decoder α} {write : α → Json}

/-! ## Single values -/

theorem stable_value : value.Stable id := by
  intro m t v h m'
  have hv : t.value? = some v := value_eq_ok_iff.1 h
  exact value_eq_ok_iff.2 (Tree.value?_ofJson_of_value? t hv)

theorem stable_text : text.Stable .str := by
  intro m t s h m'
  cases t <;> cases h
  rfl

theorem stable_bool : bool.Stable .bool := by
  intro m t b h m'
  cases t <;> cases h
  rfl

theorem stable_natural (bound : ℕ) : (natural bound).Stable .ofNat := by
  intro m t n h m'
  rw [natural.eq_def] at h
  split at h
  · rename_i i
    split_ifs at h with hbound
    cases h
    exact natural_eq_ok (by omega) m'
  · cases h

theorem stable_integer (low high : ℤ) : (integer low high).Stable .ofInt := by
  intro m t i h m'
  rw [integer.eq_def] at h
  split at h
  · split_ifs at h with hbound
    cases h
    exact if_pos hbound
  · cases h

/-- A text that stands for something is stable if that is written as a text
that stands for it. -/
theorem stable_andThen_text {next : String → Except Misfit α}
    {display : α → String}
    (h : ∀ s a, next s = .ok a → next (display a) = .ok a) :
    (text.andThen next).Stable fun a => .str (display a) := by
  intro m t a hread m'
  obtain ⟨s, -, hs⟩ := exists_of_bind_eq_ok hread
  exact h s a hs

/-- Labels are stable if each thing is found under its own label. -/
theorem stable_label {table : List (String × α)} {label : α → String}
    (h : ∀ a, table.lookup (label a) = some a) :
    (Decoder.label table).Stable fun a => .str (label a) := by
  intro m t a _ m'
  change labelled table (label a) = .ok a
  rw [labelled, h a]

theorem Stable.map {f : α → β} {write' : β → Json} (hread : read.Stable write)
    (hf : ∀ a, write' (f a) = write a) : (read.map f).Stable write' := by
  intro m t b h m'
  obtain ⟨a, ha, rfl⟩ := map_eq_ok_iff.1 h
  rw [hf]
  exact map_eq_ok_iff.2 ⟨a, hread m t a ha m', rfl⟩

theorem ofJson_ne_null {v : Json} (h : v ≠ .null) : Tree.ofJson v ≠ .null := by
  cases v with
  | null => exact absurd rfl h
  | _ => nofun

theorem nullable_of_ne_null {m : Medium} {t : Tree} (h : t ≠ .null) :
    nullable read m t = (read m t).map some := by
  cases t with
  | null => exact absurd rfl h
  | _ => rfl

/-- Null stands for nothing, so what is written for something must not be
null. -/
theorem nullable_eq_ok {m : Medium} {o : Option α}
    (h : ∀ a, o = some a → read m (.ofJson (write a)) = .ok a)
    (hwrite : ∀ a, write a ≠ .null) :
    nullable read m (.ofJson (.orNull write o)) = .ok o := by
  cases o with
  | none => rfl
  | some a =>
      change nullable read m (.ofJson (write a)) = .ok (some a)
      rw [nullable_of_ne_null (ofJson_ne_null (hwrite a)), h a rfl]
      rfl

theorem Stable.nullable (hread : read.Stable write)
    (hwrite : ∀ a, write a ≠ .null) :
    (Decoder.nullable read).Stable (.orNull write) := by
  intro m t o h m'
  refine nullable_eq_ok (fun a hsome => ?_) hwrite
  subst hsome
  have ht : t ≠ .null := by
    rintro rfl
    cases h
  rw [nullable_of_ne_null ht] at h
  obtain ⟨a', ha, hsome⟩ := mapped_eq_ok_iff.1 h
  cases hsome
  exact hread m t a ha m'

/-! ## Lists, maps and sets -/

theorem items_eq_ok_iff {m : Medium} {ts : List Tree} {as : List α} :
    items read m ts = .ok as ↔
      List.Forall₂ (fun t a => read m t = .ok a) ts as := by
  induction ts generalizing as with
  | nil =>
      rw [items, Except.ok.injEq, List.forall₂_nil_left_iff]
      exact eq_comm
  | cons t rest ih =>
      rw [items, List.forall₂_cons_left_iff]
      cases ht : read m t with
      | error e => simp
      | ok a =>
          dsimp only
          rw [mapped_eq_ok_iff]
          constructor
          · rintro ⟨more, hmore, rfl⟩
            exact ⟨a, more, rfl, ih.1 hmore, rfl⟩
          · rintro ⟨a', more, ha, hmore, rfl⟩
            cases ha
            exact ⟨more, ih.2 hmore, rfl⟩

theorem exists_of_mem_list {m : Medium} {t : Tree} {as : List α} {a : α}
    (h : Decoder.list read m t = .ok as) (ha : a ∈ as) :
    ∃ u, read m u = .ok a := by
  rw [Decoder.list.eq_def] at h
  split at h
  · obtain ⟨u, hu⟩ := exists_of_mem_forall₂ (items_eq_ok_iff.1 h).flip ha
    exact ⟨u, hu⟩
  · cases h

/-- Things that are read from what is written for them are read from a list
of it. -/
theorem list_eq_ok {m : Medium} {as : List α}
    (h : ∀ a ∈ as, read m (.ofJson (write a)) = .ok a) :
    Decoder.list read m (.ofJson (.arr (as.map write))) = .ok as := by
  change items read m (Tree.ofItems (as.map write)) = .ok as
  rw [items_eq_ok_iff, Tree.ofItems_eq_map, List.map_map,
    List.forall₂_map_left_iff, List.forall₂_same]
  exact h

theorem Stable.list (hread : read.Stable write) :
    (Decoder.list read).Stable fun as => .arr (as.map write) := by
  intro m t as h m'
  apply list_eq_ok
  intro a ha
  obtain ⟨u, hu⟩ := exists_of_mem_list h ha
  exact hread m u a hu m'

/-- The entry is read from the member. -/
def EntryFrom (key : String → Except Misfit κ) (read : Decoder α) (m : Medium)
    (member : Option String × Tree) (entry : κ × α) : Prop :=
  ∃ name, member.1 = some name ∧ key name = .ok entry.1 ∧
    read m member.2 = .ok entry.2

theorem entries_eq_ok_iff {key : String → Except Misfit κ} {m : Medium}
    {members : List (Option String × Tree)} {es : List (κ × α)} :
    entries key read m members = .ok es ↔
      List.Forall₂ (EntryFrom key read m) members es := by
  induction members generalizing es with
  | nil =>
      rw [entries, Except.ok.injEq, List.forall₂_nil_left_iff]
      exact eq_comm
  | cons member rest ih =>
      obtain ⟨name, t⟩ := member
      rw [List.forall₂_cons_left_iff]
      cases name with
      | none => simp [entries, EntryFrom]
      | some name =>
          rw [entries]
          cases hkey : key name with
          | error e => simp [EntryFrom, hkey]
          | ok k =>
              cases ht : read m t with
              | error e => simp [EntryFrom, ht]
              | ok a =>
                  dsimp only
                  rw [mapped_eq_ok_iff]
                  constructor
                  · rintro ⟨more, hmore, rfl⟩
                    exact ⟨(k, a), more, ⟨name, rfl, hkey, ht⟩, ih.1 hmore, rfl⟩
                  · rintro ⟨e, more, ⟨_, hname, hk, ha⟩, hmore, rfl⟩
                    cases hname
                    rw [hkey] at hk
                    rw [ht] at ha
                    cases hk
                    cases ha
                    exact ⟨more, ih.2 hmore, rfl⟩

/-- Names that stand for different keys are different. -/
theorem nodup_map_display {key : String → Except Misfit κ}
    {display : κ → String} {keys : List κ} (hkeys : keys.Nodup)
    (h : ∀ k ∈ keys, key (display k) = .ok k) : (keys.map display).Nodup := by
  apply hkeys.map_on
  intro k hk k' hk' hsame
  have hread := h k hk
  rw [hsame, h k' hk'] at hread
  exact (Except.ok.inj hread).symm

section Maps

variable [Ord κ] [Std.TransOrd κ] [Std.LawfulEqOrd κ] [DecidableEq κ]

/-- Entries whose keys and values are read from what is written for them make
up a map that is.  The members are put in the order of the names, which need
not be that of the keys. -/
theorem mapOf_eq_ok {key : String → Except Misfit κ} {display : κ → String}
    {map : KeyMap κ α} {m : Medium}
    (h : ∀ e ∈ map.entries, key (display e.1) = .ok e.1 ∧
      read m (.ofJson (write e.2)) = .ok e.2) :
    Decoder.mapOf key read m (.ofJson (.obj (KeyMap.ofList
      (map.entries.map fun e => (display e.1, write e.2))).entries)) =
      .ok map := by
  have hnames : (map.entries.map fun e => (display e.1, write e.2)).map
      (·.1) = (map.entries.map (·.1)).map display := by
    rw [List.map_map, List.map_map]
    rfl
  have hdistinct : ((map.entries.map fun e =>
      (display e.1, write e.2)).map (·.1)).Nodup := by
    rw [hnames]
    apply nodup_map_display map.ascending.nodup
    rw [List.forall_mem_map]
    exact fun e he => (h e he).1
  have hwritten := KeyMap.entries_ofList_perm hdistinct
  have hentries : List.Forall₂
      (fun member entry => EntryFrom key read m
        (some member.1, .ofJson member.2) entry)
      (map.entries.map fun e => (display e.1, write e.2)) map.entries := by
    rw [List.forall₂_map_left_iff, List.forall₂_same]
    intro e he
    exact ⟨_, rfl, h e he⟩
  obtain ⟨es, hes, hperm⟩ := List.perm_comp_forall₂ hwritten hentries
  refine mapped_eq_ok_iff.2
    ⟨es, entries_eq_ok_iff.2 ?_, KeyMap.ofList_of_perm hperm⟩
  rw [Tree.ofMembers_eq_map, List.forall₂_map_left_iff]
  exact hes

/-- The entries of a map that was read come from members. -/
theorem exists_of_mem_mapOf {key : String → Except Misfit κ} {m : Medium}
    {t : Tree} {map : KeyMap κ α} (h : Decoder.mapOf key read m t = .ok map)
    {e : κ × α} (he : e ∈ map.entries) :
    ∃ name u, key name = .ok e.1 ∧ read m u = .ok e.2 := by
  rw [Decoder.mapOf.eq_def] at h
  split at h
  · obtain ⟨es, hes, rfl⟩ := mapped_eq_ok_iff.1 h
    obtain ⟨member, name, -, hname, hvalue⟩ := exists_of_mem_forall₂
      (entries_eq_ok_iff.1 hes).flip (KeyMap.mem_of_mem_ofList he)
    exact ⟨name, member.2, hname, hvalue⟩
  · cases h

/-- A map is stable if its values are and its keys are written as names that
stand for them. -/
theorem Stable.mapOf {key : String → Except Misfit κ} {display : κ → String}
    (hkey : ∀ s k, key s = .ok k → key (display k) = .ok k)
    (hread : read.Stable write) :
    (Decoder.mapOf key read).Stable fun map =>
      .obj (KeyMap.ofList
        (map.entries.map fun e => (display e.1, write e.2))).entries := by
  intro m t map h m'
  apply mapOf_eq_ok
  intro e he
  obtain ⟨name, u, hname, hvalue⟩ := exists_of_mem_mapOf h he
  exact ⟨hkey name e.1 hname, hread m u e.2 hvalue m'⟩

/-- A map whose keys are texts is written in their order. -/
theorem textMap_eq_ok {map : KeyMap String α} {m : Medium}
    (h : ∀ e ∈ map.entries, read m (.ofJson (write e.2)) = .ok e.2) :
    Decoder.textMap read m
      (.ofJson (.obj (map.entries.map fun e => (e.1, write e.2)))) =
        .ok map := by
  have hentries : ∀ e ∈ map.entries,
      (.ok (id e.1) : Except Misfit String) = .ok e.1 ∧
        read m (.ofJson (write e.2)) = .ok e.2 :=
    fun e he => ⟨rfl, h e he⟩
  have hagain := mapOf_eq_ok hentries
  dsimp only [id] at hagain
  rw [KeyMap.entries_ofList_of_ascending
    (map.ascending.map fun e => write e.2)] at hagain
  exact hagain

theorem Stable.textMap (hread : read.Stable write) :
    (Decoder.textMap read).Stable fun map =>
      .obj (map.entries.map fun e => (e.1, write e.2)) := by
  intro m t map h m'
  apply textMap_eq_ok
  intro e he
  obtain ⟨name, u, -, hvalue⟩ := exists_of_mem_mapOf h he
  exact hread m u e.2 hvalue m'

/-- The keys of a set that was read were read. -/
theorem exists_of_mem_setOf {read : Decoder κ} {m : Medium} {t : Tree}
    {s : KeySet κ} (h : Decoder.setOf read m t = .ok s) {key : κ}
    (hkey : key ∈ s.keys) : ∃ u, read m u = .ok key := by
  obtain ⟨keys, hkeys, rfl⟩ := map_eq_ok_iff.1 h
  obtain ⟨e, he, rfl⟩ := List.mem_map.1 hkey
  rw [KeySet.ofList_eq] at he
  obtain ⟨first, hfirst, rfl⟩ := List.mem_map.1 (KeyMap.mem_of_mem_ofList he)
  exact exists_of_mem_list hkeys hfirst

omit [Std.LawfulEqOrd κ] [DecidableEq κ] in
/-- Keys that are read from what is written for them make up a set that is. -/
theorem setOf_eq_ok {read : Decoder κ} {write : κ → Json} {m : Medium}
    {s : KeySet κ}
    (h : ∀ key ∈ s.keys, read m (.ofJson (write key)) = .ok key) :
    Decoder.setOf read m (.ofJson (.arr (s.keys.map write))) = .ok s :=
  map_eq_ok_iff.2 ⟨s.keys, list_eq_ok h, KeySet.ofList_keys s⟩

theorem Stable.setOf {read : Decoder κ} {write : κ → Json}
    (hread : read.Stable write) :
    (Decoder.setOf read).Stable fun s => .arr (s.keys.map write) := by
  intro m t s h m'
  apply setOf_eq_ok
  intro key hkey
  obtain ⟨u, hu⟩ := exists_of_mem_setOf h hkey
  exact hread m u key hu m'

end Maps

end Decoder

end CallGate
