import CallGate.Proofs.Document.Stable

/-!
# Records and kinds that are written and read again

A record is written as an object with a member for each field, in the order of
the names; a field without a value may be left out.  Which member belongs to
which field is told by the names alone.  What is of one of several kinds is
written with the label of its kind.
-/

namespace CallGate

variable {α β : Type}

/-- The members of an object as the fields of a record. -/
def Written.of (m : Medium) (members : List (String × Json)) : Written :=
  ⟨m, Tree.ofMembers members, false⟩

namespace Json

variable {name other : String} {members later : List (String × Json)}

@[simp] theorem member?_nil : member? name [] = none := rfl

@[simp] theorem member?_append :
    member? name (members ++ later) =
      (member? name members).or (member? name later) := by
  rw [member?, List.find?_append, Option.map_or]
  rfl

@[simp] theorem member?_cons (v : Json) :
    member? name ((other, v) :: members) =
      if other = name then some v else member? name members := by
  rw [member?, List.find?_cons]
  by_cases h : other = name
  · rw [if_pos h]
    simp [h]
  · rw [if_neg h]
    simp [h, member?]

@[simp] theorem member?_memberIf {encode : α → Json} (o : Option α) :
    member? name (memberIf other encode o) =
      if other = name then o.map encode else none := by
  cases o with
  | none => simp [memberIf, member?]
  | some a => rw [memberIf, member?_cons]; rfl

end Json

namespace Reads

variable {name : String} {members : List (String × Json)} {m : Medium}
  {w : Written}

theorem find?_ofMembers (name : String) (members : List (String × Json)) :
    (find? name (Tree.ofMembers members)).map (·.2) =
      (Json.member? name members).map Tree.ofJson := by
  induction members with
  | nil => rfl
  | cons e rest ih =>
      obtain ⟨other, v⟩ := e
      rw [Tree.ofMembers, find?, Json.member?_cons]
      by_cases h : other = name
      · rw [if_pos (congrArg some h), if_pos h]
        rfl
      · rw [if_neg (mt Option.some.inj h), if_neg h, Option.map_map, ← ih]
        rfl

/-- A field is what is read from the member of its name. -/
theorem field_eq_ok {read : Decoder α} {missing : Written → Except Misfit α}
    {v : Json} {a : α} (hmember : Json.member? name members = some v)
    (hread : read m (.ofJson v) = .ok a) :
    field name read missing (.of m members) = .ok a := by
  have hfind := find?_ofMembers name members
  rw [hmember] at hfind
  obtain ⟨⟨i, t⟩, hi, rfl⟩ := Option.map_eq_some_iff.1 hfind
  rw [field, Written.of, hi]
  dsimp only
  rw [hread]
  rfl

theorem field_of_missing {read : Decoder α}
    {missing : Written → Except Misfit α} {a : α}
    (hmember : Json.member? name members = none)
    (hmissing : missing (.of m members) = .ok a) :
    field name read missing (.of m members) = .ok a := by
  have hfind := find?_ofMembers name members
  rw [hmember, Option.map_none, Option.map_eq_none_iff] at hfind
  rw [field, Written.of, hfind]
  dsimp only
  rw [← Written.of, hmissing]
  rfl

/-- A field comes from the document, or is what its absence means. -/
theorem exists_of_field {read : Decoder α} {missing : Written → Except Misfit α}
    {a : α} (h : field name read missing w = .ok a) :
    (∃ t, read w.medium t = .ok a) ∨ missing w = .ok a := by
  rw [field] at h
  split at h
  · exact .inl ⟨_, eq_ok_of_mapError h⟩
  · exact .inr (eq_ok_of_mapError h)

/-! ## Records -/

/-- Something is read that has a property. -/
def Gives (fields : Reads α) (w : Written) (P : α → Prop) : Prop :=
  ∃ a, fields w = .ok a ∧ P a

theorem gives_seq {f : Reads (α → β)} {x : Reads α} {P : β → Prop} :
    (f <*> x).Gives w P ↔ f.Gives w fun g => x.Gives w fun a => P (g a) := by
  constructor
  · rintro ⟨b, hb, hP⟩
    obtain ⟨g, a, hg, ha, rfl⟩ := seq_eq_ok_iff.1 hb
    exact ⟨g, hg, a, ha, hP⟩
  · rintro ⟨g, hg, a, ha, hP⟩
    exact ⟨g a, seq_eq_ok_iff.2 ⟨g, a, hg, ha, rfl⟩, hP⟩

theorem gives_map {f : α → β} {x : Reads α} {P : β → Prop} :
    (f <$> x).Gives w P ↔ x.Gives w fun a => P (f a) := by
  constructor
  · rintro ⟨b, hb, hP⟩
    obtain ⟨a, ha, rfl⟩ := map_eq_ok_iff.1 hb
    exact ⟨a, ha, hP⟩
  · rintro ⟨a, ha, hP⟩
    exact ⟨f a, map_eq_ok_iff.2 ⟨a, ha, rfl⟩, hP⟩

/-- Whatever the fields are read from, they are read again from the members
that are written for it. -/
def Stable (fields : Reads α) (members : α → List (String × Json)) : Prop :=
  ∀ w a, fields.Gives w (· = a) → ∀ m, fields.Gives (.of m (members a)) (· = a)

/-- Whether no name is used twice, and all are among the given ones. -/
def fits (names used : List String) : Bool :=
  decide used.Nodup && used.all names.contains

theorem exists_of_record {names : List String} {fields : Reads α}
    {strict : Bool} {t : Tree} {a : α}
    (h : record names fields strict m t = .ok a) :
    ∃ w, fields.Gives w (· = a) := by
  cases t with
  | obj members => exact ⟨_, a, fields_of_record h, rfl⟩
  | arr items =>
      rw [record] at h
      split at h
      · cases h
      · rename_i a' ha'
        split_ifs at h
        cases h
        exact ⟨_, a, ha', rfl⟩
  | _ => cases h

theorem record_eq_ok {names : List String} {fields : Reads α} {a : α}
    (hfits : fits names (members.map (·.1)) = true)
    (h : fields.Gives (.of m members) (· = a)) :
    record names fields false m (.ofJson (.obj members)) = .ok a := by
  obtain ⟨a, ha, rfl⟩ := h
  rw [fits, Bool.and_eq_true, decide_eq_true_eq, List.all_eq_true] at hfits
  obtain ⟨hdistinct, hknown⟩ := hfits
  have hspelled : Tree.ofMembers members =
      Json.spelledMembers (members.map fun e => (e.1, Tree.ofJson e.2)) := by
    rw [Tree.ofMembers_eq_map, Json.spelledMembers, List.map_map]
    rfl
  rw [Tree.ofJson, hspelled, record_eq_ok_iff, ← hspelled]
  · exact ha
  · rw [Distinct, List.map_map]
    exact hdistinct
  · rw [List.forall_mem_map]
    intro e he
    simpa using hknown e.1 (List.mem_map_of_mem he)

/-- A record is stable if its fields are and its members have the names of
fields. -/
theorem Stable.record {names : List String} {fields : Reads α}
    {members : α → List (String × Json)} (hfields : Stable fields members)
    (hfits : ∀ a, fits names ((members a).map (·.1)) = true) :
    (Reads.record names fields).Stable fun a => .obj (members a) := by
  intro m t a h m'
  obtain ⟨w, hw⟩ := exists_of_record h
  exact record_eq_ok (hfits a) (hfields w a hw m')

end Reads

/-! ## Fields -/

namespace Decoder.Stable

variable {read : Decoder α} {write : α → Json} {name : String}
  {members : List (String × Json)} {m : Medium} {w : Written}

/-- A field that was read is read again from its member, if what its absence
means is. -/
theorem field {missing : Written → Except Misfit α} {a : α}
    (hread : read.Stable write)
    (hmissing : missing w = .ok a → ∀ m, read m (.ofJson (write a)) = .ok a)
    (h : Reads.field name read missing w = .ok a)
    (hmember : Json.member? name members = some (write a)) :
    Reads.field name read missing (.of m members) = .ok a := by
  apply Reads.field_eq_ok hmember
  rcases Reads.exists_of_field h with ⟨t, ht⟩ | habsent
  · exact hread _ t a ht m
  · exact hmissing habsent m

theorem required {a : α} (hread : read.Stable write)
    (h : Reads.required name read w = .ok a)
    (hmember : Json.member? name members = some (write a)) :
    Reads.required name read (.of m members) = .ok a :=
  hread.field nofun h hmember

theorem defaulted {a default : α} (hread : read.Stable write)
    (hdefault : ∀ m, read m (.ofJson (write default)) = .ok default)
    (h : Reads.defaulted name read default w = .ok a)
    (hmember : Json.member? name members = some (write a)) :
    Reads.defaulted name read default (.of m members) = .ok a := by
  refine hread.field ?_ h hmember
  intro habsent
  cases habsent
  exact hdefault

/-- A field that is null or missing. -/
theorem optional {o : Option α} (hread : read.Stable write)
    (hwrite : ∀ a, write a ≠ .null) (h : Reads.optional name read w = .ok o)
    (hmember : Json.member? name members = o.map write) :
    Reads.optional name read (.of m members) = .ok o := by
  cases o with
  | none =>
      rw [Reads.optional, Reads.defaulted]
      exact Reads.field_of_missing hmember rfl
  | some a => exact (hread.nullable hwrite).defaulted (fun _ => rfl) h hmember

/-- A field that is null, if there is nothing. -/
theorem orNull {o : Option α} (hread : read.Stable write)
    (hwrite : ∀ a, write a ≠ .null) (h : Reads.nullable name read w = .ok o)
    (hmember : Json.member? name members = some (.orNull write o)) :
    Reads.nullable name read (.of m members) = .ok o := by
  refine (hread.nullable hwrite).field ?_ h hmember
  intro habsent
  split_ifs at habsent
  cases habsent
  exact fun _ => rfl

end Decoder.Stable

/-- What is made of one field that has to be there. -/
theorem Decoder.Stable.exists_of_single {read : Decoder α} {write : α → Json}
    {name : String} {f : α → β} {m : Medium} {t : Tree} {b : β}
    (hread : read.Stable write)
    (h : Reads.record [name] (f <$> Reads.required name read) false m t =
      .ok b) :
    ∃ a, f a = b ∧ ∀ m, Reads.record [name]
      (f <$> Reads.required name read) false m
        (.ofJson (.obj [(name, write a)])) = .ok b := by
  obtain ⟨w, hw⟩ := Reads.exists_of_record h
  obtain ⟨a, ha, rfl⟩ := Reads.gives_map.1 hw
  refine ⟨a, rfl, fun m => Reads.record_eq_ok ?_ ?_⟩
  · simp [Reads.fits]
  · exact Reads.gives_map.2 ⟨a, hread.required ha (by simp), rfl⟩

/-! ## Kinds -/

namespace Decoder

variable {m : Medium} {t : Tree} {a : α}

theorem mem_of_labelled {table : List (String × α)} {s : String}
    (h : labelled table s = .ok a) : (s, a) ∈ table := by
  rw [labelled] at h
  split at h
  · rename_i hlookup
    cases h
    obtain ⟨before, after, rfl, -⟩ := List.lookup_eq_some_iff.1 hlookup
    exact List.mem_append_right before List.mem_cons_self
  · cases h

theorem exists_mem_of_label {table : List (String × α)}
    (h : label table m t = .ok a) : ∃ s, (s, a) ∈ table := by
  rw [label.eq_def] at h
  split at h
  · exact ⟨_, mem_of_labelled h⟩
  · split_ifs at h
    exact ⟨_, mem_of_labelled h⟩
  · cases h

theorem exists_of_byTag {variants : List (String × Decoder α)} {tag rest : Tree}
    (h : byTag variants tag rest = .ok a) :
    ∃ s read, (s, read) ∈ variants ∧ read .aside rest = .ok a := by
  rw [byTag.eq_def] at h
  split_ifs at h
  split at h
  · obtain ⟨read, hread, ha⟩ := bind_eq_ok_iff.1 h
    exact ⟨_, read, mem_of_labelled hread, ha⟩
  · cases h

/-- What is of one of several kinds was read in the way of its kind. -/
theorem exists_of_tagged {tag : String} {variants : List (String × Decoder α)}
    (h : tagged tag variants m t = .ok a) :
    ∃ s read t', (s, read) ∈ variants ∧ read .aside t' = .ok a := by
  rw [tagged.eq_def] at h
  split at h
  · split at h
    · obtain ⟨s, read, hmem, ha⟩ := exists_of_byTag h
      exact ⟨s, read, _, hmem, ha⟩
    · cases h
  · obtain ⟨s, read, hmem, ha⟩ := exists_of_byTag h
    exact ⟨s, read, _, hmem, ha⟩
  · cases h

/-- The label of the kind stands among the fields, and the others are read in
the way of the kind. -/
theorem tagged_eq_ok {tag s : String} {variants : List (String × Decoder α)}
    {read : Decoder α} {members : List (String × Json)}
    (hlookup : variants.lookup s = some read)
    (htag : (members.filter fun e => e.1 = tag) = [(tag, .str s)])
    (hothers : read .aside
      (.ofJson (.obj (members.filter fun e => e.1 ≠ tag))) = .ok a) :
    tagged tag variants m (.ofJson (.obj members)) = .ok a := by
  have htags : (Tree.ofMembers members).filter (·.1 = some tag) =
      [(some tag, .str s)] := by
    rw [Tree.ofMembers_eq_map, List.filter_map]
    have hsame : ((fun e : Option String × Tree => decide (e.1 = some tag)) ∘
        fun e : String × Json => (some e.1, Tree.ofJson e.2)) =
        fun e => decide (e.1 = tag) := by
      funext e
      simp
    rw [hsame, htag]
    rfl
  have hrest : (Tree.ofMembers members).filter (·.1 ≠ some tag) =
      Tree.ofMembers (members.filter fun e => e.1 ≠ tag) := by
    rw [Tree.ofMembers_eq_map, Tree.ofMembers_eq_map, List.filter_map]
    have hsame : ((fun e : Option String × Tree => decide (e.1 ≠ some tag)) ∘
        fun e : String × Json => (some e.1, Tree.ofJson e.2)) =
        fun e => decide (e.1 ≠ tag) := by
      funext e
      simp
    rw [hsame]
  rw [Tree.ofJson, tagged, htags]
  dsimp only
  rw [hrest, byTag, ← Tree.ofJson, if_pos (Tree.isLegible_ofJson _), labelled,
    hlookup]
  exact hothers

theorem eq_of_bare {b : α} (h : bare a m t = .ok b) : a = b := by
  rw [bare.eq_def] at h
  split at h <;> cases h <;> rfl

theorem eq_of_nothing {b : α} {c : Option Tree}
    (h : (Beside.nothing a).read m c = .ok b) : a = b := by
  cases c with
  | none =>
      cases h
      rfl
  | some t =>
      cases t with
      | null =>
          cases h
          rfl
      | _ => cases h

theorem exists_of_something {read : Decoder α} {b : α} {c : Option Tree}
    (h : (Beside.something read).read m c = .ok b) :
    ∃ t, read m t = .ok b := by
  cases c with
  | none => cases h
  | some t => exact ⟨t, h⟩

/-- What stands beside a label was read as it has to be beside that label. -/
theorem exists_of_kindAndContent {tag content : String}
    {variants : List (String × Beside α)}
    (h : kindAndContent tag content variants m t = .ok a) :
    ∃ s beside m' c, (s, beside) ∈ variants ∧ beside.read m' c = .ok a := by
  have hlabel {t' : Tree} {m' : Medium} {c : Option Tree}
      (h : ((label variants m t').bind fun b => b.read m' c) = .ok a) :
      ∃ s beside m' c, (s, beside) ∈ variants ∧ beside.read m' c = .ok a := by
    obtain ⟨beside, hbeside, ha⟩ := bind_eq_ok_iff.1 h
    obtain ⟨s, hs⟩ := exists_mem_of_label hbeside
    exact ⟨s, beside, _, _, hs, ha⟩
  rw [kindAndContent.eq_def] at h
  split at h
  · split at h
    · split at h
      · exact hlabel h
      · split at h
        · split at h
          · exact hlabel h
          · cases h
        · exact hlabel h
      · cases h
    · cases h
  · split at h
    · obtain ⟨beside, hbeside, ha⟩ := bind_eq_ok_iff.1 h
      obtain ⟨s, -, hs⟩ := bind_eq_ok_iff.1 hbeside
      exact ⟨s, beside, _, _, mem_of_labelled hs, ha⟩
    · cases h
  · cases h

end Decoder

end CallGate
