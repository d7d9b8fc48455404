import CallGate.Proofs.Archive.Table
import CallGate.Proofs.Document.Record
import CallGate.Proofs.Operation.Registry
import CallGate.Settings.Load

/-!
# What settings block

An operation is blocked because the document lists it, or because a variable of
the environment does.  Neither reading the document nor overriding it loses
anything that is listed, and a write that is not allowed by either of them is
not allowed by the settings.
-/

namespace CallGate

/-! ## Fields and sets in documents -/

/-- What stands in the field of a name: under the name in a table, and in a list
at the place that the name has among the names of the fields. -/
def Tree.field? (names : List String) (name : String) : Tree → Option Tree
  | .obj members => (Reads.find? name members).map (·.2)
  | .arr items => items[names.idxOf name]?
  | _ => none

/-- What is read where something may stand: what is read from it, or a default
where nothing stands. -/
def Decoder.OrDefault {α : Type} (read : Decoder α) (default : α) (m : Medium) :
    Option Tree → α → Prop
  | some t, a => read m t = .ok a
  | none, a => a = default

namespace Reads

variable {α β : Type} {names : List String} {name : String} {m : Medium}
  {t : Tree} {w : Written}

theorem find?_zip (hname : name ∈ names) (items : List Tree) :
    (find? name ((names.map some).zip items)).map (·.2) =
      items[names.idxOf name]? := by
  induction names generalizing items with
  | nil => cases hname
  | cons first rest ih =>
      cases items with
      | nil => rfl
      | cons t items =>
          rw [List.map_cons, List.zip_cons_cons, find?]
          by_cases h : first = name
          · rw [if_pos (congrArg some h), ← h, List.idxOf_cons_self]
            rfl
          · have hrest : name ∈ rest :=
              (List.mem_cons.1 hname).resolve_left (Ne.symm h)
            rw [if_neg (mt Option.some.inj h), List.idxOf_cons_ne rest h,
              Option.map_map, List.getElem?_cons_succ, ← ih hrest]
            rfl

/-- A record, be it a table or a list, is what its fields are. -/
theorem exists_written_of_record {fields : Reads α} {strict : Bool} {a : α}
    (h : record names fields strict m t = .ok a) :
    ∃ w, w.medium = m ∧ fields w = .ok a ∧ ∀ name ∈ names,
      (find? name w.fields).map (·.2) = t.field? names name := by
  cases t with
  | obj members =>
      exact ⟨_, rfl, fields_of_record h, fun name _ => rfl⟩
  | arr items =>
      rw [record] at h
      split at h
      · cases h
      · rename_i a' ha'
        split_ifs at h
        cases h
        exact ⟨_, rfl, ha', fun name hname => find?_zip hname items⟩
  | _ => cases h

theorem orDefault_of_defaulted {read : Decoder α} {default a : α}
    (h : defaulted name read default w = .ok a) :
    read.OrDefault default w.medium ((find? name w.fields).map (·.2)) a := by
  rw [defaulted, field] at h
  split at h
  · rename_i hfind
    rw [hfind]
    exact eq_ok_of_mapError h
  · rename_i hfind
    rw [hfind]
    exact (Except.ok.inj (eq_ok_of_mapError h)).symm

end Reads

/-- A field inside something that may stand somewhere is read from there, or is
that of the default. -/
theorem Decoder.OrDefault.field {α β : Type} {read : Decoder α}
    {inner : Decoder β} {get : α → β} {default a : α} {m : Medium}
    {names : List String} {name : String} {t? : Option Tree}
    (hfield : ∀ t a, read m t = .ok a →
      inner.OrDefault (get default) m (t.field? names name) (get a))
    (h : read.OrDefault default m t? a) :
    inner.OrDefault (get default) m (t?.bind (Tree.field? names name))
      (get a) := by
  cases t? with
  | none => exact congrArg get h
  | some t => exact hfield t a h

namespace Decoder

variable {α : Type} {m : Medium} {t : Tree}

theorem mem_of_items {read : Decoder α} {ts : List Tree} {values : List α}
    {a : α} (h : items read m ts = .ok values) (ht : t ∈ ts)
    (hread : read m t = .ok a) : a ∈ values := by
  induction ts generalizing values with
  | nil => cases ht
  | cons first rest ih =>
      rw [items] at h
      cases hfirst : read m first with
      | error e =>
          rw [hfirst] at h
          cases h
      | ok b =>
          rw [hfirst] at h
          cases hrest : items read m rest with
          | error e =>
              rw [hrest] at h
              cases h
          | ok more =>
              rw [hrest] at h
              cases h
              rcases List.mem_cons.1 ht with rfl | ht
              · rw [hread] at hfirst
                cases hfirst
                exact List.mem_cons_self
              · exact List.mem_cons_of_mem b (ih hrest ht)

end Decoder

namespace KeySet

variable {κ : Type} [Ord κ] [Std.TransOrd κ] [Std.LawfulEqOrd κ]
  [DecidableEq κ] {s : KeySet κ} {key other : κ}

theorem contains_add_self (s : KeySet κ) (key : κ) :
    (add s key).contains key = true := by
  rw [KeyMap.contains_eq_isSome, add, KeyMap.get?_insert_self]
  rfl

/-- Adding to a set loses nothing. -/
theorem contains_add (h : s.contains key = true) (other : κ) :
    (add s other).contains key = true := by
  rw [KeyMap.contains_eq_isSome] at h ⊢
  rw [add, KeyMap.get?_insert]
  split
  · rfl
  · exact h

theorem contains_foldl_add (h : s.contains key = true) (keys : List κ) :
    (keys.foldl add s).contains key = true := by
  induction keys generalizing s with
  | nil => exact h
  | cons first rest ih => exact ih (contains_add h first)

theorem contains_of_mem {keys : List κ} (hmem : key ∈ keys) (s : KeySet κ) :
    (keys.foldl add s).contains key = true := by
  induction keys generalizing s with
  | nil => cases hmem
  | cons first rest ih =>
      rcases List.mem_cons.1 hmem with rfl | hmem
      · exact contains_foldl_add (contains_add_self s key) rest
      · exact ih hmem (add s first)

end KeySet

/-- A list that is read as a set gives a set of what is read from its items. -/
theorem Decoder.contains_of_setOf {κ : Type} [Ord κ] [Std.TransOrd κ]
    [Std.LawfulEqOrd κ] [DecidableEq κ] {read : Decoder κ} {m : Medium}
    {ts : List Tree} {t : Tree} {s : KeySet κ} {key : κ}
    (h : setOf read m (.arr ts) = .ok s) (ht : t ∈ ts)
    (hread : read m t = .ok key) : s.contains key = true := by
  obtain ⟨keys, hkeys, rfl⟩ := Decoder.map_eq_ok_iff.1 h
  exact KeySet.contains_of_mem (mem_of_items hkeys ht hread) KeyMap.empty

/-! ## What a document says -/

/-- The operation that a string names. -/
def Tree.operation? : Tree → Option OperationId
  | .str text => (OperationId.read text).toOption
  | _ => none

/-- The operations that are listed where something may stand: those that the
strings of a list name. -/
def Tree.listed : Option Tree → List OperationId
  | some (.arr items) => items.filterMap operation?
  | _ => []

/-- Whether a flag is put on where something may stand. -/
def Tree.isOn : Option Tree → Bool
  | some (.bool flag) => flag
  | _ => false

namespace Settings

/-- The names of the sections. -/
def sections : List String :=
  ["session", "policy", "live", "approvals", "runner", "receipts", "audit"]

/-- The names of the fields of the section about the policy. -/
def policyFields : List String :=
  ["write_safe_enabled", "hard_block", "pre_granted", "overrides"]

/-- The names of the fields of the section about live backends. -/
def liveFields : List String :=
  ["allow_write_safe", "allow_write_risky", "block_ops"]

end Settings

open Settings in
/-- What a document says in a field of the section about the policy. -/
def Tree.policy? (document : Tree) (name : String) : Option Tree :=
  (document.field? sections "policy").bind (Tree.field? policyFields name)

open Settings in
/-- What a document says in a field of the section about live backends. -/
def Tree.live? (document : Tree) (name : String) : Option Tree :=
  (document.field? sections "live").bind (Tree.field? liveFields name)

/-- The operations that a document lists are blocked by the policy and by the
guard, and the guard lets writes through whose flags the document puts on. -/
structure Settings.Follows (written : Settings) (document : Tree) : Prop where
  policy : ∀ operation ∈ Tree.listed (document.policy? "hard_block"),
    written.session.policy.hardBlock.contains operation = true
  live : ∀ operation ∈ Tree.listed (document.live? "block_ops"),
    written.session.guard.hardBlock.contains operation = true
  writeSafe_eq : written.session.guard.allowWriteSafe =
    Tree.isOn (document.live? "allow_write_safe")
  writeRisky_eq : written.session.guard.allowWriteRisky =
    Tree.isOn (document.live? "allow_write_risky")

namespace Settings

variable {text : String} {document : Tree} {operation : OperationId}
  {written settings : Settings} {env : Environment} {t? : Option Tree}

theorem decode_of_operation? {m : Medium} {t : Tree}
    (h : t.operation? = some operation) :
    OperationId.decode m t = .ok operation := by
  cases t with
  | str text =>
      change OperationId.read text = .ok operation
      rw [Tree.operation?] at h
      cases hread : OperationId.read text with
      | error e =>
          rw [hread] at h
          cases h
      | ok found =>
          rw [hread] at h
          cases h
          rfl
  | _ => cases h

theorem contains_of_listed {s : OperationSet}
    (h : OperationSet.decode.OrDefault KeyMap.empty .toml t? s)
    (hlisted : operation ∈ Tree.listed t?) : s.contains operation = true := by
  match t?, h, hlisted with
  | some (.arr items), h, hlisted =>
      obtain ⟨item, hitem, hnamed⟩ := List.mem_filterMap.1 hlisted
      exact Decoder.contains_of_setOf h hitem (decode_of_operation? hnamed)

theorem eq_isOn {flag : Bool}
    (h : Decoder.bool.OrDefault false .toml t? flag) :
    flag = Tree.isOn t? := by
  match t?, h with
  | none, h => exact h
  | some (.bool b), h => exact (Except.ok.inj h).symm

/-- The sections about the policy and about live backends are those of the
settings. -/
theorem sections_of_decode (h : decode .toml document = .ok written) :
    ∃ policy,
      decodePolicy.OrDefault {} .toml (document.field? sections "policy")
        policy ∧
      written.session.policy.hardBlock = policy.hardBlock ∧
      decodeGuard.OrDefault {} .toml (document.field? sections "live")
        written.session.guard := by
  obtain ⟨w, hmedium, hfields, hplaces⟩ := Reads.exists_written_of_record h
  simp only [Reads.seq_eq_ok_iff, Reads.map_eq_ok_iff] at hfields
  obtain ⟨_, audit, ⟨_, receipts, ⟨_, limits, ⟨_, matching, ⟨_, guard,
    ⟨_, policy, ⟨session, -, rfl⟩, hpolicy, rfl⟩, hguard, rfl⟩, -, rfl⟩, -,
    rfl⟩, -, rfl⟩, -, rfl⟩ := hfields
  have hpolicy := Reads.orDefault_of_defaulted hpolicy
  have hguard := Reads.orDefault_of_defaulted hguard
  rw [hmedium, hplaces _ (by decide)] at hpolicy hguard
  exact ⟨policy, hpolicy, rfl, hguard⟩

theorem fields_of_decodePolicy (t : Tree) (policy : Policy)
    (h : decodePolicy .toml t = .ok policy) :
    OperationSet.decode.OrDefault KeyMap.empty .toml
      (t.field? policyFields "hard_block") policy.hardBlock := by
  obtain ⟨w, hmedium, hfields, hplaces⟩ := Reads.exists_written_of_record h
  simp only [Reads.seq_eq_ok_iff, Reads.map_eq_ok_iff] at hfields
  obtain ⟨_, overrides, ⟨_, granted, ⟨_, block, ⟨enabled, -, rfl⟩, hblock,
    rfl⟩, -, rfl⟩, -, rfl⟩ := hfields
  have hblock := Reads.orDefault_of_defaulted hblock
  rw [hmedium, hplaces _ (by decide)] at hblock
  exact hblock

theorem fields_of_decodeGuard (t : Tree) (guard : LiveGuard)
    (h : decodeGuard .toml t = .ok guard) :
    Decoder.bool.OrDefault false .toml (t.field? liveFields "allow_write_safe")
        guard.allowWriteSafe ∧
      Decoder.bool.OrDefault false .toml
        (t.field? liveFields "allow_write_risky") guard.allowWriteRisky ∧
      OperationSet.decode.OrDefault KeyMap.empty .toml
        (t.field? liveFields "block_ops") guard.hardBlock := by
  obtain ⟨w, hmedium, hfields, hplaces⟩ := Reads.exists_written_of_record h
  simp only [Reads.seq_eq_ok_iff, Reads.map_eq_ok_iff] at hfields
  obtain ⟨_, block, ⟨_, risky, ⟨safe, hsafe, rfl⟩, hrisky, rfl⟩, hblock,
    rfl⟩ := hfields
  have hsafe := Reads.orDefault_of_defaulted hsafe
  have hrisky := Reads.orDefault_of_defaulted hrisky
  have hblock := Reads.orDefault_of_defaulted hblock
  rw [hmedium, hplaces _ (by decide)] at hsafe hrisky hblock
  exact ⟨hsafe, hrisky, hblock⟩

theorem follows_of_ofToml (hdocument : Toml.read? text = some document)
    (h : ofToml text = .ok written) : written.Follows document := by
  rw [ofToml, Decoder.fromToml, hdocument] at h
  obtain ⟨policy, hpolicy, hsame, hguard⟩ :=
    sections_of_decode (eq_ok_of_mapError h)
  refine ⟨fun operation hlisted => ?_, fun operation hlisted => ?_, ?_, ?_⟩
  · rw [hsame]
    exact contains_of_listed (hpolicy.field fields_of_decodePolicy) hlisted
  · exact contains_of_listed
      (hguard.field fun t guard ht => (fields_of_decodeGuard t guard ht).2.2)
      hlisted
  · exact eq_isOn
      (hguard.field fun t guard ht => (fields_of_decodeGuard t guard ht).1)
  · exact eq_isOn
      (hguard.field fun t guard ht => (fields_of_decodeGuard t guard ht).2.1)

/-! ## Overriding -/

/-- A flag is off: its variable has a word for no, blanks around it and the case
of ASCII letters aside, or is not set and the document does not put the flag
on. -/
def FlagOff (env : Environment) (document : Tree)
    (variableName field : String) : Prop :=
  match env variableName with
  | some text =>
    Text.asciiLower (Text.trim text) ∈ ["0", "false", "no", "off", ""]
  | none => Tree.isOn (document.live? field) = false

/-- An operation is among those that the variable lists. -/
def VariableLists (env : Environment) (operation : OperationId) : Prop :=
  ∃ text item, env blockVariable = some text ∧
    item ∈ Text.pieces ',' text.toList ∧
    OperationId.read (String.ofList (Text.trimChars item)) = .ok operation

/-- Adding operations to a set loses none of it and adds each of them. -/
theorem contains_addOperations {s t : OperationSet} {pieces : List (List Char)}
    (h : addOperations s pieces = .ok t) :
    (s.contains operation = true → t.contains operation = true) ∧
    ∀ item ∈ pieces,
      OperationId.read (String.ofList (Text.trimChars item)) = .ok operation →
        t.contains operation = true := by
  induction pieces generalizing s with
  | nil =>
      cases h
      exact ⟨fun h => h, fun item hitem => by cases hitem⟩
  | cons first rest ih =>
      rw [addOperations] at h
      split at h
      · rename_i hblank
        obtain ⟨hkeeps, hadds⟩ := ih h
        refine ⟨hkeeps, fun item hitem hread => ?_⟩
        rcases List.mem_cons.1 hitem with rfl | hitem
        · rw [List.isEmpty_iff.1 hblank] at hread
          cases hread
        · exact hadds item hitem hread
      · cases hread : OperationId.read
            (String.ofList (Text.trimChars first)) with
        | error e =>
            rw [hread] at h
            cases h
        | ok found =>
            rw [hread] at h
            obtain ⟨hkeeps, hadds⟩ := ih h
            refine ⟨fun hold => hkeeps (KeySet.contains_add hold found), ?_⟩
            intro item hitem hitemread
            rcases List.mem_cons.1 hitem with rfl | hitem
            · rw [hread] at hitemread
              cases hitemread
              exact hkeeps (KeySet.contains_add_self s operation)
            · exact hadds item hitem hitemread

/-- Overriding leaves the policy as it is, keeps what the guard blocks, blocks
what the variable lists, and takes flags from their variables. -/
structure Overrides (env : Environment) (written settings : Settings) :
    Prop where
  policy_eq : settings.session.policy = written.session.policy
  keeps : ∀ operation,
    written.session.guard.hardBlock.contains operation = true →
      settings.session.guard.hardBlock.contains operation = true
  adds : ∀ operation, VariableLists env operation →
    settings.session.guard.hardBlock.contains operation = true
  writeSafe : overridden (env writeSafeVariable) (readFlag writeSafeVariable)
    written.session.guard.allowWriteSafe =
      .ok settings.session.guard.allowWriteSafe
  writeRisky : overridden (env writeRiskyVariable) (readFlag writeRiskyVariable)
    written.session.guard.allowWriteRisky =
      .ok settings.session.guard.allowWriteRisky

theorem overrides_of_override (h : written.override env = .ok settings) :
    Overrides env written settings := by
  rw [override] at h
  obtain ⟨mode, -, h⟩ := exists_of_bind_eq_ok h
  obtain ⟨seed, -, h⟩ := exists_of_bind_eq_ok h
  obtain ⟨safe, hsafe, h⟩ := exists_of_bind_eq_ok h
  obtain ⟨risky, hrisky, h⟩ := exists_of_bind_eq_ok h
  obtain ⟨blocked, hblocked, h⟩ := exists_of_bind_eq_ok h
  cases h
  refine ⟨rfl, ?_, ?_, hsafe, hrisky⟩
  · intro operation hold
    cases hvalue : env blockVariable with
    | none =>
        rw [hvalue] at hblocked
        cases hblocked
        exact hold
    | some value =>
        rw [hvalue] at hblocked
        exact (contains_addOperations hblocked).1 hold
  · rintro operation ⟨value, item, hvalue, hitem, hread⟩
    rw [hvalue] at hblocked
    exact (contains_addOperations hblocked).2 item hitem hread

theorem readFlag_of_no (name : String)
    (h : Text.asciiLower (Text.trim text) ∈ ["0", "false", "no", "off", ""]) :
    readFlag name text = .ok false := by
  simp only [List.mem_cons, List.not_mem_nil, or_false] at h
  rcases h with h | h | h | h | h <;> rw [readFlag, h] <;> rfl

/-- A flag that is off stays so. -/
theorem FlagOff.eq_false {variableName field : String} {old new : Bool}
    (h : FlagOff env document variableName field)
    (hold : old = Tree.isOn (document.live? field))
    (hnew : overridden (env variableName) (readFlag variableName) old =
      .ok new) : new = false := by
  rw [FlagOff] at h
  cases hvalue : env variableName with
  | none =>
      rw [hvalue] at h hnew
      cases hnew
      exact hold.trans h
  | some value =>
      rw [hvalue] at h hnew
      dsimp only [overridden] at h hnew
      rw [readFlag_of_no variableName h] at hnew
      exact (Except.ok.inj hnew).symm

/-! ## Checked settings -/

/-- Settings are accepted when they fit the catalog. -/
theorem check_eq_ok_iff {isDirectory : String → Bool} :
    settings.check isDirectory = .ok () ↔
      ∃ registry, Registry.office = .ok registry ∧
        settings.checkWith registry isDirectory = .ok () := by
  have hcheck : check = check := rfl
  conv at hcheck =>
    rhs
    delta check
  rw [hcheck]
  cases Registry.office <;> simp

theorem checkEach_of_mem {field : String} {registry : Registry}
    {operations : List OperationId}
    (h : checkEach field registry operations = .ok ())
    (hmem : operation ∈ operations) :
    operation.service ≠ ApprovalControl.service := by
  induction operations with
  | nil => cases hmem
  | cons first rest ih =>
      rw [checkEach] at h
      split at h
      · cases h
      · rename_i hservice
        split at h
        · rcases List.mem_cons.1 hmem with rfl | hmem
          · exact hservice
          · exact ih h hmem
        · cases h

/-- No operation on the queue of approvals is blocked by settings that were
checked. -/
theorem service_ne_of_check {isDirectory : String → Bool}
    (h : settings.check isDirectory = .ok ())
    (hblock : settings.session.policy.hardBlock.contains operation = true) :
    operation.service ≠ ApprovalControl.service := by
  obtain ⟨registry, -, h⟩ := check_eq_ok_iff.1 h
  obtain ⟨_, -, h⟩ := exists_of_bind_eq_ok h
  obtain ⟨_, -, h⟩ := exists_of_bind_eq_ok h
  obtain ⟨_, hpolicy, -⟩ := exists_of_bind_eq_ok h
  obtain ⟨_, hoperations, -⟩ := exists_of_bind_eq_ok hpolicy
  rw [checkOperations] at hoperations
  split at hoperations
  · cases hoperations
  · refine checkEach_of_mem hoperations ?_
    rw [KeyMap.contains_eq_isSome, Option.isSome_iff_exists] at hblock
    obtain ⟨_, hget⟩ := hblock
    exact List.mem_map_of_mem (KeyMap.mem_entries_iff.2 hget)

end Settings

end CallGate
