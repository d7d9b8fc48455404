import CallGate.Proofs.Json.Parts
import CallGate.Proofs.Workflow.Segments

/-!
# What templates refer to

A grammar of templates beside the functions that read them: how what stands
between the marks of a reference names a step or the world, and which
references a text has.  A value has references exactly when all strings in it
follow the grammar, and they are the references of these strings.
-/

namespace CallGate

namespace Template

/-- What is written between the marks of a reference, without the blanks
around it. -/
inductive Names : List Char → Reference → Prop where
  | world : Names "world".toList (.world "")
  | worldPath (path : List Char) :
      Names ("world.".toList ++ path) (.world (String.ofList path))
  | step (id : List Char) (hid : id ≠ []) (hdot : '.' ∉ id) :
      Names ("steps.".toList ++ id) (.step (String.ofList id) "")
  | stepPath (id path : List Char) (hid : id ≠ []) (hdot : '.' ∉ id) :
      Names ("steps.".toList ++ (id ++ '.' :: path))
        (.step (String.ofList id) (String.ofList path))

/-- The references of a text from left to right.  Each goes from the first
opening mark to the first closing one after it. -/
inductive Refers : List Char → List Reference → Prop where
  | plain (text : List Char) (hplain : ¬opening <:+: text) : Refers text []
  | reference (before body rest : List Char) (r : Reference)
      (refs : List Reference) (hfirst : ¬opening <:+: before)
      (hend : '}' ∉ body) (hnames : Names (Text.trimChars body) r)
      (hrest : Refers rest refs) :
      Refers (before ++ opening ++ (body ++ '}' :: rest)) (r :: refs)

/-! ## Reading references -/

theorem names_of_referenceOf? {body : List Char} {r : Reference}
    (h : referenceOf? body = some r) : Names body r := by
  rw [referenceOf?] at h
  split at h
  · rename_i hworld
    cases h
    rw [hworld]
    exact .world
  · split at h
    · rename_i path hpath
      cases h
      rw [Text.afterStart_eq_some_iff.1 hpath]
      exact .worldPath path
    · split at h
      · cases h
      · rename_i rest hrest
        rw [Text.afterStart_eq_some_iff.1 hrest]
        cases hcut : Text.cutAtFirst '.' rest with
        | none =>
            have hdot := Text.cutAtFirst_eq_none_iff.1 hcut
            simp only [hcut, Option.getD_none, List.isEmpty_iff] at h
            split at h
            · cases h
            · rename_i hid
              cases h
              exact .step rest hid hdot
        | some cut =>
            obtain ⟨id, path⟩ := cut
            obtain ⟨rfl, hdot⟩ := Text.cutAtFirst_eq_some_iff.1 hcut
            simp only [hcut, Option.getD_some, List.isEmpty_iff] at h
            split at h
            · cases h
            · rename_i hid
              cases h
              exact .stepPath id path hid hdot

theorem referenceOf?_of_steps {rest id path : List Char} (hid : id ≠ [])
    (hcut : (Text.cutAtFirst '.' rest).getD (rest, []) = (id, path)) :
    referenceOf? ("steps.".toList ++ rest) =
      some (.step (String.ofList id) (String.ofList path)) := by
  have hworld : Text.afterStart "world.".toList ("steps.".toList ++ rest) =
      none := rfl
  have hsteps : Text.afterStart "steps.".toList ("steps.".toList ++ rest) =
      some rest := Text.afterStart_eq_some_iff.2 rfl
  rw [referenceOf?, if_neg (by simp), hworld, hsteps]
  simp [hcut, hid]

theorem referenceOf?_of_names {body : List Char} {r : Reference}
    (h : Names body r) : referenceOf? body = some r := by
  cases h with
  | world => rfl
  | worldPath path =>
      have hpath : Text.afterStart "world.".toList
          ("world.".toList ++ path) = some path :=
        Text.afterStart_eq_some_iff.2 rfl
      rw [referenceOf?, if_neg (by simp), hpath]
  | step id hid hdot =>
      apply referenceOf?_of_steps hid
      rw [Text.cutAtFirst_eq_none_iff.2 hdot, Option.getD_none]
  | stepPath id path hid hdot =>
      apply referenceOf?_of_steps hid
      rw [Text.cutAtFirst_eq_some_iff.2 ⟨rfl, hdot⟩, Option.getD_some]

theorem reference_eq_ok_iff {body : List Char} {r : Reference} :
    reference body = .ok r ↔ Names (Text.trimChars body) r := by
  constructor
  · intro h
    rw [reference] at h
    split at h
    · rename_i hfound
      cases h
      exact names_of_referenceOf? hfound
    · cases h
  · intro h
    rw [reference, referenceOf?_of_names h]

theorem referencesIn_withText (text : List Char) (parts : List Segment) :
    referencesIn (withText text parts) = referencesIn parts := by
  rw [withText]
  split
  · rfl
  · rw [referencesIn]

theorem referencesIn_body_eq_ok_iff {body : List Char}
    {parts : List Segment} {refs : List Reference} :
    referencesIn (.body body :: parts) = .ok refs ↔
      ∃ r rest, refs = r :: rest ∧ reference body = .ok r ∧
        referencesIn parts = .ok rest := by
  rw [referencesIn]
  cases reference body with
  | error e => simp
  | ok r =>
      cases referencesIn parts with
      | error e => simp [Except.map]
      | ok rest => simp [Except.map, eq_comm]

/-- The references of a text are read off its pieces. -/
theorem refers_of_segments? {text : List Char} {parts : List Segment}
    {refs : List Reference} (hparts : segments? text = some parts)
    (hrefs : referencesIn parts = .ok refs) : Refers text refs := by
  rw [segments?_eq_some_iff_fallsInto] at hparts
  induction hparts generalizing refs with
  | plain text hplain =>
      rw [referencesIn_withText] at hrefs
      cases hrefs
      exact .plain text hplain
  | reference before body rest more hfirst hend _ ih =>
      rw [referencesIn_withText, referencesIn_body_eq_ok_iff] at hrefs
      obtain ⟨r, others, rfl, hr, hothers⟩ := hrefs
      exact .reference before body rest r others hfirst hend
        (reference_eq_ok_iff.1 hr) (ih hothers)

theorem segments?_of_refers {text : List Char} {refs : List Reference}
    (h : Refers text refs) :
    ∃ parts, segments? text = some parts ∧ referencesIn parts = .ok refs := by
  induction h with
  | plain text hplain =>
      refine ⟨withText text [], segments?_of_plain hplain, ?_⟩
      rw [referencesIn_withText]
      rfl
  | reference before body rest r refs hfirst hend hnames _ ih =>
      obtain ⟨parts, hparts, hrefs⟩ := ih
      refine ⟨withText before (.body body :: parts), ?_, ?_⟩
      · rw [segments?_of_reference hfirst hend, hparts, Option.map_some]
      · rw [referencesIn_withText, referencesIn_body_eq_ok_iff]
        exact ⟨r, refs, rfl, reference_eq_ok_iff.2 hnames, hrefs⟩

/-- The references of a string are those that the grammar gives it. -/
theorem references_str_eq_ok_iff {text : String} {refs : List Reference} :
    references (.str text) = .ok refs ↔ Refers text.toList refs := by
  rw [references, segments]
  constructor
  · intro h
    cases hparts : segments? text.toList with
    | none =>
        rw [hparts] at h
        cases h
    | some parts =>
        rw [hparts] at h
        exact refers_of_segments? hparts h
  · intro h
    obtain ⟨parts, hparts, hrefs⟩ := segments?_of_refers h
    rw [hparts]
    exact hrefs

/-! ## The strings of a value -/

/-- The references of a value satisfy a condition. -/
def ReferTo (P : Reference → Prop) (found : Except Error (List Reference)) :
    Prop :=
  ∃ refs, found = .ok refs ∧ ∀ r ∈ refs, P r

variable {P : Reference → Prop}

theorem referTo_bind {first rest : Except Error (List Reference)} :
    ReferTo P (first.bind fun refs => rest.map (refs ++ ·)) ↔
      ReferTo P first ∧ ReferTo P rest := by
  cases first with
  | error e => simp [ReferTo, Except.bind]
  | ok refs =>
      cases rest with
      | error e => simp [ReferTo, Except.bind, Except.map]
      | ok more =>
          simp [ReferTo, Except.bind, Except.map, or_imp, forall_and]

theorem referencesItems_cons (v : Json) (rest : List Json) :
    referencesItems (v :: rest) =
    (references v).bind fun refs => (referencesItems rest).map (refs ++ ·) := by
  rw [referencesItems]
  cases references v <;> rfl

theorem referencesMembers_cons (m : String × Json)
    (rest : List (String × Json)) :
    referencesMembers (m :: rest) = (references m.2).bind fun refs =>
      (referencesMembers rest).map (refs ++ ·) := by
  rw [referencesMembers]
  cases references m.2 <;> rfl

theorem referTo_nil : ReferTo P (.ok []) := ⟨[], rfl, nofun⟩

mutual

/-- A value has references that satisfy a condition exactly when each of its
strings has such references. -/
theorem referTo_references_iff : (v : Json) →
    (ReferTo P (references v) ↔ ∀ text, v.HasText text →
      ∃ refs, Refers text.toList refs ∧ ∀ r ∈ refs, P r)
  | .null => by
      rw [references]
      exact ⟨fun _ text h => (by cases h), fun _ => referTo_nil⟩
  | .bool _ => by
      rw [references]
      exact ⟨fun _ text h => (by cases h), fun _ => referTo_nil⟩
  | .num _ => by
      rw [references]
      exact ⟨fun _ text h => (by cases h), fun _ => referTo_nil⟩
  | .str text => by
      simp only [ReferTo, references_str_eq_ok_iff]
      constructor
      · intro h other hother
        cases hother
        exact h
      · exact fun h => h text (.self text)
  | .arr items => by
      rw [references, referTo_referencesItems_iff items]
      constructor
      · intro h text htext
        cases htext with
        | item hv hv' => exact h _ hv text hv'
      · intro h v hv text htext
        exact h text (.item hv htext)
  | .obj members => by
      rw [references, referTo_referencesMembers_iff members]
      constructor
      · intro h text htext
        cases htext with
        | member hm hm' => exact h _ hm text hm'
      · intro h m hm text htext
        exact h text (.member hm htext)
termination_by structural v => v

theorem referTo_referencesItems_iff : (items : List Json) →
    (ReferTo P (referencesItems items) ↔ ∀ v ∈ items, ∀ text,
      v.HasText text → ∃ refs, Refers text.toList refs ∧ ∀ r ∈ refs, P r)
  | [] => by
      rw [referencesItems]
      exact ⟨fun _ => nofun, fun _ => referTo_nil⟩
  | v :: rest => by
      rw [referencesItems_cons, referTo_bind, referTo_references_iff v,
        referTo_referencesItems_iff rest, List.forall_mem_cons]
termination_by structural v => v

theorem referTo_referencesMembers_iff : (members : List (String × Json)) →
    (ReferTo P (referencesMembers members) ↔ ∀ m ∈ members, ∀ text,
      m.2.HasText text → ∃ refs, Refers text.toList refs ∧ ∀ r ∈ refs, P r)
  | [] => by
      rw [referencesMembers]
      exact ⟨fun _ => nofun, fun _ => referTo_nil⟩
  | (name, v) :: rest => by
      rw [referencesMembers_cons, referTo_bind, referTo_references_iff v,
        referTo_referencesMembers_iff rest, List.forall_mem_cons]
termination_by structural v => v

end

end Template

end CallGate
