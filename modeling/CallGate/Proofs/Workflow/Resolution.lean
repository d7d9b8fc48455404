import CallGate.Proofs.Json.Settled
import CallGate.Proofs.Workflow.WellFormed

/-!
# Values with their references replaced

What becomes of a value when its references are replaced, as a relation beside
the function: the text between references stays, each reference gives way to
what it refers to, and what comes in that way is not looked at again.  A value
can be resolved exactly when the references that are listed for it all have
values, so the check that is made before a workflow runs leaves one error for
the run: that there is no value.
-/

namespace CallGate.Template

/-- What the scope has for a reference: the part of the snapshot that the path
names, or the part of the data of a step, when the step has data. -/
inductive Scope.Holds (scope : Scope) : Reference → Json → Prop where
  | world (path : String) (v : Json) (hv : scope.world.at? path = some v) :
      Holds scope (.world path) v
  | step (id path : String) (data v : Json)
      (hdata : scope.steps.get? id = some data)
      (hv : data.at? path = some v) : Holds scope (.step id path) v

/-- The reference has a value in the scope. -/
def Scope.HasValue (scope : Scope) (r : Reference) : Prop :=
  ∃ v, scope.Holds r v

/-- A text with each of its references replaced by the text of its value. -/
inductive Fills (scope : Scope) : List Char → List Char → Prop where
  | plain (text : List Char) (hplain : ¬opening <:+: text) :
      Fills scope text text
  | reference (before body rest out : List Char) (r : Reference) (v : Json)
      (hfirst : ¬opening <:+: before) (hend : '}' ∉ body)
      (hnames : Names (Text.trimChars body) r) (hv : scope.Holds r v)
      (hrest : Fills scope rest out) :
      Fills scope (before ++ opening ++ (body ++ '}' :: rest))
        (before ++ (inline v ++ out))

/-- The text is what stands between the marks of one reference, and the
marks. -/
def IsReference (text body : List Char) : Prop :=
  text = opening ++ (body ++ ['}']) ∧ '}' ∉ body

/-- What becomes of a string: a string that is one reference becomes the value
itself, any other one a text. -/
inductive FillsString (scope : Scope) : String → Json → Prop where
  | whole (text : String) (body : List Char) (r : Reference) (v : Json)
      (hwhole : IsReference text.toList body)
      (hnames : Names (Text.trimChars body) r) (hv : scope.Holds r v) :
      FillsString scope text v
  | inside (text : String) (out : List Char)
      (hinside : ∀ body, ¬IsReference text.toList body)
      (hfills : Fills scope text.toList out) :
      FillsString scope text (.str (String.ofList out))

/-- What becomes of a value: its strings are filled, and all else stays. -/
inductive Filled (scope : Scope) : Json → Json → Prop where
  | null : Filled scope .null .null
  | bool (b : Bool) : Filled scope (.bool b) (.bool b)
  | num (n : Number) : Filled scope (.num n) (.num n)
  | str (text : String) (w : Json) (h : FillsString scope text w) :
      Filled scope (.str text) w
  | arr (items filled : List Json)
      (h : List.Forall₂ (Filled scope) items filled) :
      Filled scope (.arr items) (.arr filled)
  | obj (members filled : List (String × Json))
      (hnames : members.map (·.1) = filled.map (·.1))
      (h : List.Forall₂ (Filled scope) (members.map (·.2))
        (filled.map (·.2))) :
      Filled scope (.obj members) (.obj filled)

variable {scope : Scope}

theorem Scope.find?_eq_some_iff {r : Reference} {v : Json} :
    scope.find? r = some v ↔ scope.Holds r v := by
  constructor
  · intro h
    cases r with
    | world path => exact .world path v h
    | step id path =>
        obtain ⟨data, hdata, hv⟩ := Option.bind_eq_some_iff.1 h
        exact .step id path data v hdata hv
  · intro h
    cases h with
    | world path _ hv => exact hv
    | step id path data _ hdata hv =>
        exact Option.bind_eq_some_iff.2 ⟨data, hdata, hv⟩

/-! ## Strings -/

section Strings

variable {body text : List Char} {parts : List Segment}

theorem lookup_eq_ok_iff {v : Json} :
    lookup scope body = .ok v ↔
      ∃ r, reference body = .ok r ∧ scope.Holds r v := by
  rw [lookup]
  cases reference body with
  | error e => simp
  | ok r =>
      simp only [Except.ok.injEq, exists_eq_left', ← Scope.find?_eq_some_iff]
      cases scope.find? r <;> simp

/-- Of a reference that can be read nothing else can be said than that it has
no value. -/
theorem lookup_error {r : Reference} {e : Error}
    (hr : reference body = .ok r) (h : lookup scope body = .error e) :
    ∃ body, e = .unresolved body := by
  rw [lookup, hr] at h
  dsimp only at h
  split at h
  · cases h
  · cases h
    exact ⟨_, rfl⟩

theorem renderParts_withText (chars : List Char) :
    renderParts scope (withText chars parts) =
      (renderParts scope parts).map (chars ++ ·) := by
  rw [withText]
  split
  · rename_i hempty
    rw [List.isEmpty_iff.1 hempty]
    cases renderParts scope parts <;> rfl
  · rw [renderParts]

theorem renderParts_body :
    renderParts scope (.body body :: parts) =
      (lookup scope body).bind fun v =>
        (renderParts scope parts).map (inline v ++ ·) := by
  rw [renderParts]
  cases lookup scope body <;> rfl

theorem renderParts_body_eq_ok_iff {out : List Char} :
    renderParts scope (.body body :: parts) = .ok out ↔
      ∃ r v rest, reference body = .ok r ∧ scope.Holds r v ∧
        renderParts scope parts = .ok rest ∧ inline v ++ rest = out := by
  simp only [renderParts_body, bind_eq_ok_iff, mapped_eq_ok_iff,
    lookup_eq_ok_iff]
  constructor
  · rintro ⟨v, ⟨r, hr, hv⟩, rest, hrest, hout⟩
    exact ⟨r, v, rest, hr, hv, hrest, hout⟩
  · rintro ⟨r, v, rest, hr, hv, hrest, hout⟩
    exact ⟨v, ⟨r, hr, hv⟩, rest, hrest, hout⟩

/-- The pieces of a text are rendered to what fills it. -/
theorem fills_of_renderParts {out : List Char}
    (hparts : segments? text = some parts)
    (hout : renderParts scope parts = .ok out) : Fills scope text out := by
  rw [segments?_eq_some_iff_fallsInto] at hparts
  induction hparts generalizing out with
  | plain text hplain =>
      rw [renderParts_withText, mapped_eq_ok_iff] at hout
      obtain ⟨rest, hrest, rfl⟩ := hout
      cases hrest
      rw [List.append_nil]
      exact .plain text hplain
  | reference before body rest more hfirst hend _ ih =>
      rw [renderParts_withText, mapped_eq_ok_iff] at hout
      obtain ⟨filled, hfilled, rfl⟩ := hout
      obtain ⟨r, v, tail, hr, hv, htail, rfl⟩ :=
        renderParts_body_eq_ok_iff.1 hfilled
      exact .reference before body rest tail r v hfirst hend
        (reference_eq_ok_iff.1 hr) hv (ih htail)

theorem renderParts_of_fills {out : List Char} (h : Fills scope text out) :
    ∃ parts, segments? text = some parts ∧
      renderParts scope parts = .ok out := by
  induction h with
  | plain text hplain =>
      refine ⟨withText text [], segments?_of_plain hplain, ?_⟩
      rw [renderParts_withText, mapped_eq_ok_iff]
      exact ⟨[], rfl, List.append_nil text⟩
  | reference before body rest out r v hfirst hend hnames hv _ ih =>
      obtain ⟨parts, hparts, hout⟩ := ih
      refine ⟨withText before (.body body :: parts), ?_, ?_⟩
      · rw [segments?_of_reference hfirst hend, hparts, Option.map_some]
      · rw [renderParts_withText, mapped_eq_ok_iff]
        refine ⟨_, renderParts_body_eq_ok_iff.2 ?_, rfl⟩
        exact ⟨r, v, out, reference_eq_ok_iff.2 hnames, hv, hout, rfl⟩

/-- A text is one piece between marks exactly when it is one reference. -/
theorem segments?_eq_body_iff :
    segments? text = some [.body body] ↔ IsReference text body := by
  rw [segments?_eq_some_iff, isSplit_cons_iff]
  constructor
  · rintro ⟨hclosed, -, rest, rfl, hrest⟩
    cases isSplit_nil_iff.1 hrest
    exact ⟨List.append_nil _, hclosed⟩
  · rintro ⟨rfl, hclosed⟩
    exact ⟨hclosed, nofun, [], (List.append_nil _).symm,
      isSplit_nil_iff.2 rfl⟩

theorem resolveText_of_segments {s : String}
    (hparts : segments? s.toList = some parts)
    (hinside : ∀ body, ¬IsReference s.toList body) :
    resolveText scope s = (renderParts scope parts).map fun chars =>
      .str (String.ofList chars) := by
  rw [resolveText, segments, hparts]
  dsimp only
  split
  · rename_i heq
    cases heq
  · rename_i body heq
    cases heq
    exact absurd (segments?_eq_body_iff.1 hparts) (hinside body)
  · rename_i heq
    cases heq
    rfl

theorem resolveText_of_isReference {s : String}
    (hwhole : IsReference s.toList body) :
    resolveText scope s = lookup scope body := by
  rw [resolveText, segments, segments?_eq_body_iff.2 hwhole]

/-- The value of a string is what fills it. -/
theorem resolveText_eq_ok_iff {s : String} {w : Json} :
    resolveText scope s = .ok w ↔ FillsString scope s w := by
  constructor
  · intro h
    by_cases hwhole : ∃ body, IsReference s.toList body
    · obtain ⟨body, hwhole⟩ := hwhole
      rw [resolveText_of_isReference hwhole, lookup_eq_ok_iff] at h
      obtain ⟨r, hr, hv⟩ := h
      exact .whole s body r w hwhole (reference_eq_ok_iff.1 hr) hv
    · have hinside := not_exists.1 hwhole
      cases hparts : segments? s.toList with
      | none =>
          rw [resolveText, segments, hparts] at h
          cases h
      | some parts =>
          rw [resolveText_of_segments hparts hinside, mapped_eq_ok_iff] at h
          obtain ⟨out, hout, rfl⟩ := h
          exact .inside s out hinside (fills_of_renderParts hparts hout)
  · intro h
    cases h with
    | whole body r _ hwhole hnames hv =>
        rw [resolveText_of_isReference hwhole, lookup_eq_ok_iff]
        exact ⟨r, reference_eq_ok_iff.2 hnames, hv⟩
    | inside out hinside hfills =>
        obtain ⟨parts, hparts, hout⟩ := renderParts_of_fills hfills
        rw [resolveText_of_segments hparts hinside, mapped_eq_ok_iff]
        exact ⟨out, hout, rfl⟩

/-- The pieces of a text can be rendered exactly when its references have
values. -/
theorem exists_renderParts_iff :
    (∃ out, renderParts scope parts = .ok out) ↔
      ReferTo scope.HasValue (referencesIn parts) := by
  induction parts with
  | nil => simp [renderParts, referencesIn, referTo_nil]
  | cons part rest ih =>
      cases part with
      | text chars =>
          rw [referencesIn, ← ih]
          simp only [renderParts, exists_mapped_eq_ok_iff]
      | body chars =>
          simp only [renderParts_body_eq_ok_iff]
          constructor
          · rintro ⟨out, r, v, more, hr, hv, hmore, rfl⟩
            obtain ⟨refs, hrefs, hall⟩ := ih.1 ⟨more, hmore⟩
            refine ⟨r :: refs, ?_, List.forall_mem_cons.2 ⟨⟨v, hv⟩, hall⟩⟩
            exact referencesIn_body_eq_ok_iff.2 ⟨r, refs, rfl, hr, hrefs⟩
          · rintro ⟨refs, hrefs, hall⟩
            obtain ⟨r, more, rfl, hr, hmore⟩ :=
              referencesIn_body_eq_ok_iff.1 hrefs
            obtain ⟨⟨v, hv⟩, hothers⟩ := List.forall_mem_cons.1 hall
            obtain ⟨out, hout⟩ := ih.2 ⟨more, hmore, hothers⟩
            exact ⟨_, r, v, out, hr, hv, hout, rfl⟩

/-- A string has a value exactly when its references have values. -/
theorem exists_resolveText_iff {s : String} :
    (∃ w, resolveText scope s = .ok w) ↔
      ReferTo scope.HasValue (references (.str s)) := by
  rw [references, segments]
  cases hparts : segments? s.toList with
  | none => simp [resolveText, segments, hparts, ReferTo, Except.bind]
  | some parts =>
      have hbind : Except.bind (.ok parts) referencesIn =
          referencesIn parts := rfl
      dsimp only
      rw [hbind, ← exists_renderParts_iff]
      by_cases hwhole : ∃ body, IsReference s.toList body
      · obtain ⟨body, hwhole⟩ := hwhole
        have hbody := segments?_eq_body_iff.2 hwhole
        rw [hparts, Option.some.injEq] at hbody
        subst hbody
        rw [resolveText_of_isReference hwhole]
        simp only [lookup_eq_ok_iff, renderParts_body_eq_ok_iff]
        constructor
        · rintro ⟨v, r, hr, hv⟩
          exact ⟨_, r, v, [], hr, hv, rfl, rfl⟩
        · rintro ⟨-, r, v, -, hr, hv, -, -⟩
          exact ⟨v, r, hr, hv⟩
      · rw [resolveText_of_segments hparts (not_exists.1 hwhole)]
        exact exists_mapped_eq_ok_iff

/-- Of pieces whose references can be read nothing else can be said than that
one has no value. -/
theorem renderParts_error {refs : List Reference} {e : Error}
    (hrefs : referencesIn parts = .ok refs)
    (h : renderParts scope parts = .error e) :
    ∃ body, e = .unresolved body := by
  induction parts generalizing refs with
  | nil => cases h
  | cons part rest ih =>
      cases part with
      | text chars =>
          rw [renderParts, mapped_eq_error_iff] at h
          exact ih hrefs h
      | body chars =>
          obtain ⟨r, more, -, hr, hmore⟩ :=
            referencesIn_body_eq_ok_iff.1 hrefs
          rw [renderParts] at h
          split at h
          · rename_i hlookup
            cases h
            exact lookup_error hr hlookup
          · rw [mapped_eq_error_iff] at h
            exact ih hmore h

theorem resolveText_error {s : String} {refs : List Reference} {e : Error}
    (hrefs : references (.str s) = .ok refs)
    (h : resolveText scope s = .error e) : ∃ body, e = .unresolved body := by
  rw [references, bind_eq_ok_iff] at hrefs
  obtain ⟨parts, hsegments, hrefs⟩ := hrefs
  rw [resolveText, hsegments] at h
  split at h
  · rename_i heq
    cases heq
  · rename_i body heq
    cases heq
    obtain ⟨r, -, -, hr, -⟩ := referencesIn_body_eq_ok_iff.1 hrefs
    exact lookup_error hr h
  · rename_i heq
    cases heq
    rw [mapped_eq_error_iff] at h
    exact renderParts_error hrefs h

/-- A string without references is its own value. -/
theorem resolveText_of_plain {s : String} (h : ¬opening <:+: s.toList) :
    resolveText scope s = .ok (.str s) := by
  have hinside : ∀ body, ¬IsReference s.toList body := by
    rintro body ⟨hwhole, -⟩
    exact h ⟨[], body ++ ['}'], hwhole.symm⟩
  have hfills : FillsString scope s (.str (String.ofList s.toList)) :=
    .inside s s.toList hinside (.plain s.toList h)
  rw [String.ofList_toList] at hfills
  exact resolveText_eq_ok_iff.2 hfills

end Strings

/-! ## Values -/

theorem resolveItems_eq_ok_iff {items ws : List Json} :
    resolveItems scope items = .ok ws ↔
      List.Forall₂ (fun v w => resolve scope v = .ok w) items ws := by
  induction items generalizing ws with
  | nil => simp [resolveItems, eq_comm]
  | cons v rest ih =>
      rw [resolveItems]
      cases ws with
      | nil => cases resolve scope v <;> simp [mapped_eq_ok_iff]
      | cons w others =>
          rw [List.forall₂_cons, ← ih]
          cases resolve scope v <;> simp [mapped_eq_ok_iff, and_comm]

theorem resolveMembers_eq_ok_iff {members ws : List (String × Json)} :
    resolveMembers scope members = .ok ws ↔
      members.map (·.1) = ws.map (·.1) ∧
        List.Forall₂ (fun v w => resolve scope v = .ok w)
          (members.map (·.2)) (ws.map (·.2)) := by
  induction members generalizing ws with
  | nil => cases ws <;> simp [resolveMembers]
  | cons m rest ih =>
      rw [resolveMembers]
      cases ws with
      | nil => cases resolve scope m.2 <;> simp [mapped_eq_ok_iff]
      | cons n others =>
          simp only [List.map_cons, List.cons.injEq, List.forall₂_cons]
          rw [and_and_and_comm, ← ih]
          cases resolve scope m.2 with
          | error e => simp
          | ok w =>
              rw [mapped_eq_ok_iff]
              constructor
              · rintro ⟨ws, hws, heq⟩
                cases heq
                exact ⟨⟨rfl, rfl⟩, hws⟩
              · rintro ⟨⟨hname, hw⟩, hothers⟩
                cases hw
                exact ⟨others, hothers, congrArg (· :: others)
                  (Prod.ext hname rfl)⟩

/-- Items are filled when what each of them is resolved to is what it is
filled to. -/
theorem forall₂_resolve_iff {items ws : List Json}
    (ih : ∀ v ∈ items, ∀ w, resolve scope v = .ok w ↔ Filled scope v w) :
    List.Forall₂ (fun v w => resolve scope v = .ok w) items ws ↔
      List.Forall₂ (Filled scope) items ws := by
  induction items generalizing ws with
  | nil => simp
  | cons v rest ihrest =>
      obtain ⟨hv, hrest⟩ := List.forall_mem_cons.1 ih
      cases ws with
      | nil => simp
      | cons w others =>
          rw [List.forall₂_cons, List.forall₂_cons, hv w, ihrest hrest]

theorem filled_str_iff {s : String} {w : Json} :
    Filled scope (.str s) w ↔ FillsString scope s w := by
  constructor
  · intro h
    cases h with
    | str _ _ hfills => exact hfills
  · exact .str s w

theorem filled_arr_iff {items : List Json} {w : Json} :
    Filled scope (.arr items) w ↔
      ∃ filled, List.Forall₂ (Filled scope) items filled ∧ .arr filled = w := by
  constructor
  · intro h
    cases h with
    | arr _ filled hfilled => exact ⟨filled, hfilled, rfl⟩
  · rintro ⟨filled, hfilled, rfl⟩
    exact .arr items filled hfilled

theorem filled_obj_iff {members : List (String × Json)} {w : Json} :
    Filled scope (.obj members) w ↔
      ∃ filled : List (String × Json),
        members.map (·.1) = filled.map (·.1) ∧
        List.Forall₂ (Filled scope) (members.map (·.2)) (filled.map (·.2)) ∧
        .obj filled = w := by
  constructor
  · intro h
    cases h with
    | obj _ filled hnames hfilled => exact ⟨filled, hnames, hfilled, rfl⟩
  · rintro ⟨filled, hnames, hfilled, rfl⟩
    exact .obj members filled hnames hfilled

/-- A value is resolved to what it is filled to. -/
theorem resolve_eq_ok_iff {v w : Json} :
    resolve scope v = .ok w ↔ Filled scope v w := by
  induction v using Json.induct generalizing w with
  | null =>
      rw [resolve, Except.ok.injEq]
      constructor
      · rintro rfl
        exact .null
      · rintro ⟨⟩
        rfl
  | bool b =>
      rw [resolve, Except.ok.injEq]
      constructor
      · rintro rfl
        exact .bool b
      · rintro ⟨⟩
        rfl
  | num n =>
      rw [resolve, Except.ok.injEq]
      constructor
      · rintro rfl
        exact .num n
      · rintro ⟨⟩
        rfl
  | str s =>
      rw [resolve, resolveText_eq_ok_iff, filled_str_iff]
  | arr items ih =>
      rw [resolve, mapped_eq_ok_iff, filled_arr_iff]
      simp only [resolveItems_eq_ok_iff,
        forall₂_resolve_iff fun v hv w => ih v hv]
  | obj members ih =>
      have ihvalues : ∀ v ∈ members.map (·.2), ∀ w,
          resolve scope v = .ok w ↔ Filled scope v w := by
        intro v hv w
        obtain ⟨m, hm, rfl⟩ := List.mem_map.1 hv
        exact ih m hm
      rw [resolve, mapped_eq_ok_iff, filled_obj_iff]
      simp only [resolveMembers_eq_ok_iff, forall₂_resolve_iff ihvalues,
        and_assoc]

/-- The strings of a value that can be resolved can be resolved too. -/
theorem exists_resolveText_of_hasText {v w : Json} {text : String}
    (htext : v.HasText text) (h : Filled scope v w) :
    ∃ u, resolveText scope text = .ok u := by
  induction htext generalizing w with
  | self text =>
      exact ⟨w, resolveText_eq_ok_iff.2 (filled_str_iff.1 h)⟩
  | item hv _ ih =>
      obtain ⟨filled, hfilled, -⟩ := filled_arr_iff.1 h
      obtain ⟨u, hu⟩ := exists_of_mem_forall₂ hfilled hv
      exact ih hu
  | member hm _ ih =>
      obtain ⟨filled, -, hfilled, -⟩ := filled_obj_iff.1 h
      obtain ⟨u, hu⟩ := exists_of_mem_forall₂ hfilled (List.mem_map_of_mem hm)
      exact ih hu

theorem exists_of_resolveItems_error {items : List Json} {e : Error}
    (h : resolveItems scope items = .error e) :
    ∃ v ∈ items, resolve scope v = .error e := by
  induction items with
  | nil => cases h
  | cons v rest ih =>
      rw [resolveItems] at h
      split at h
      · rename_i hv
        cases h
        exact ⟨v, List.mem_cons_self, hv⟩
      · rw [mapped_eq_error_iff] at h
        obtain ⟨u, hu, herror⟩ := ih h
        exact ⟨u, List.mem_cons_of_mem v hu, herror⟩

theorem exists_of_resolveMembers_error {members : List (String × Json)}
    {e : Error} (h : resolveMembers scope members = .error e) :
    ∃ m ∈ members, resolve scope m.2 = .error e := by
  induction members with
  | nil => cases h
  | cons m rest ih =>
      rw [resolveMembers] at h
      split at h
      · rename_i hm
        cases h
        exact ⟨m, List.mem_cons_self, hm⟩
      · rw [mapped_eq_error_iff] at h
        obtain ⟨n, hn, herror⟩ := ih h
        exact ⟨n, List.mem_cons_of_mem m hn, herror⟩

/-- What is said about a value is said about one of its strings. -/
theorem exists_text_of_resolve_error {v : Json} {e : Error}
    (h : resolve scope v = .error e) :
    ∃ text, v.HasText text ∧ resolveText scope text = .error e := by
  induction v using Json.induct with
  | null => cases h
  | bool b => cases h
  | num n => cases h
  | str s => exact ⟨s, .self s, h⟩
  | arr items ih =>
      rw [resolve, mapped_eq_error_iff] at h
      obtain ⟨v, hv, herror⟩ := exists_of_resolveItems_error h
      obtain ⟨text, htext, hsaid⟩ := ih v hv herror
      exact ⟨text, .item hv htext, hsaid⟩
  | obj members ih =>
      rw [resolve, mapped_eq_error_iff] at h
      obtain ⟨m, hm, herror⟩ := exists_of_resolveMembers_error h
      obtain ⟨text, htext, hsaid⟩ := ih m hm herror
      exact ⟨text, .member hm htext, hsaid⟩

theorem references_str_of_referTo {P : Reference → Prop} {v : Json}
    {text : String} (h : ReferTo P (references v)) (htext : v.HasText text) :
    ReferTo P (references (.str text)) := by
  obtain ⟨refs, hrefs, hall⟩ := referTo_references_iff v |>.1 h text htext
  exact ⟨refs, references_str_eq_ok_iff.2 hrefs, hall⟩

/-- A value can be resolved exactly when its references have values. -/
theorem exists_resolve_iff {v : Json} :
    (∃ w, resolve scope v = .ok w) ↔
      ReferTo scope.HasValue (references v) := by
  constructor
  · rintro ⟨w, hw⟩
    rw [referTo_references_iff]
    intro text htext
    have hvalue := exists_resolveText_of_hasText htext
      (resolve_eq_ok_iff.1 hw)
    obtain ⟨refs, hrefs, hall⟩ := exists_resolveText_iff.1 hvalue
    exact ⟨refs, references_str_eq_ok_iff.1 hrefs, hall⟩
  · intro h
    cases hresolve : resolve scope v with
    | ok w => exact ⟨w, rfl⟩
    | error e =>
        obtain ⟨text, htext, herror⟩ := exists_text_of_resolve_error hresolve
        obtain ⟨u, hu⟩ :=
          exists_resolveText_iff.2 (references_str_of_referTo h htext)
        rw [herror] at hu
        cases hu

/-- Of a value whose references can be read nothing else can be said than
that one has no value. -/
theorem resolve_error {v : Json} {refs : List Reference} {e : Error}
    (hrefs : references v = .ok refs) (h : resolve scope v = .error e) :
    ∃ body, e = .unresolved body := by
  have hreads : ReferTo (fun _ => True) (references v) :=
    ⟨refs, hrefs, fun _ _ => trivial⟩
  obtain ⟨text, htext, herror⟩ := exists_text_of_resolve_error h
  obtain ⟨own, hown, -⟩ := references_str_of_referTo hreads htext
  exact resolveText_error hown herror

/-- A value without references is its own value. -/
theorem resolve_of_plain {v : Json}
    (h : ∀ text, v.HasText text → ¬opening <:+: text.toList) :
    resolve scope v = .ok v := by
  induction v using Json.induct with
  | null => rw [resolve]
  | bool b => rw [resolve]
  | num n => rw [resolve]
  | str s => exact resolveText_of_plain (h s (.self s))
  | arr items ih =>
      rw [resolve, mapped_eq_ok_iff]
      refine ⟨items, resolveItems_eq_ok_iff.2 ?_, rfl⟩
      rw [List.forall₂_same]
      intro v hv
      exact ih v hv fun text htext => h text (.item hv htext)
  | obj members ih =>
      rw [resolve, mapped_eq_ok_iff]
      refine ⟨members, resolveMembers_eq_ok_iff.2 ⟨rfl, ?_⟩, rfl⟩
      rw [List.forall₂_same]
      intro v hv
      obtain ⟨m, hm, rfl⟩ := List.mem_map.1 hv
      exact ih m hm fun text htext => h text (.member hm htext)

theorem exists_references_of_compile {d : WorkflowDocument}
    {known : Registry} {w : Workflow} (h : d.compile known = .ok w)
    {step : Step} (hstep : step ∈ w.steps) :
    ∃ refs, references step.args = .ok refs := by
  obtain ⟨specs, hpasses⟩ := WorkflowDocument.exists_passes_of_compile h
  have hall := Compile.forEach_eq_ok_iff.1 hpasses.templates_ok
  obtain ⟨refs, hrefs, -⟩ :=
    Compile.checkTemplates_eq_ok_iff.1 (hall step hstep)
  exact ⟨refs, hrefs⟩

/-- The references that are listed decide whether a value can be resolved: it
can exactly when they can be listed and each has a value in the scope, and of
the arguments of a compiled step nothing else can be said than that a
reference has none.  A value without references is its own value, and in any
other one only the references that stood in it are replaced, while what comes
in stays as it is. -/
theorem resolution_follows_references :
    (∀ (scope : Scope) (v : Json), (∃ w, resolve scope v = .ok w) ↔
        ∃ refs, references v = .ok refs ∧ ∀ r ∈ refs, scope.HasValue r) ∧
      (∀ (scope : Scope) (v : Json) (e : Error), references v = .error e →
        ∃ e', resolve scope v = .error e') ∧
      (∀ (d : WorkflowDocument) (known : Registry) (w : Workflow),
        d.compile known = .ok w → ∀ step ∈ w.steps,
          ∀ (scope : Scope) (e : Error),
            resolve scope step.args = .error e →
              ∃ body, e = .unresolved body) ∧
      (∀ (scope : Scope) (v : Json),
        (∀ text, v.HasText text → ¬opening <:+: text.toList) →
          resolve scope v = .ok v) ∧
      ∀ (scope : Scope) (v w : Json),
        resolve scope v = .ok w ↔ Filled scope v w := by
  refine ⟨fun scope v => exists_resolve_iff, ?_, ?_,
    fun scope v => resolve_of_plain, fun scope v w => resolve_eq_ok_iff⟩
  · intro scope v e he
    cases hresolve : resolve scope v with
    | error e' => exact ⟨e', rfl⟩
    | ok w =>
        obtain ⟨refs, hrefs, -⟩ := exists_resolve_iff.1 ⟨w, hresolve⟩
        rw [he] at hrefs
        cases hrefs
  · intro d known w hcompile step hstep scope e he
    obtain ⟨refs, hrefs⟩ := exists_references_of_compile hcompile hstep
    exact resolve_error hrefs he

/-- The title that the step `ask` brings looks like a reference. -/
def quotingScope : Scope :=
  ⟨KeyMap.ofList [("ask", .obj [("title", .str "$\x7bworld.mail\x7d")])],
    .obj [("mail", .str "ops")]⟩

/-- Arguments that bring the title into a text, and a part of the snapshot as
a whole. -/
def quotingArgs : Json :=
  .obj [("about", .str "re: $\x7bsteps.ask.title\x7d"),
    ("to", .str "$\x7bworld.mail\x7d")]

theorem quoted_title_stays :
    (∃ refs, references quotingArgs = .ok refs ∧
        ∀ r ∈ refs, quotingScope.HasValue r) ∧
      Filled quotingScope quotingArgs
        (.obj [("about", .str "re: $\x7bworld.mail\x7d"),
          ("to", .str "ops")]) ∧
      ∃ w, WorkflowDocument.askingDocument.compile mailRegistry = .ok w ∧
        ∃ step ∈ w.steps, ∃ body,
          resolve quotingScope step.args = .error (.unresolved body) := by
  obtain ⟨hiff, -, hcompiled, -, hfilled⟩ := resolution_follows_references
  have hresolve : resolve quotingScope quotingArgs =
      .ok (.obj [("about", .str "re: $\x7bworld.mail\x7d"),
        ("to", .str "ops")]) := by
    decide +kernel
  have hmissing :
      (WorkflowDocument.askingDocument.compile mailRegistry).toOption.any
        (fun w => w.steps.any fun step =>
          (resolve quotingScope step.args).toOption.isNone) = true := by
    decide +kernel
  obtain ⟨w, hw, hany⟩ := exists_ok_of_any hmissing
  obtain ⟨step, hstep, hnone⟩ := List.any_eq_true.1 hany
  refine ⟨(hiff _ _).1 ⟨_, hresolve⟩, (hfilled _ _ _).1 hresolve, w, hw,
    step, hstep, ?_⟩
  cases hargs : resolve quotingScope step.args with
  | ok v =>
      rw [hargs] at hnone
      cases hnone
  | error e =>
      obtain ⟨body, hbody⟩ := hcompiled _ _ w hw step hstep _ e hargs
      exact ⟨body, congrArg Except.error hbody⟩

end CallGate.Template
