import CallGate.Call.Request
import CallGate.Redaction.Value
import Mathlib.Data.List.Forall2

/-!
# Values that differ in secrets

What stands under a name that speaks of a secret is masked: of it nothing is
left but that it is not null.  Values with the same mask are those that differ
in secrets at most, and redacting cannot tell them apart.
-/

namespace CallGate.Redaction

mutual

/-- The value with a mark in place of all that stands under the name of a
secret and is not null. -/
def mask : Json → Json
  | .null => .null
  | .bool b => .bool b
  | .num n => .num n
  | .str s => .str s
  | .arr items => .arr (maskItems items)
  | .obj members => .obj (maskMembers members)
termination_by structural v => v

/-- The masked items. -/
def maskItems : List Json → List Json
  | [] => []
  | v :: rest => mask v :: maskItems rest
termination_by structural v => v

/-- The masked members. -/
def maskMembers : List (String × Json) → List (String × Json)
  | [] => []
  | (name, v) :: rest =>
    (name,
        if isSecretName name && !v.isNull then .str secretMark else mask v) ::
      maskMembers rest
termination_by structural v => v

end

/-- The values differ at most in what is not null and stands under names of
secrets. -/
def SameButSecrets (v w : Json) : Prop := mask v = mask w

instance (v w : Json) : Decidable (SameButSecrets v w) :=
  inferInstanceAs (Decidable (_ = _))

theorem SameButSecrets.refl (v : Json) : SameButSecrets v v := rfl

variable {v w : Json} {items others : List Json}
  {members members' : List (String × Json)} {name : String}

/-! ## What masking leaves -/

theorem maskItems_eq_map (items : List Json) :
    maskItems items = items.map mask := by
  induction items with
  | nil => rfl
  | cons v rest ih => rw [maskItems, ih, List.map_cons]

theorem isNull_mask (v : Json) : (mask v).isNull = v.isNull := by
  cases v <;> rfl

theorem text?_mask (v : Json) : (mask v).text? = v.text? := by
  cases v <;> rfl

/-- A member whose name does not speak of a secret is masked inside. -/
theorem member?_maskMembers (hname : isSecretName name = false)
    (members : List (String × Json)) :
    Json.member? name (maskMembers members) =
      (Json.member? name members).map mask := by
  induction members with
  | nil => rfl
  | cons m rest ih =>
      obtain ⟨first, v⟩ := m
      rw [maskMembers, Json.member?, Json.member?]
      by_cases hfirst : first = name
      · subst hfirst
        rw [List.find?_cons_of_pos (by simp), List.find?_cons_of_pos (by simp),
          hname]
        rfl
      · rw [List.find?_cons_of_neg (by simpa using hfirst),
          List.find?_cons_of_neg (by simpa using hfirst)]
        exact ih

theorem text?_member?_maskMembers (hname : isSecretName name = false)
    (members : List (String × Json)) :
    (Json.member? name (maskMembers members)).bind Json.text? =
      (Json.member? name members).bind Json.text? := by
  rw [member?_maskMembers hname]
  cases Json.member? name members with
  | none => rfl
  | some v => exact text?_mask v

/-- Arguments are masked as the value is that they are given by. -/
theorem ofValue_mask (operation : OperationId) (v : Json) :
    Arguments.ofValue operation (mask v) =
      (Arguments.ofValue operation v).map maskMembers := by
  cases v <;> rfl

mutual

/-- Redacting does not look at what is masked. -/
theorem redact_mask (v : Json) : redact (mask v) = redact v :=
  match v with
  | .null => rfl
  | .bool _ => rfl
  | .num _ => rfl
  | .str _ => rfl
  | .arr items => congrArg Json.arr (redactItems_maskItems items)
  | .obj members => congrArg Json.obj (redactMembers_maskMembers members)
termination_by structural v

theorem redactItems_maskItems (items : List Json) :
    redactItems (maskItems items) = redactItems items :=
  match items with
  | [] => rfl
  | v :: rest => by
      rw [maskItems, redactItems, redactItems, redact_mask v,
        redactItems_maskItems rest]
termination_by structural items

theorem redactMembers_maskMembers (members : List (String × Json)) :
    redactMembers (maskMembers members) = redactMembers members :=
  match members with
  | [] => rfl
  | (name, v) :: rest => by
      rw [maskMembers, redactMembers, redactMembers,
        redactMembers_maskMembers rest]
      by_cases hsecret : (isSecretName name && !v.isNull) = true
      · have hname : isSecretName name = true :=
          (Bool.and_eq_true_iff.1 hsecret).1
        rw [if_pos hsecret, if_pos hsecret, hname]
        rfl
      · rw [if_neg hsecret, if_neg hsecret, isNull_mask, if_neg hsecret,
          redact_mask v]
termination_by structural members

end

/-- Values that differ in secrets at most are redacted to the same. -/
theorem SameButSecrets.redact_eq (h : SameButSecrets v w) :
    redact v = redact w := by
  rw [← redact_mask v, h, redact_mask]

/-! ## What differing in secrets is -/

/-- Members of the same name with values that differ in secrets at most, or
with any that are not null if the name speaks of a secret. -/
def SameMember (m n : String × Json) : Prop :=
  m.1 = n.1 ∧ (SameButSecrets m.2 n.2 ∨
    isSecretName m.1 = true ∧ m.2 ≠ .null ∧ n.2 ≠ .null)

theorem sameButSecrets_arr_iff :
    SameButSecrets (.arr items) (.arr others) ↔
      List.Forall₂ SameButSecrets items others := by
  rw [SameButSecrets, mask, mask, Json.arr.injEq, maskItems_eq_map,
    maskItems_eq_map, ← List.forall₂_eq_eq_eq, List.forall₂_map_left_iff,
    List.forall₂_map_right_iff]
  rfl

theorem mask_eq_null_iff : mask v = .null ↔ v = .null := by
  cases v <;> simp [mask]

/-- What is left of a member. -/
def maskMember (m : String × Json) : String × Json :=
  (m.1, if isSecretName m.1 && !m.2.isNull then .str secretMark else mask m.2)

theorem maskMembers_eq_map (members : List (String × Json)) :
    maskMembers members = members.map maskMember := by
  induction members with
  | nil => rfl
  | cons m rest ih =>
      obtain ⟨name, v⟩ := m
      rw [maskMembers, ih, List.map_cons]
      rfl

theorem maskMember_eq_iff {m n : String × Json} :
    maskMember m = maskMember n ↔ SameMember m n := by
  obtain ⟨name, v⟩ := m
  obtain ⟨name', w⟩ := n
  rw [maskMember, maskMember, SameMember, Prod.mk.injEq]
  refine and_congr_right fun hname => ?_
  dsimp only at hname
  subst hname
  cases hsecret : isSecretName name with
  | false => simp [SameButSecrets]
  | true =>
      have hleft (v : Json) :
          (if true && !v.isNull then .str secretMark else mask v) =
            if v = .null then Json.null else .str secretMark := by
        cases v <;> rfl
      rw [hleft, hleft, SameButSecrets]
      by_cases hv : v = .null
      · subst hv
        have hmask : mask .null = mask w ↔ w = .null := by
          rw [eq_comm, ← mask_eq_null_iff (v := w)]
          rfl
        by_cases hw : w = .null <;> simp [hw, hmask]
      · by_cases hw : w = .null <;> simp [hv, hw, mask, mask_eq_null_iff]

theorem sameButSecrets_obj_iff :
    SameButSecrets (.obj members) (.obj members') ↔
      List.Forall₂ SameMember members members' := by
  rw [SameButSecrets, mask, mask, Json.obj.injEq, maskMembers_eq_map,
    maskMembers_eq_map, ← List.forall₂_eq_eq_eq, List.forall₂_map_left_iff,
    List.forall₂_map_right_iff]
  simp only [maskMember_eq_iff]

end CallGate.Redaction
