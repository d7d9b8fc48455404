import CallGate.Proofs.Operation.Registry

/-!
# How a registry grows

A registry starts with the controls, and operations are registered one by one
or several at a time.  Several go in one after the other, and those before the
first that is refused stay.  Whatever is offered, the registry is a built one,
and what it has beside the controls was offered to it.
-/

namespace CallGate

/-- What is done with a registry. -/
inductive RegistryAction where
  | register (id : OperationId) (risk : RiskClass)
  | registerAll (entries : List (OperationId × RiskClass))

/-- The operations that an action offers. -/
def RegistryAction.offered : RegistryAction → List (OperationId × RiskClass)
  | .register id risk => [(id, risk)]
  | .registerAll entries => entries

namespace Registry

variable {r r' : Registry} {id : OperationId} {risk : RiskClass}
  {entries : List (OperationId × RiskClass)}

/-- Registers operations one after the other and leaves it at those before the
first that is refused. -/
def registerUpTo : Registry → List (OperationId × RiskClass) → Registry
  | r, [] => r
  | r, e :: rest =>
    match r.register e.1 e.2 with
    | .ok next => next.registerUpTo rest
    | .error _ => r

/-- The registry after an action, be it refused. -/
def act (r : Registry) (action : RegistryAction) : Registry :=
  r.registerUpTo action.offered

/-- The registry after some actions. -/
def run (r : Registry) (actions : List RegistryAction) : Registry :=
  actions.foldl act r

/-- Registering one operation adds it or changes nothing. -/
theorem act_register (r : Registry) (id : OperationId) (risk : RiskClass) :
    r.act (.register id risk) = (r.register id risk).toOption.getD r := by
  rw [act, RegistryAction.offered, registerUpTo]
  cases r.register id risk <;> rfl

theorem Built.registerUpTo (h : r.Built)
    (entries : List (OperationId × RiskClass)) :
    (r.registerUpTo entries).Built := by
  induction entries generalizing r with
  | nil => exact h
  | cons e rest ih =>
      rw [Registry.registerUpTo]
      cases hnext : r.register e.1 e.2 with
      | error error => exact h
      | ok next => exact ih (.register h hnext)

theorem Built.run (h : r.Built) (actions : List RegistryAction) :
    (r.run actions).Built := by
  induction actions generalizing r with
  | nil => exact h
  | cons action rest ih => exact ih (h.registerUpTo action.offered)

/-- An operation is taken up exactly when its service is not reserved and its
id is a new one. -/
theorem exists_register_iff :
    (∃ r', r.register id risk = .ok r') ↔
      id.service ≠ ApprovalControl.service ∧ r.contains id = false := by
  rw [register]
  by_cases hservice : id.service = ApprovalControl.service
  · simp [hservice]
  · cases hcontains : r.contains id <;> simp [hservice]

theorem contains_eq_isSome (r : Registry) (id : OperationId) :
    r.contains id = (r.get? id).isSome :=
  KeyMap.contains_eq_isSome r.specs id

/-- After an operation was taken up, it is there beside those before. -/
theorem contains_of_register (h : r.register id risk = .ok r')
    (other : OperationId) :
    r'.contains other = true ↔ other = id ∨ r.contains other = true := by
  obtain ⟨-, -, rfl⟩ := register_eq_ok h
  rw [contains_eq_isSome, contains_eq_isSome, get?, get?]
  by_cases hid : other = id
  · subst hid
    simp [KeyMap.get?_insert_self]
  · rw [KeyMap.get?_insert_of_ne _ hid]
    simp [hid]

/-- What is known in the first registry is known in the second. -/
def Extends (r r' : Registry) : Prop :=
  ∀ id spec, r.get? id = some spec → r'.get? id = some spec

theorem Extends.refl (r : Registry) : Extends r r := fun _ _ h => h

theorem Extends.trans {r'' : Registry} (h : Extends r r')
    (h' : Extends r' r'') : Extends r r'' :=
  fun id spec hget => h' id spec (h id spec hget)

theorem Extends.contains (h : Extends r r') (hid : r.contains id = true) :
    r'.contains id = true := by
  rw [contains_eq_isSome, Option.isSome_iff_exists] at *
  exact hid.imp (h id)

theorem extends_register (h : r.register id risk = .ok r') :
    Extends r r' := by
  obtain ⟨-, hnew, rfl⟩ := register_eq_ok h
  intro other spec hget
  have hne : other ≠ id := by
    rintro rfl
    rw [contains_eq_isSome, hget] at hnew
    cases hnew
  rw [get?, KeyMap.get?_insert_of_ne _ hne]
  exact hget

theorem extends_registerUpTo (r : Registry)
    (entries : List (OperationId × RiskClass)) :
    Extends r (r.registerUpTo entries) := by
  induction entries generalizing r with
  | nil => exact .refl r
  | cons e rest ih =>
      rw [registerUpTo]
      cases hnext : r.register e.1 e.2 with
      | error error => exact .refl r
      | ok next => exact (extends_register hnext).trans (ih next)

/-- Nothing that is known is forgotten or altered by what is done later. -/
theorem extends_run (r : Registry) (actions : List RegistryAction) :
    Extends r (r.run actions) := by
  induction actions generalizing r with
  | nil => exact .refl r
  | cons action rest ih =>
      exact (extends_registerUpTo r action.offered).trans (ih _)

theorem offered_of_contains_registerUpTo
    (h : (r.registerUpTo entries).contains id = true) :
    r.contains id = true ∨ id ∈ entries.map (·.1) := by
  induction entries generalizing r with
  | nil => exact Or.inl h
  | cons e rest ih =>
      rw [registerUpTo] at h
      cases hnext : r.register e.1 e.2 with
      | error error =>
          rw [hnext] at h
          exact Or.inl h
      | ok next =>
          rw [hnext] at h
          rcases ih h with hthere | hoffered
          · rcases (contains_of_register hnext id).1 hthere with rfl | hbefore
            · exact Or.inr List.mem_cons_self
            · exact Or.inl hbefore
          · exact Or.inr (List.mem_cons_of_mem _ hoffered)

/-- What is there in the end was there at first or was offered. -/
theorem offered_of_contains_run {actions : List RegistryAction}
    (h : (r.run actions).contains id = true) :
    r.contains id = true ∨
      id ∈ (actions.flatMap RegistryAction.offered).map (·.1) := by
  induction actions generalizing r with
  | nil => exact Or.inl h
  | cons action rest ih =>
      rw [List.flatMap_cons, List.map_append, List.mem_append]
      rcases ih h with hthere | hoffered
      · exact (offered_of_contains_registerUpTo hthere).imp_right Or.inl
      · exact Or.inr (Or.inr hoffered)

/-- An operation that is offered on its own is there in the end, unless its
service is reserved.  How its id looks does not matter. -/
theorem contains_run_of_register {actions : List RegistryAction}
    (h : .register id risk ∈ actions)
    (hservice : id.service ≠ ApprovalControl.service) :
    (r.run actions).contains id = true := by
  induction actions generalizing r with
  | nil => cases h
  | cons action rest ih =>
      rcases List.mem_cons.1 h with rfl | hrest
      · refine (extends_run _ rest).contains ?_
        rw [act_register]
        cases hcontains : r.contains id with
        | true =>
            rw [register, if_neg hservice, hcontains]
            exact hcontains
        | false =>
            obtain ⟨next, hnext⟩ :=
              exists_register_iff.2 ⟨hservice, hcontains⟩
            rw [hnext]
            exact (contains_of_register hnext id).2 (Or.inl rfl)
      · exact ih hrest

theorem contains_controls_iff :
    controls.contains id = true ↔ ∃ c : ApprovalControl, id = c.id := by
  rw [contains_eq_isSome, Option.isSome_iff_exists]
  constructor
  · rintro ⟨spec, hspec⟩
    obtain ⟨c, hid, -⟩ := controls_get?_eq_some hspec
    exact ⟨c, hid⟩
  · rintro ⟨c, rfl⟩
    exact ⟨_, controls_get?_control c⟩

end Registry

end CallGate
