import CallGate.Proofs.Operation.Growth
import CallGate.Proofs.Operation.Services

/-!
# Registries under any calls

A registry is changed in place by calls that may be refused, and a call that
registers several operations may be refused after some of them.  Whatever the
calls are, the controls stay as they were, every operation is known under its
own id, no other operation gets into their service, and the first call for an
id says what is known under it from then on.
-/

namespace CallGate

/-! ## Calls in place -/

/-- What is done with a registry that is changed in place.  When it fails, what
was done before stays done. -/
abbrev InPlace (α : Type) := ExceptT RegistryError (StateM Registry) α

namespace InPlace

variable {α β : Type}

/-- What it comes to, and the registry after it. -/
def on (call : InPlace α) (r : Registry) : Except RegistryError α × Registry :=
  StateT.run (ExceptT.run call) r

/-- Registers an operation that goes to the adapter of its service. -/
def register (id : OperationId) (risk : RiskClass) : InPlace Unit := do
  if id.service = ApprovalControl.service then
    throw (.reservedService id)
  if (← get).contains id then
    throw (.duplicate id)
  modify fun r => ⟨r.specs.insert id (.viaAdapter id risk)⟩

/-- Registers operations one after the other. -/
def registerAll (entries : List (OperationId × RiskClass)) : InPlace Unit :=
  entries.forM fun e => register e.1 e.2

theorem on_bind (first : InPlace α) (next : α → InPlace β) (r : Registry) :
    on (first >>= next) r =
      match on first r with
      | (.ok a, r') => on (next a) r'
      | (.error e, r') => (.error e, r') := by
  rw [on, on, ExceptT.run_bind, StateT.run_bind]
  rcases StateT.run (ExceptT.run first) r with ⟨e | a, r'⟩ <;> rfl

end InPlace

/-- The call that an action is. -/
def RegistryAction.call : RegistryAction → InPlace Unit
  | .register id risk => .register id risk
  | .registerAll entries => .registerAll entries

namespace Registry

variable {r r' : Registry} {id : OperationId} {risk : RiskClass}

/-- Registering in place gives the new registry, or leaves the old one. -/
theorem register_on (r : Registry) (id : OperationId) (risk : RiskClass) :
    (InPlace.register id risk).on r =
      match r.register id risk with
      | .ok next => (.ok (), next)
      | .error e => (.error e, r) := by
  rw [Registry.register, InPlace.register]
  by_cases hservice : id.service = ApprovalControl.service
  · rw [if_pos hservice, if_pos hservice]
    rfl
  · rw [if_neg hservice, if_neg hservice, InPlace.on_bind]
    change InPlace.on (if r.contains id = true then _ else _) r = _
    split <;> rfl

theorem registerAll_on (r : Registry)
    (entries : List (OperationId × RiskClass)) :
    (InPlace.registerAll entries).on r =
      ((r.registerAll entries).map fun _ => (), r.registerUpTo entries) := by
  induction entries generalizing r with
  | nil => rfl
  | cons e rest ih =>
      have hcons : InPlace.registerAll (e :: rest) =
          InPlace.register e.1 e.2 >>= fun _ => InPlace.registerAll rest := rfl
      rw [hcons, InPlace.on_bind, register_on, Registry.registerAll,
        List.foldlM_cons, registerUpTo]
      cases r.register e.1 e.2 with
      | error error => rfl
      | ok next => exact ih next

theorem call_on (r : Registry) (action : RegistryAction) :
    (action.call.on r).2 = r.act action := by
  cases action with
  | register id risk =>
      rw [RegistryAction.call, register_on, act_register]
      cases r.register id risk <;> rfl
  | registerAll entries =>
      rw [RegistryAction.call, registerAll_on]
      rfl

/-- The registry after some calls, each of which may have failed. -/
def afterCalls (actions : List RegistryAction) : Registry :=
  actions.foldl (fun r action => (action.call.on r).2) controls

theorem afterCalls_eq_run (actions : List RegistryAction) :
    afterCalls actions = controls.run actions := by
  rw [afterCalls, run]
  congr 1
  funext r action
  exact call_on r action

/-! ## The first call for an id -/

/-- The operations that are tried when several are registered: they go up to
the first that is refused. -/
def tried : Registry → List (OperationId × RiskClass) →
    List (OperationId × RiskClass)
  | _, [] => []
  | r, e :: rest =>
    match r.register e.1 e.2 with
    | .ok next => e :: next.tried rest
    | .error _ => [e]

/-- The operations that are tried by some actions. -/
def triedBy : Registry → List RegistryAction → List (OperationId × RiskClass)
  | _, [] => []
  | r, action :: rest => r.tried action.offered ++ (r.act action).triedBy rest

/-- The first operation with an id among those that are tried, as it is
known from then on. -/
def firstTried (id : OperationId) (tried : List (OperationId × RiskClass)) :
    Option OperationSpec :=
  (tried.find? fun e => e.1 = id).map fun e => .viaAdapter id e.2

theorem firstTried_append (id : OperationId)
    (before after : List (OperationId × RiskClass)) :
    firstTried id (before ++ after) =
      (firstTried id before).or (firstTried id after) := by
  rw [firstTried, List.find?_append, Option.map_or]
  rfl

theorem firstTried_of_ne {e : OperationId × RiskClass} (h : e.1 ≠ id) :
    firstTried id [e] = none := by
  rw [firstTried, List.find?_cons_of_neg (by simpa using h)]
  rfl

theorem firstTried_self (id : OperationId) (risk : RiskClass) :
    firstTried id [(id, risk)] = some (.viaAdapter id risk) := by
  rw [firstTried, List.find?_cons_of_pos (by simp)]
  rfl

theorem get?_of_register (h : r.register id risk = .ok r')
    (other : OperationId) :
    r'.get? other = (r.get? other).or (firstTried other [(id, risk)]) := by
  obtain ⟨-, hnew, rfl⟩ := register_eq_ok h
  rw [get?]
  by_cases hid : id = other
  · subst hid
    rw [contains_eq_isSome, Option.isSome_eq_false_iff,
      Option.isNone_iff_eq_none]
      at hnew
    rw [KeyMap.get?_insert_self, hnew, firstTried_self, Option.none_or]
  · rw [KeyMap.get?_insert_of_ne _ (Ne.symm hid), firstTried_of_ne hid,
      Option.or_none]
    rfl

/-- An operation of another service than the reserved one is refused only if
something is known under its id. -/
theorem get?_of_refused {e : RegistryError}
    (h : r.register id risk = .error e) {other : OperationId}
    (hservice : other.service ≠ ApprovalControl.service) :
    r.get? other = (r.get? other).or (firstTried other [(id, risk)]) := by
  by_cases hid : id = other
  · subst hid
    have hknown : (r.get? id).isSome = true := by
      rw [← contains_eq_isSome, ← Bool.not_eq_false]
      intro hnew
      obtain ⟨next, hnext⟩ :=
        (@exists_register_iff r id risk).2 ⟨hservice, hnew⟩
      rw [h] at hnext
      cases hnext
    rw [Option.or_of_isSome hknown]
  · rw [firstTried_of_ne hid, Option.or_none]

/-- What is known after operations were registered was known before, or is the
first that was tried. -/
theorem get?_registerUpTo (hservice : id.service ≠ ApprovalControl.service)
    (r : Registry) (entries : List (OperationId × RiskClass)) :
    (r.registerUpTo entries).get? id =
      (r.get? id).or (firstTried id (r.tried entries)) := by
  induction entries generalizing r with
  | nil => exact Option.or_none.symm
  | cons e rest ih =>
      rw [registerUpTo, tried]
      cases hnext : r.register e.1 e.2 with
      | error error => exact get?_of_refused hnext hservice
      | ok next =>
          have htried := firstTried_append id [e] (next.tried rest)
          rw [List.singleton_append] at htried
          dsimp only
          rw [ih next, get?_of_register hnext, htried, Option.or_assoc]

theorem get?_run (hservice : id.service ≠ ApprovalControl.service)
    (r : Registry) (actions : List RegistryAction) :
    (r.run actions).get? id =
      (r.get? id).or (firstTried id (r.triedBy actions)) := by
  induction actions generalizing r with
  | nil => exact Option.or_none.symm
  | cons action rest ih =>
      have hrest := ih (r.act action)
      rw [act, get?_registerUpTo hservice, Option.or_assoc] at hrest
      rw [triedBy, firstTried_append]
      exact hrest

/-! ## Integrity -/

/-- What holds of the registry after some calls. -/
structure Intact (actions : List RegistryAction) : Prop where
  own_id : ∀ id spec, (afterCalls actions).get? id = some spec → spec.id = id
  controls : ∀ c : ApprovalControl,
    (afterCalls actions).get? c.id = some ⟨c.id, .read, .control c⟩
  unreserved : ∀ id spec, (afterCalls actions).get? id = some spec →
    spec.route = .adapter → id.service ≠ ApprovalControl.service
  refused : ∀ id risk e r',
    (InPlace.register id risk).on (afterCalls actions) = (.error e, r') →
      r' = afterCalls actions
  first : ∀ id, id.service ≠ ApprovalControl.service →
    (afterCalls actions).get? id =
      firstTried id (Registry.controls.triedBy actions)
  lasting : ∀ later id spec, (afterCalls actions).get? id = some spec →
    (afterCalls (actions ++ later)).get? id = some spec
  services_iff : ∀ name, name ∈ (afterCalls actions).services ↔
    ∃ id spec, (afterCalls actions).get? id = some spec ∧
      spec.route = .adapter ∧ id.service = name
  services_nodup : (afterCalls actions).services.Nodup
  services_ascending :
    ((afterCalls actions).services.map Text.bytes).Pairwise (· < ·)

theorem built_afterCalls (actions : List RegistryAction) :
    (afterCalls actions).Built := by
  rw [afterCalls_eq_run]
  exact Built.controls.run actions

/-- Whatever is called, the registry stays as it should be: each operation is
known under its own id and as it was first registered, the controls are the
operations of their service, and the services with other operations are listed
once each, in the order of their bytes. -/
theorem intact_after_any_calls (actions : List RegistryAction) :
    Intact actions := by
  have hbuilt := built_afterCalls actions
  constructor
  · exact fun id spec hget => (hbuilt.fits hget).id_eq
  · exact hbuilt.get?_control
  · intro id spec hget hroute
    rcases hbuilt.fits hget with ⟨hservice, -⟩ | ⟨c, -, rfl⟩
    · exact hservice
    · cases hroute
  · intro id risk e r' h
    rw [register_on] at h
    cases hregister : (afterCalls actions).register id risk with
    | error e' =>
        rw [hregister] at h
        exact (congrArg Prod.snd h).symm
    | ok next =>
        rw [hregister] at h
        cases h
  · intro id hservice
    have hunknown : Registry.controls.get? id = none := by
      rw [Option.eq_none_iff_forall_ne_some]
      intro spec hget
      obtain ⟨c, rfl, -⟩ := controls_get?_eq_some hget
      exact hservice rfl
    rw [afterCalls_eq_run, get?_run hservice, hunknown, Option.none_or]
  · intro later id spec hget
    rw [afterCalls_eq_run] at *
    rw [run, List.foldl_append]
    exact extends_run _ later id spec hget
  · exact fun name => hbuilt.mem_services_iff
  · exact hbuilt.services_lt.imp ne_of_lt
  · exact List.pairwise_map.2 (hbuilt.services_lt.imp Text.bytes_lt_of_lt)

end Registry

end CallGate
