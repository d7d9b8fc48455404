import CallGate.Proofs.Approval.Share

/-!
# Who asked

An approval carries the fingerprint of the request that asked for it.  Nothing
that a queue says or does depends on it: a queue without the fingerprints
answers all questions as before, and changes in the same way.
-/

namespace CallGate

/-- Results of which a map makes the same are the same failure, or there are
two values of which it makes the same. -/
theorem cases_of_map_eq {ε α β : Type} {f : α → β} {x y : Except ε α}
    (h : x.map f = y.map f) :
    (∃ e, x = .error e ∧ y = .error e) ∨
      ∃ a b, x = .ok a ∧ y = .ok b ∧ f a = f b := by
  cases x with
  | error e =>
      cases y with
      | error e' =>
          cases h
          exact Or.inl ⟨e, rfl, rfl⟩
      | ok b => cases h
  | ok a =>
      cases y with
      | error e => cases h
      | ok b => exact Or.inr ⟨a, b, rfl, rfl, Except.ok.inj h⟩

namespace Approval

/-- The approval without the request that it came from. -/
def unasked (a : Approval) : Approval := { a with requestedBy := "" }

namespace Queue

variable {q q' : Queue} {operation : OperationId} {digest : String}
  {target : Target} {resolution : Resolution} {fingerprint : String} {n : Nat}
  {p : Approval → Bool}

/-- The queue without the requests that its approvals came from. -/
def unasked (q : Queue) : Queue :=
  { q with entries := q.entries.map Approval.unasked }

/-! ## What the queue says -/

theorem filter_unasked (hp : ∀ a, p (Approval.unasked a) = p a) :
    q.unasked.entries.filter p = (q.entries.filter p).map Approval.unasked := by
  have hcomp : p ∘ Approval.unasked = p := funext hp
  rw [unasked, List.filter_map, hcomp]

theorem find?_unasked (hp : ∀ a, p (Approval.unasked a) = p a) :
    q.unasked.entries.find? p = (q.entries.find? p).map Approval.unasked := by
  rw [← List.head?_filter, ← List.head?_filter, filter_unasked hp,
    List.head?_map]

theorem unresolvedFor?_unasked :
    q.unasked.unresolvedFor? operation digest =
      (q.unresolvedFor? operation digest).map Approval.unasked :=
  find?_unasked fun _ => rfl

theorem openFor?_unasked :
    q.unasked.openFor? target = (q.openFor? target).map Approval.unasked :=
  find?_unasked fun _ => rfl

theorem latestFor?_unasked :
    q.unasked.latestFor? target =
      (q.latestFor? target).map Approval.unasked := by
  rw [latestFor?, latestFor?, unasked, ← List.map_reverse, List.find?_map]
  rfl

theorem latestResolution?_unasked :
    q.unasked.latestResolution? operation digest =
      q.latestResolution? operation digest := by
  have hfold := foldl_later_map (f := Approval.unasked) (fun _ => rfl)
    (q.entries.filter fun a => a.resolution.isTerminal &&
      a.target.covers operation digest q.matching) none
  rw [Option.map_none] at hfold
  have hresolved : q.unasked.lastResolved? operation digest =
      (q.lastResolved? operation digest).map Approval.unasked := by
    rw [lastResolved?, lastResolved?, filter_unasked (fun _ => rfl)]
    exact hfold
  rw [latestResolution?, latestResolution?, hresolved, Option.map_map]
  rfl

theorem standing_unasked :
    q.unasked.standing operation digest = q.standing operation digest :=
  standing_of_map latestResolution?_unasked unresolvedFor?_unasked

theorem nextId_unasked : q.unasked.nextId = q.nextId := by
  rw [nextId, nextId, unasked, List.length_map]

/-! ## How the queue changes -/

theorem unasked_enqueue :
    (q.enqueue target fingerprint n).unasked =
      q.unasked.enqueue target "" n := by
  rw [enqueue, enqueue, nextId_unasked, unasked, List.map_append]
  rfl

theorem unasked_resolveWhere (hp : ∀ a, p (Approval.unasked a) = p a) :
    (q.resolveWhere p resolution n).unasked =
      q.unasked.resolveWhere p resolution n := by
  rw [unasked, resolveWhere, resolveWhere, unasked, List.map_map, List.map_map]
  congr 1
  refine List.map_congr_left fun a _ => ?_
  rw [Function.comp_apply, Function.comp_apply, hp]
  split <;> rfl

theorem decide_unasked :
    q.unasked.decide target resolution n =
      (q.decide target resolution n).map fun (decided, after) =>
        (decided.map Approval.unasked, after.unasked) := by
  rw [Queue.decide, Queue.decide]
  split
  · rfl
  · have hfilter : q.unasked.entries.filter (q.unasked.isOpenFor target) =
        (q.entries.filter (q.isOpenFor target)).map Approval.unasked :=
      filter_unasked fun _ => rfl
    have hafter : (q.resolveWhere (q.isOpenFor target) resolution n).unasked =
        q.unasked.resolveWhere (q.unasked.isOpenFor target) resolution n :=
      unasked_resolveWhere fun _ => rfl
    rw [hfilter, ← hafter]
    cases q.entries.filter (q.isOpenFor target) with
    | nil => rfl
    | cons a rest =>
        simp only [List.map_cons, Except.map, List.map_map]
        rfl

/-! ## Queues that differ in who asked -/

theorem nextId_eq_of_unasked (h : q'.unasked = q.unasked) :
    q'.nextId = q.nextId := by
  rw [← nextId_unasked, h, nextId_unasked]

theorem unasked_enqueue_of_unasked (h : q'.unasked = q.unasked)
    (target : Target) (fingerprint fingerprint' : String) (n : Nat) :
    (q'.enqueue target fingerprint' n).unasked =
      (q.enqueue target fingerprint n).unasked := by
  rw [unasked_enqueue, unasked_enqueue, h]

theorem unresolvedFor?_id (h : q'.unasked = q.unasked)
    (operation : OperationId) (digest : String) :
    (q'.unresolvedFor? operation digest).map (·.id) =
      (q.unresolvedFor? operation digest).map (·.id) := by
  have hwaits := congrArg
    (fun q => (q.unresolvedFor? operation digest).map (·.id)) h
  rw [unresolvedFor?_unasked, unresolvedFor?_unasked, Option.map_map,
    Option.map_map] at hwaits
  exact hwaits

theorem openFor?_id (h : q'.unasked = q.unasked) (target : Target) :
    (q'.openFor? target).map (·.id) = (q.openFor? target).map (·.id) := by
  have hopen := congrArg (fun q => (q.openFor? target).map (·.id)) h
  rw [openFor?_unasked, openFor?_unasked, Option.map_map, Option.map_map]
    at hopen
  exact hopen

theorem latestFor?_shown (h : q'.unasked = q.unasked) (target : Target) :
    (q'.latestFor? target).map (fun a => (a.id, a.resolution)) =
      (q.latestFor? target).map fun a => (a.id, a.resolution) := by
  have hlatest := congrArg
    (fun q => (q.latestFor? target).map fun a => (a.id, a.resolution)) h
  rw [latestFor?_unasked, latestFor?_unasked, Option.map_map, Option.map_map]
    at hlatest
  exact hlatest

/-- They take the same decisions. -/
theorem decide_of_unasked (h : q'.unasked = q.unasked) (target : Target)
    (resolution : Resolution) (n : Nat) :
    (∃ e, q.decide target resolution n = .error e ∧
        q'.decide target resolution n = .error e) ∨
      ∃ decided decided' after after',
        q.decide target resolution n = .ok (decided, after) ∧
        q'.decide target resolution n = .ok (decided', after') ∧
        decided'.map (·.id) = decided.map (·.id) ∧
        after'.unasked = after.unasked := by
  have hdecide := congrArg (fun q => q.decide target resolution n) h
  simp only [decide_unasked] at hdecide
  rcases cases_of_map_eq hdecide with
    ⟨e, hq', hq⟩ | ⟨⟨decided', after'⟩, ⟨decided, after⟩, hq', hq, hsame⟩
  · exact Or.inl ⟨e, hq, hq'⟩
  · obtain ⟨hdecided, hafter⟩ := Prod.mk.inj hsame
    have hids := congrArg (List.map Approval.id) hdecided
    rw [List.map_map, List.map_map] at hids
    exact Or.inr ⟨decided, decided', after, after', hq, hq', hids, hafter⟩

end Queue

end Approval

namespace Policy

/-- The decision about a call does not depend on who asked for approvals. -/
theorem decide_unasked {p : Policy} {operation : OperationId}
    {risk : RiskClass} {digest : String} {q : Approval.Queue} :
    p.decide operation risk digest q.unasked =
      p.decide operation risk digest q := by
  rcases p.decide_cases operation risk digest with ⟨d, -, hd⟩ | hq
  · rw [hd, hd]
  · rw [hq, hq, Approval.Queue.standing_unasked]

end Policy

end CallGate
