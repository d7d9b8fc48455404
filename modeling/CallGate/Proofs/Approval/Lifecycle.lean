import CallGate.Proofs.Approval.Entries

/-!
# The life of an approval

A queue may be used in ways in which no session uses it: an approval may be
asked for while another one for the same calls waits, and decisions may be
numbered as they like.  Whatever is done, every approval is found under the id
of its place, and on the way to a later queue it stays in its place and is
resolved at most once.
-/

namespace CallGate.Approval

/-- What can be done to a queue. -/
inductive QueueAction where
  | enqueue (target : Target) (requestedBy : String) (requestedAt : Nat)
  | decide (target : Target) (resolution : Resolution) (sequence : Nat)
  | expireAll (sequence : Nat)
  deriving DecidableEq, Inhabited

/-- What an approval may have become later: it is what it was asked for, and
nothing else about it changed either, unless it waited and is resolved now. -/
structure Becomes (a b : Approval) : Prop where
  id_eq : b.id = a.id
  target_eq : b.target = a.target
  requestedBy_eq : b.requestedBy = a.requestedBy
  requestedAt_eq : b.requestedAt = a.requestedAt
  same_or_resolved :
    b = a ∨ a.resolution = .unresolved ∧ b.resolution ≠ .unresolved

variable {a b c : Approval}

theorem Becomes.refl (a : Approval) : a.Becomes a :=
  ⟨rfl, rfl, rfl, rfl, Or.inl rfl⟩

theorem Becomes.trans (h : a.Becomes b) (h' : b.Becomes c) :
    a.Becomes c where
  id_eq := h'.id_eq.trans h.id_eq
  target_eq := h'.target_eq.trans h.target_eq
  requestedBy_eq := h'.requestedBy_eq.trans h.requestedBy_eq
  requestedAt_eq := h'.requestedAt_eq.trans h.requestedAt_eq
  same_or_resolved := by
    rcases h.same_or_resolved with rfl | ⟨hwaiting, hresolved⟩
    · exact h'.same_or_resolved
    · rcases h'.same_or_resolved with rfl | ⟨hagain, -⟩
      · exact Or.inr ⟨hwaiting, hresolved⟩
      · exact absurd hagain hresolved

theorem becomes_resolve {resolution : Resolution}
    (hwaiting : a.resolution = .unresolved)
    (hresolution : resolution ≠ .unresolved) (n : Nat) :
    a.Becomes (a.resolve resolution n) :=
  ⟨rfl, rfl, rfl, rfl, Or.inr ⟨hwaiting, hresolution⟩⟩

namespace Queue

variable {q q' q'' : Queue} {target : Target} {resolution : Resolution}
  {n : Nat} {p : Approval → Bool}

/-- The queue after an action. -/
def act (q : Queue) : QueueAction → Queue
  | .enqueue target requestedBy requestedAt =>
    q.enqueue target requestedBy requestedAt
  | .decide target resolution sequence =>
    match q.decide target resolution sequence with
    | .ok (_, after) => after
    | .error _ => q
  | .expireAll sequence => (q.expireAll sequence).2

/-- The queue after some actions. -/
def run (q : Queue) (actions : List QueueAction) : Queue :=
  actions.foldl act q

theorem run_append (q : Queue) (first later : List QueueAction) :
    q.run (first ++ later) = (q.run first).run later :=
  List.foldl_append

/-! ## Later queues -/

/-- Every approval of a queue is in the same place in a later one. -/
def LeadsTo (q q' : Queue) : Prop :=
  ∀ (i : Nat) (a : Approval), q.entries[i]? = some a →
    ∃ b, q'.entries[i]? = some b ∧ a.Becomes b

theorem LeadsTo.refl (q : Queue) : q.LeadsTo q := by
  intro i a hi
  exact ⟨a, hi, .refl a⟩

theorem LeadsTo.trans (h : q.LeadsTo q') (h' : q'.LeadsTo q'') :
    q.LeadsTo q'' := by
  intro i a hi
  obtain ⟨b, hb, hab⟩ := h i a hi
  obtain ⟨c, hc, hbc⟩ := h' i b hb
  exact ⟨c, hc, hab.trans hbc⟩

theorem leadsTo_enqueue (q : Queue) (target : Target) (fingerprint : String)
    (n : Nat) : q.LeadsTo (q.enqueue target fingerprint n) := by
  intro i a hi
  refine ⟨a, ?_, .refl a⟩
  obtain ⟨hlt, -⟩ := List.getElem?_eq_some_iff.1 hi
  rw [enqueue, List.getElem?_append_left hlt, hi]

theorem getElem?_resolveWhere {i : Nat} (hi : q.entries[i]? = some a) :
    (q.resolveWhere p resolution n).entries[i]? =
      some (if p a then a.resolve resolution n else a) := by
  rw [resolveWhere, List.getElem?_map, hi]
  rfl

theorem leadsTo_resolveWhere
    (hp : ∀ a, p a = true → a.resolution = .unresolved)
    (hresolution : resolution ≠ .unresolved) (n : Nat) :
    q.LeadsTo (q.resolveWhere p resolution n) := by
  intro i a hi
  refine ⟨_, getElem?_resolveWhere hi, ?_⟩
  split
  · rename_i hpa
    exact becomes_resolve (hp a hpa) hresolution n
  · exact .refl a

/-! ## Decisions -/

/-- Resolving approvals of which there are none leaves the queue as it is. -/
theorem resolveWhere_of_not (h : ∀ a ∈ q.entries, ¬p a = true) :
    q.resolveWhere p resolution n = q := by
  have hsame : q.entries.map (fun a =>
      if p a then a.resolve resolution n else a) = q.entries := by
    refine (List.map_congr_left fun a ha => ?_).trans (List.map_id _)
    rw [if_neg (h a ha)]
    rfl
  rw [resolveWhere, hsame]

theorem decide_eq_error {e : QueueError}
    (h : q.decide target resolution n = .error e) :
    resolution.isDecision = false ∨
      ∀ a ∈ q.entries, ¬q.isOpenFor target a = true := by
  rw [Queue.decide] at h
  split at h
  · rename_i hdecision
    exact Or.inl (by simpa using hdecision)
  · split at h
    · rename_i hnone
      exact Or.inr (List.filter_eq_nil_iff.1 hnone)
    · cases h

theorem decide_of_openFor?_eq_none (hdecision : resolution.isDecision = true)
    (hnone : q.openFor? target = none) (n : Nat) :
    q.decide target resolution n = .error (.noMatch target.operation) := by
  have hempty : q.entries.filter (q.isOpenFor target) = [] := by
    rw [openFor?, List.find?_eq_none] at hnone
    exact List.filter_eq_nil_iff.2 hnone
  rw [Queue.decide, if_neg (by simp [hdecision]), hempty]

theorem decide_of_openFor?_eq_some (hdecision : resolution.isDecision = true)
    (hsome : q.openFor? target = some a) (n : Nat) :
    ∃ decided, q.decide target resolution n =
      .ok (decided, q.resolveWhere (q.isOpenFor target) resolution n) := by
  rw [Queue.decide, if_neg (by simp [hdecision])]
  split
  · rename_i hempty
    rw [openFor?, ← List.head?_filter, hempty] at hsome
    cases hsome
  · exact ⟨_, rfl⟩

/-- Taking a decision resolves what waits for it, if anything does. -/
theorem act_decide (hdecision : resolution.isDecision = true) :
    q.act (.decide target resolution n) =
      q.resolveWhere (q.isOpenFor target) resolution n := by
  rw [act]
  cases hdecide : q.decide target resolution n with
  | ok found =>
      obtain ⟨-, -, hafter⟩ := decide_eq_ok hdecide
      exact hafter
  | error e =>
      rcases decide_eq_error hdecide with hnot | hnone
      · rw [hdecision] at hnot
        cases hnot
      · exact (resolveWhere_of_not hnone).symm

/-- The approval of an id is another one in a later queue. -/
def Changes (q q' : Queue) (id : String) : Prop :=
  ∃ (i : Nat) (a b : Approval),
    q.entries[i]? = some a ∧ q'.entries[i]? = some b ∧ a.id = id ∧ b ≠ a

/-- What may come of a decision about a target.  It is refused and changes
nothing, because it is none or because nothing waits for it; or the approvals
that it changes are exactly those that it names. -/
inductive DecisionEnds (q : Queue) (target : Target)
    (resolution : Resolution) (n : Nat) :
    Except QueueError (List Approval × Queue) → Prop where
  | refused (e : QueueError)
      (hwhy : resolution.isDecision = false ∨
        ∀ a ∈ q.entries, ¬q.isOpenFor target a = true)
      (hsame : q.act (.decide target resolution n) = q) :
      DecisionEnds q target resolution n (.error e)
  | taken (decided : List Approval) (after : Queue)
      (hafter : q.act (.decide target resolution n) = after)
      (hchanged : ∀ id, id ∈ decided.map (·.id) ↔ q.Changes after id) :
      DecisionEnds q target resolution n (.ok (decided, after))

/-- Resolving approvals that wait changes exactly those. -/
theorem changes_resolveWhere_iff {id : String}
    (hp : ∀ a, p a = true → a.resolution = .unresolved)
    (hresolution : resolution ≠ .unresolved) :
    q.Changes (q.resolveWhere p resolution n) id ↔
      ∃ a ∈ q.entries, p a = true ∧ a.id = id := by
  constructor
  · rintro ⟨i, a, b, ha, hb, hid, hne⟩
    rw [getElem?_resolveWhere ha] at hb
    cases hb
    by_cases hpa : p a = true
    · exact ⟨a, List.mem_of_getElem? ha, hpa, hid⟩
    · rw [if_neg hpa] at hne
      exact absurd rfl hne
  · rintro ⟨a, ha, hpa, hid⟩
    obtain ⟨i, hi⟩ := List.mem_iff_getElem?.1 ha
    refine ⟨i, a, a.resolve resolution n, hi, ?_, hid, ?_⟩
    · rw [getElem?_resolveWhere hi, if_pos hpa]
    · intro heq
      have hsame : resolution = a.resolution :=
        congrArg Approval.resolution heq
      exact hresolution (hsame.trans (hp a hpa))

theorem decisionEnds_decide (q : Queue) (target : Target)
    (resolution : Resolution) (n : Nat) :
    q.DecisionEnds target resolution n (q.decide target resolution n) := by
  cases hdecide : q.decide target resolution n with
  | error e =>
      refine .refused e (decide_eq_error hdecide) ?_
      rw [act, hdecide]
  | ok found =>
      obtain ⟨decided, after⟩ := found
      obtain ⟨hdecision, rfl, rfl⟩ := decide_eq_ok hdecide
      refine .taken _ _ (act_decide hdecision) fun id => ?_
      rw [changes_resolveWhere_iff (fun a ha => (isOpenFor_iff.1 ha).1)
        (Resolution.ne_unresolved_of_isDecision hdecision)]
      simp [List.mem_map, List.mem_filter, Approval.resolve, and_assoc]

/-! ## Runs -/

/-- An action enqueues, changes nothing, or resolves approvals that wait. -/
theorem act_cases (q : Queue) (action : QueueAction) :
    (∃ target fingerprint n, q.act action = q.enqueue target fingerprint n) ∨
      q.act action = q ∨
      ∃ p resolution n, (∀ a, p a = true → a.resolution = .unresolved) ∧
        resolution ≠ .unresolved ∧
        q.act action = q.resolveWhere p resolution n := by
  cases action with
  | enqueue target fingerprint n =>
      exact Or.inl ⟨target, fingerprint, n, rfl⟩
  | expireAll n =>
      refine Or.inr (Or.inr ⟨_, .expired, n, ?_, by decide, rfl⟩)
      exact fun a ha => by simpa using ha
  | decide target resolution n =>
      cases hdecision : resolution.isDecision with
      | true =>
          refine Or.inr (Or.inr ⟨_, resolution, n, ?_,
            Resolution.ne_unresolved_of_isDecision hdecision,
            act_decide hdecision⟩)
          exact fun a ha => (isOpenFor_iff.1 ha).1
      | false =>
          refine Or.inr (Or.inl ?_)
          rw [act, Queue.decide, hdecision]
          rfl

theorem leadsTo_act (q : Queue) (action : QueueAction) :
    q.LeadsTo (q.act action) := by
  rcases act_cases q action with
    ⟨target, fingerprint, n, hact⟩ | hact | ⟨p, resolution, n, hp, hne, hact⟩
  · rw [hact]
    exact leadsTo_enqueue q target fingerprint n
  · rw [hact]
    exact .refl q
  · rw [hact]
    exact leadsTo_resolveWhere hp hne n

theorem leadsTo_run (q : Queue) (actions : List QueueAction) :
    q.LeadsTo (q.run actions) := by
  induction actions generalizing q with
  | nil => exact .refl q
  | cons action rest ih => exact (leadsTo_act q action).trans (ih _)

theorem Filed.act (h : q.Filed) (action : QueueAction) :
    (q.act action).Filed := by
  rcases act_cases q action with
    ⟨target, fingerprint, n, hact⟩ | hact | ⟨p, resolution, n, -, hne, hact⟩
  · rw [hact]
    exact h.enqueue target fingerprint n
  · rw [hact]
    exact h
  · rw [hact]
    exact h.resolveWhere p hne n

theorem Filed.run (h : q.Filed) (actions : List QueueAction) :
    (q.run actions).Filed := by
  induction actions generalizing q with
  | nil => exact h
  | cons action rest ih => exact ih (h.act action)

/-- No two approvals have the same id. -/
theorem Filed.nodup_ids (h : q.Filed) : (q.entries.map (·.id)).Nodup := by
  refine List.pairwise_map.2 (List.pairwise_iff_getElem.2 ?_)
  intro i j hi hj hij heq
  rw [h.id_eq i _ (List.getElem?_eq_getElem hi),
    h.id_eq j _ (List.getElem?_eq_getElem hj)] at heq
  have hplace := idAt_injective heq
  omega

end Queue

end CallGate.Approval
