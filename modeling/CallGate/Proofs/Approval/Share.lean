import CallGate.Proofs.Approval.Lifecycle
import CallGate.Proofs.Policy.Gate

/-!
# The share of a service in the queue

All services have their approvals in one queue, and the id of an approval
tells how many others were asked for before it.  Apart from the ids, what the
queue says about the operations of one service can be read off the approvals
for them alone, and what is done about other services leaves these as they
are.
-/

namespace CallGate.Approval

/-- The approval without its id. -/
def unnamed (a : Approval) : Approval := { a with id := "" }

/-- The approval is for an operation of the service. -/
def IsOf (service : String) (a : Approval) : Prop :=
  a.target.operation.service = service

instance (service : String) : DecidablePred (IsOf service) :=
  fun a => inferInstanceAs (Decidable (a.target.operation.service = service))

namespace Queue

variable {q q' : Queue} {service : String} {operation : OperationId}
  {digest : String} {target : Target} {resolution : Resolution}
  {fingerprint : String} {n : Nat} {p : Approval → Bool}

/-- The approvals for the operations of a service, without their ids. -/
def share (q : Queue) (service : String) : Queue :=
  ⟨q.matching, (q.entries.filter (IsOf service)).map unnamed⟩

/-! ## What the share tells -/

/-- What is asked of a share that is no matter of ids and of other services is
asked of the queue. -/
theorem filter_share (hid : ∀ a, p (unnamed a) = p a)
    (hservice : ∀ a, p a = true → IsOf service a) :
    (q.share service).entries.filter p = (q.entries.filter p).map unnamed := by
  have hcomp : p ∘ unnamed = p := funext hid
  rw [share, List.filter_map, hcomp, List.filter_filter]
  congr 1
  refine List.filter_congr fun a _ => ?_
  cases hp : p a with
  | false => rfl
  | true => simpa using hservice a hp

theorem find?_share (hid : ∀ a, p (unnamed a) = p a)
    (hservice : ∀ a, p a = true → IsOf service a) :
    (q.share service).entries.find? p = (q.entries.find? p).map unnamed := by
  rw [← List.head?_filter, ← List.head?_filter, filter_share hid hservice,
    List.head?_map]

theorem openFor?_share (hservice : target.operation.service = service) :
    (q.share service).openFor? target = (q.openFor? target).map unnamed := by
  refine find?_share (fun _ => rfl) fun a ha => ?_
  obtain ⟨-, hshared⟩ := isOpenFor_iff.1 ha
  rw [IsOf, (Target.decidedBy_iff.1 hshared).1, hservice]

theorem covering_share (hservice : operation.service = service) :
    (q.share service).covering operation digest =
      (q.covering operation digest).map unnamed := by
  refine filter_share (fun _ => rfl) fun a ha => ?_
  rw [IsOf, (Target.covers_iff.1 ha).1, hservice]

theorem unresolvedFor?_share (hservice : operation.service = service) :
    (q.share service).unresolvedFor? operation digest =
      (q.unresolvedFor? operation digest).map unnamed := by
  rw [unresolvedFor?_eq_find?_covering, unresolvedFor?_eq_find?_covering,
    covering_share hservice, List.find?_map]
  rfl

/-- What keeps when approvals were changed keeps which of them is the latest. -/
theorem foldl_later_map {f : Approval → Approval}
    (hf : ∀ a, (f a).changedAt = a.changedAt) (l : List Approval)
    (a : Option Approval) :
    (l.map f).foldl later (a.map f) = (l.foldl later a).map f := by
  induction l generalizing a with
  | nil => rfl
  | cons b rest ih =>
      have hlater : later (a.map f) (f b) = (later a b).map f := by
        cases a with
        | none => rfl
        | some a =>
            rw [Option.map_some, later, later, hf, hf,
              apply_ite (Option.map f)]
            rfl
      rw [List.map_cons, List.foldl_cons, List.foldl_cons, hlater, ih]

theorem latestResolution?_share (hservice : operation.service = service) :
    (q.share service).latestResolution? operation digest =
      q.latestResolution? operation digest := by
  rw [latestResolution?, latestResolution?, lastResolved?_eq_foldl_covering,
    lastResolved?_eq_foldl_covering, covering_share hservice, List.filter_map]
  have hfold := foldl_later_map (f := unnamed) (fun _ => rfl)
    ((q.covering operation digest).filter fun a => a.resolution.isTerminal)
    none
  rw [Option.map_none] at hfold
  have hcomp : (fun a : Approval => a.resolution.isTerminal) ∘ unnamed =
      fun a => a.resolution.isTerminal := rfl
  rw [hcomp, hfold, Option.map_map]
  rfl

/-- How a call stands is a matter of the last resolution and of whether an
approval waits, and not of what else is known of the one that does. -/
theorem standing_of_map {f : Approval → Approval} {digest' : String}
    (hlast : q'.latestResolution? operation digest' =
      q.latestResolution? operation digest)
    (hwaiting : q'.unresolvedFor? operation digest' =
      (q.unresolvedFor? operation digest).map f) :
    q'.standing operation digest' = q.standing operation digest := by
  cases hfound : q.unresolvedFor? operation digest with
  | none =>
      rw [hfound] at hwaiting
      rw [standing, standing, hlast, hfound, hwaiting]
      rfl
  | some a =>
      rw [hfound] at hwaiting
      rw [standing_of_waiting hfound, standing_of_waiting hwaiting]

theorem standing_share (hservice : operation.service = service) :
    (q.share service).standing operation digest =
      q.standing operation digest :=
  standing_of_map (latestResolution?_share hservice)
    (unresolvedFor?_share hservice)

/-! ## What changes the share -/

theorem share_enqueue_of_ne (hne : target.operation.service ≠ service) :
    (q.enqueue target fingerprint n).share service = q.share service := by
  rw [share, enqueue]
  dsimp only
  rw [List.filter_append,
    List.filter_cons_of_neg (by exact fun h => hne (of_decide_eq_true h)),
    List.filter_nil, List.append_nil]
  rfl

/-- What is asked for in two queues is the same in their shares. -/
theorem share_enqueue_congr (h : q'.share service = q.share service)
    (target : Target) (fingerprint : String) (n : Nat) :
    (q'.enqueue target fingerprint n).share service =
      (q.enqueue target fingerprint n).share service := by
  by_cases hservice : target.operation.service = service
  · have hshare (q : Queue) :
        (q.enqueue target fingerprint n).share service =
          { q.share service with
            entries := (q.share service).entries ++
              [⟨"", target, fingerprint, n, .unresolved, none⟩] } := by
      rw [share, enqueue]
      dsimp only
      rw [List.filter_append,
        List.filter_cons_of_pos (by exact decide_eq_true hservice),
        List.map_append]
      rfl
    rw [hshare, hshare, h]
  · rw [share_enqueue_of_ne hservice, share_enqueue_of_ne hservice, h]

theorem share_resolveWhere (hid : ∀ a, p (unnamed a) = p a) :
    (q.resolveWhere p resolution n).share service =
      (q.share service).resolveWhere p resolution n := by
  rw [share, share, resolveWhere, resolveWhere]
  dsimp only
  rw [List.filter_map, List.map_map, List.map_map]
  congr 2
  · funext a
    dsimp only [Function.comp_apply]
    rw [hid]
    split <;> rfl
  · refine List.filter_congr fun a _ => ?_
    dsimp only [Function.comp_apply]
    split <;> rfl

/-- A decision about another service leaves the share as it is. -/
theorem share_decided_of_ne (hne : target.operation.service ≠ service) :
    (q.resolveWhere (q.isOpenFor target) resolution n).share service =
      q.share service := by
  rw [share_resolveWhere fun _ => rfl]
  refine resolveWhere_of_not fun b hb hopen => hne ?_
  obtain ⟨a, ha, rfl⟩ := List.mem_map.1 hb
  obtain ⟨-, hshared⟩ := isOpenFor_iff.1 hopen
  rw [← (Target.decidedBy_iff.1 hshared).1]
  exact of_decide_eq_true (List.mem_filter.1 ha).2

/-- A decision in two queues decides the same in their shares. -/
theorem share_decided_congr (h : q'.share service = q.share service)
    (target : Target) (resolution : Resolution) (n : Nat) :
    (q'.resolveWhere (q'.isOpenFor target) resolution n).share service =
      (q.resolveWhere (q.isOpenFor target) resolution n).share service := by
  have hopen (q : Queue) :
      q.isOpenFor target = (q.share service).isOpenFor target := rfl
  rw [share_resolveWhere fun _ => rfl, share_resolveWhere fun _ => rfl,
    hopen q', hopen q, h]

end Queue

end CallGate.Approval

namespace CallGate.Policy

/-- The decision about a call depends on the share of its service alone. -/
theorem decide_share {p : Policy} {operation : OperationId}
    {risk : RiskClass} {digest : String} {q : Approval.Queue}
    {service : String} (hservice : operation.service = service) :
    p.decide operation risk digest (q.share service) =
      p.decide operation risk digest q := by
  rcases p.decide_cases operation risk digest with ⟨d, -, hd⟩ | hq
  · rw [hd, hd]
  · rw [hq, hq, Approval.Queue.standing_share hservice]

end CallGate.Policy
