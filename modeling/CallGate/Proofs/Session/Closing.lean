import CallGate.Proofs.Approval.Lifecycle
import CallGate.Proofs.Session.Runs

/-!
# The end of a session

Closing a session lets what waits expire, and a closed session takes up no
call, so nothing waits in it any more.  All that a session does to its queue
of approvals before that is asking for approvals, deciding about them and
letting them expire, and so its approvals live the life that the approvals of
any queue live.
-/

namespace CallGate

/-- Nothing waits after all that waited has expired. -/
theorem Approval.Queue.resolved_of_mem_expireAll {q : Approval.Queue}
    {a : Approval} {n : Nat} (ha : a ∈ (q.expireAll n).2.entries) :
    a.resolution ≠ .unresolved := by
  obtain ⟨b, -, rfl⟩ := Approval.Queue.mem_resolveWhere.1 ha
  by_cases hwaiting : b.resolution = .unresolved
  · simp [hwaiting, Approval.resolve]
  · simp [hwaiting]

namespace SessionSetup

variable {s : SessionSetup} {st : SessionState} {operation : OperationId}
  {args : Json} {t : Taken} {actions : List SessionAction}
  {action : SessionAction}

/-! ## Closed sessions -/

theorem closed_act_close (s : SessionSetup) (st : SessionState) :
    (s.act st .close).closed = true := by
  rw [act, close]
  split
  · assumption
  · rfl

theorem close_of_closed (h : st.closed = true) : s.close st = ([], st, []) := by
  rw [close, if_pos h]

theorem act_of_closed (h : st.closed = true) (action : SessionAction) :
    s.act st action = st := by
  rcases act_cases s st action with
    hst | ⟨operation, args, t, -, ht, -⟩ | ⟨rfl, -⟩
  · exact hst
  · obtain ⟨spec, members, e, htakes⟩ := take_eq_ok ht
    rw [htakes.opened] at h
    cases h
  · rw [act, close_of_closed h]

theorem run_of_closed (h : st.closed = true) (actions : List SessionAction) :
    s.run st actions = st := by
  induction actions with
  | nil => rfl
  | cons action rest ih =>
      rw [run, List.foldl_cons, act_of_closed h]
      exact ih

/-- Nothing waits once the session is closed. -/
def Settled (st : SessionState) : Prop :=
  st.closed = true → ∀ a ∈ st.approvals.entries, a.resolution ≠ .unresolved

theorem settled_start (s : SessionSetup) (snapshot : Json) (clock : Clock) :
    Settled (.start s.config snapshot clock) := by
  rintro - a ha
  cases ha

theorem Settled.take (ht : s.take operation args st = .ok t) :
    Settled t.state := by
  obtain ⟨spec, members, e, htakes⟩ := take_eq_ok ht
  intro hclosed
  rw [htakes.state_closed] at hclosed
  cases hclosed

theorem Settled.act (h : Settled st) (action : SessionAction) :
    Settled (s.act st action) := by
  rcases act_cases s st action with hst | ⟨_, _, t, _, ht, hst⟩ | ⟨_, hst⟩
  · rw [hst]
    exact h
  · rw [hst]
    exact .take ht
  · rw [hst]
    rintro - a ha
    exact Approval.Queue.resolved_of_mem_expireAll ha

theorem Settled.run (h : Settled st) (actions : List SessionAction) :
    Settled (s.run st actions) := by
  induction actions generalizing st with
  | nil => exact h
  | cons action rest ih => exact ih (h.act action)

/-! ## What a session does to its queue -/

/-- A call does one thing to the queue, or nothing. -/
theorem QueueEffect.exists_run {r : Request} {route : Route} {e : Executed}
    {q q' : Approval.Queue} (h : s.QueueEffect r route e q q') :
    ∃ steps, q' = q.run steps := by
  cases h with
  | kept => exact ⟨[], rfl⟩
  | asked target hopen =>
      exact ⟨[.enqueue target r.fingerprint r.sequence], rfl⟩
  | decided c target resolution _ hc _ _ =>
      have hdecision := ApprovalControl.isDecision_of_resolution? hc
      exact ⟨[.decide target resolution r.sequence],
        (Approval.Queue.act_decide hdecision).symm⟩

theorem Orderly.exists_run_act (h : s.Orderly st) (action : SessionAction) :
    ∃ steps, (s.act st action).approvals = st.approvals.run steps := by
  rcases act_cases s st action with hst | ⟨_, _, t, _, ht, hst⟩ | ⟨_, hst⟩
  · exact ⟨[], by rw [hst]; rfl⟩
  · obtain ⟨spec, members, e, htakes⟩ := take_eq_ok ht
    rw [hst]
    exact (htakes.effect h.matching).exists_run
  · exact ⟨[.expireAll st.sequence], by rw [hst]; rfl⟩

theorem Orderly.exists_run (h : s.Orderly st)
    (actions : List SessionAction) :
    ∃ steps, (s.run st actions).approvals = st.approvals.run steps := by
  induction actions generalizing st with
  | nil => exact ⟨[], rfl⟩
  | cons action rest ih =>
      obtain ⟨first, hfirst⟩ := h.exists_run_act action
      obtain ⟨later, hlater⟩ := ih (h.act action)
      refine ⟨first ++ later, ?_⟩
      rw [Approval.Queue.run_append, ← hfirst]
      exact hlater

end SessionSetup

namespace Session

/-- Calls and closing have led from the start to the state of the session,
whatever its sink has done and whatever has left it meanwhile. -/
def IsReached (s : Session) : Prop :=
  ∃ snapshot clock actions,
    s.state = s.setup.run (.start s.setup.config snapshot clock) actions

theorem IsReached.settled {s : Session} (h : s.IsReached) :
    SessionSetup.Settled s.state := by
  obtain ⟨snapshot, clock, actions, hstate⟩ := h
  rw [hstate]
  exact (s.setup.settled_start snapshot clock).run actions

/-- In a queue to which anything was done, the approvals have the ids of their
places, are found under them, and have a time of resolution exactly when they
are resolved.  Whatever is done to it next, they stay in their places and are
resolved at most once, and a decision changes exactly the approvals that it
names, and nothing when it is refused.  The queue of a session is such a
queue.  Once the session is closed nothing waits in it, whatever is called
then, and closing it again changes nothing and names no approval. -/
theorem approvals_resolved_once (matching : Approval.Matching)
    (before after : List Approval.QueueAction) (setup : SessionSetup)
    (snapshot : Json) (clock : Clock) (sink : ReceiptSink)
    (actions continuation : List SessionAction) :
    let q := (Approval.Queue.empty matching).run before
    let open_ := (start setup snapshot clock sink).run actions
    let closed := (open_.act .close).run continuation
    (∀ i a, q.entries[i]? = some a →
        a.id = Approval.idAt (i + 1) ∧ q.get? a.id = some a ∧
          (a.resolution = .unresolved ↔ a.resolvedAt = none)) ∧
      (q.entries.map (·.id)).Nodup ∧
      q.LeadsTo (q.run after) ∧
      (∀ target resolution n, q.DecisionEnds target resolution n
        (q.decide target resolution n)) ∧
      (∃ steps, open_.state.approvals =
        (Approval.Queue.empty setup.config.policy.matching).run steps) ∧
      (∀ a ∈ closed.state.approvals.entries,
        a.resolution ≠ .unresolved) ∧
      closed.close.2.state = closed.state ∧
      ∀ report, closed.close.1 = .ok report → report.expired = [] := by
  intro q open_ closed
  have hfiled : q.Filed := (Approval.Queue.Filed.empty matching).run before
  obtain ⟨hsetup, hstate⟩ := run_eq (start setup snapshot clock sink) actions
  obtain ⟨hsetup', hstate'⟩ := act_eq open_ .close
  have hclosed : closed.state = open_.setup.act open_.state .close := by
    rw [(run_eq (open_.act .close) continuation).2, hstate', hsetup']
    exact SessionSetup.run_of_closed (SessionSetup.closed_act_close _ _) _
  have hends : closed.state.closed = true := by
    rw [hclosed]
    exact SessionSetup.closed_act_close _ _
  have hsettled : SessionSetup.Settled closed.state := by
    rw [hclosed, hstate]
    exact ((setup.settled_start snapshot clock).run actions).act .close
  refine ⟨fun i a hi => ⟨hfiled.id_eq i a hi, ?_, ?_⟩, hfiled.nodup_ids,
    Approval.Queue.leadsTo_run q after,
    Approval.Queue.decisionEnds_decide q, ?_, hsettled hends, ?_, ?_⟩
  · exact hfiled.get?_of_mem (List.mem_of_getElem? hi)
  · exact hfiled.open_iff a (List.mem_of_getElem? hi)
  · rw [hstate]
    exact (setup.orderly_start snapshot clock).exists_run actions
  · rw [close, SessionSetup.close_of_closed hends]
    dsimp only
    split <;> rfl
  · intro report hreport
    rw [close, SessionSetup.close_of_closed hends] at hreport
    dsimp only at hreport
    split at hreport
    · cases hreport
    · cases hreport
      rfl

end Session

end CallGate
