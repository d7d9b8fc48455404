import CallGate.Proofs.Session.Asking
import CallGate.Proofs.Session.Scope

/-!
# Decisions that stand

A call that was approved or denied has no approval that waits, so nobody can
decide about it again, and the gate asks for no new approval for it.  Only a
request by a control can bring one into the queue.  Until then, and as long as
the session is open, the approvals for the call stay exactly what they are,
whatever else is dispatched.
-/

namespace CallGate

namespace Approval.Queue

variable {q : Queue} {operation : OperationId} {digest : String}
  {target : Target} {resolution : Resolution} {fingerprint : String}
  {n : Nat}

/-- When a call is settled, no approval for it waits. -/
theorem resolved_of_settled
    (hsettled : (q.standing operation digest).action ≠ .requireApproval) :
    ∀ a ∈ q.covering operation digest, a.resolution ≠ .unresolved := by
  apply unresolvedFor?_eq_none_iff.1
  cases hwaiting : q.unresolvedFor? operation digest with
  | none => rfl
  | some a =>
      rw [standing_of_waiting hwaiting] at hsettled
      exact absurd rfl hsettled

/-- A decision leaves the approvals for a settled call as they are. -/
theorem covering_decided_of_settled
    (hsettled : (q.standing operation digest).action ≠ .requireApproval) :
    (q.resolveWhere (q.isOpenFor target) resolution n).covering
        operation digest =
      q.covering operation digest := by
  apply covering_resolveWhere_of_not
  intro a ha hopen
  exact resolved_of_settled hsettled a ha (isOpenFor_iff.1 hopen).1

/-- A new approval that is not for a call leaves the approvals for it as they
are. -/
theorem covering_enqueue_of_not_covers
    (hnot : ¬target.covers operation digest q.matching = true) :
    (q.enqueue target fingerprint n).covering operation digest =
      q.covering operation digest := by
  rw [covering, enqueue]
  dsimp only
  rw [List.filter_append, List.filter_cons_of_neg (by exact hnot),
    List.filter_nil, List.append_nil]
  rfl

/-- When what the gate asks for on account of one call is for another call as
well, the same approvals are for both. -/
theorem covering_eq_of_targetFor_covers {p : Policy} {other : OperationId}
    {d : String} (hmatching : p.matching = q.matching)
    (hcovers :
      (p.targetFor other d).covers operation digest q.matching = true) :
    q.covering other d = q.covering operation digest := by
  obtain ⟨hoperation, hdigest⟩ := Target.covers_iff.1 hcovers
  have hsame : other = operation := hoperation
  rw [covering, covering, hsame]
  refine List.filter_congr fun a _ => ?_
  rw [Bool.eq_iff_iff, Target.covers_iff, Target.covers_iff]
  refine and_congr_right fun _ => forall_congr' fun hcall => ?_
  have hown := hdigest hcall
  rw [Target.digest_targetFor (hmatching.trans hcall)] at hown
  rcases hown with hnone | hd
  · cases hnone
  · rw [hd]

end Approval.Queue

/-- The action asks by a control for an approval of an operation. -/
def SessionAction.RequestsApproval (action : SessionAction)
    (operation : OperationId) : Prop :=
  ∃ args members,
    action = .call ApprovalControl.request.id args ∧
      Arguments.ofValue ApprovalControl.request.id args = .ok members ∧
      (Json.member? "service" members).bind Json.text? =
        some operation.service ∧
      (Json.member? "operation" members).bind Json.text? =
        some operation.name

/-- When what the gate asks for on account of a call is for another call as
well, the other call has to wait, too. -/
theorem Policy.waits_of_covers {p : Policy} {r : Request}
    {q : Approval.Queue} {operation : OperationId} {digest : String}
    (hmatching : p.matching = q.matching)
    (hneeds : (p.peek r q).action = .requireApproval)
    (hcovers : (p.targetFor r.operation r.digest).covers operation digest
      q.matching = true) :
    (q.standing operation digest).action = .requireApproval := by
  rw [Policy.peek] at hneeds
  have hsame :=
    Approval.Queue.covering_eq_of_targetFor_covers hmatching hcovers
  rcases p.decide_cases r.operation r.risk r.digest with ⟨d, hd, hrule⟩ | hq
  · rw [hrule] at hneeds
    exact absurd hneeds hd
  · rwa [hq, Approval.Queue.standing_congr hsame] at hneeds

namespace SessionSetup

variable {s : SessionSetup} {st : SessionState} {operation : OperationId}
  {digest : String} {action : SessionAction} {actions : List SessionAction}

/-- A call that adds an approval for a settled call to the queue requests it by
a control. -/
theorem TakesUp.requestsApproval {called : OperationId} {args : Json}
    {t : Taken} {spec : OperationSpec} {members : Arguments} {e : Execution}
    {target : Approval.Target} {fingerprint : String} {n : Nat}
    (hbuilt : s.registry.Built)
    (hmatching : st.approvals.matching = s.config.policy.matching)
    (h : s.TakesUp called args st t spec members e)
    (hadded : t.state.approvals = st.approvals.enqueue target fingerprint n)
    (hcovers : target.covers operation digest st.approvals.matching = true)
    (hsettled :
      (st.approvals.standing operation digest).action ≠ .requireApproval) :
    (SessionAction.call called args).RequestsApproval operation := by
  have hasks := h.asks hadded
  generalize hroute : spec.route = route at hasks
  cases hasks with
  | gated hneeds =>
      exact absurd (Policy.waits_of_covers hmatching.symm hneeds hcovers)
        hsettled
  | requested htarget =>
      obtain ⟨rfl, rfl⟩ := (hbuilt.fits h.spec_eq).eq_control hroute
      rw [h.request_args] at htarget
      obtain ⟨hservice, hname, -⟩ := controlOperation_eq_ok
        (controlOperation_of_controlTarget htarget)
      rw [(Approval.Target.covers_iff.1 hcovers).1] at hservice hname
      exact ⟨args, members, rfl, h.members_eq, hservice, hname⟩

/-- Without a request for the operation, an action in an open session leaves
the approvals for a settled call of it as they are. -/
theorem covering_act_of_settled (hbuilt : s.registry.Built)
    (h : s.Orderly st)
    (hsettled :
      (st.approvals.standing operation digest).action ≠ .requireApproval)
    (hopen : action ≠ .close)
    (hrequests : ¬action.RequestsApproval operation) :
    (s.act st action).approvals.covering operation digest =
      st.approvals.covering operation digest := by
  rcases act_cases s st action with
    hst | ⟨called, args, t, rfl, ht, hst⟩ | ⟨hclose, -⟩
  · rw [hst]
  · rw [hst]
    obtain ⟨spec, members, e, htakes⟩ := take_eq_ok ht
    have heffect := htakes.effect h.matching
    generalize hq : t.state.approvals = q at heffect
    cases heffect with
    | kept => rfl
    | decided c target resolution =>
        exact Approval.Queue.covering_decided_of_settled hsettled
    | asked target hnone =>
        apply Approval.Queue.covering_enqueue_of_not_covers
        intro hcovers
        exact hrequests
          (htakes.requestsApproval hbuilt h.matching hq hcovers hsettled)
  · exact absurd hclose hopen

/-- Without a request for the operation, a run that does not close the session
leaves the approvals for a settled call of it as they are. -/
theorem covering_run_of_settled (hbuilt : s.registry.Built)
    (h : s.Orderly st)
    (hsettled :
      (st.approvals.standing operation digest).action ≠ .requireApproval)
    (hopen : .close ∉ actions)
    (hrequests : ∀ action ∈ actions, ¬action.RequestsApproval operation) :
    (s.run st actions).approvals.covering operation digest =
      st.approvals.covering operation digest := by
  induction actions generalizing st with
  | nil => rfl
  | cons action rest ih =>
      have hfirst : (s.act st action).approvals.covering operation digest =
          st.approvals.covering operation digest := by
        apply covering_act_of_settled hbuilt h hsettled
        · rintro rfl
          exact hopen List.mem_cons_self
        · exact hrequests action List.mem_cons_self
      rw [← Approval.Queue.standing_congr hfirst] at hsettled
      refine (ih (h.act action) hsettled ?_ ?_).trans hfirst
      · exact fun hmem => hopen (List.mem_cons_of_mem _ hmem)
      · exact fun later hmem => hrequests later (List.mem_cons_of_mem _ hmem)

end SessionSetup

namespace Session

/-- A call that the gate lets through or refuses is let through or refused
after every continuation of the run in which no control requests an approval
for its operation and the session is not closed.  So what was approved stays
approved, however often it is called, and what was denied stays denied. -/
theorem decision_stands
    {setup : SessionSetup} (hbuilt : setup.registry.Built)
    (snapshot : Json) (clock : Clock) (sink : ReceiptSink)
    (actions continuation : List SessionAction)
    (operation : OperationId) (risk : RiskClass) (digest : String)
    (hdecided : (setup.config.policy.decide operation risk digest
      ((start setup snapshot clock sink).run actions).state.approvals).action ≠
        .requireApproval)
    (hopen : .close ∉ continuation)
    (hrequests : ∀ action ∈ continuation,
      ¬action.RequestsApproval operation) :
    let session := (start setup snapshot clock sink).run actions
    setup.config.policy.decide operation risk digest
        (session.run continuation).state.approvals =
      setup.config.policy.decide operation risk digest
        session.state.approvals := by
  intro session
  have horderly : setup.Orderly session.state :=
    orderly_run_start setup snapshot clock sink actions
  have hsetup : session.setup = setup :=
    (run_eq (start setup snapshot clock sink) actions).1
  rcases setup.config.policy.decide_cases operation risk digest with
    ⟨d, -, hrule⟩ | hq
  · rw [hrule, hrule]
  · rw [hq] at hdecided
    rw [(run_eq session continuation).2, hsetup]
    apply Policy.decide_congr
    exact SessionSetup.covering_run_of_settled hbuilt horderly hdecided hopen
      hrequests

/-- All mail is requested and approved, and digests count.  Then a mail is sent
to `a` and all mail is denied: the mail to `a` is let through as before. -/
theorem mail_stays_approved :
    let setup := mailSetup { matching := .call }
    let digest := callDigest mailSend (mailTo "a")
    let actions : List SessionAction :=
      [.call ApprovalControl.request.id (decisionArgs mailSend none),
        .call ApprovalControl.approve.id (decisionArgs mailSend none)]
    let continuation : List SessionAction :=
      [.call mailSend (.obj (mailTo "a")),
        .call ApprovalControl.deny.id (decisionArgs mailSend none)]
    setup.config.policy.decide mailSend .writeRisky digest
        ((start setup .null (.logical 0) .none).run actions).state.approvals =
          .allow .approvalGranted ∧
      setup.config.policy.decide mailSend .writeRisky digest
        (((start setup .null (.logical 0) .none).run actions).run
          continuation).state.approvals = .allow .approvalGranted := by
  intro setup digest actions continuation
  have hbefore : setup.config.policy.decide mailSend .writeRisky digest
      ((start setup .null (.logical 0) .none).run actions).state.approvals =
        .allow .approvalGranted := rfl
  have hopen : SessionAction.close ∉ continuation := by
    simp [continuation]
  have hrequests : ∀ action ∈ continuation,
      ¬action.RequestsApproval mailSend := by
    rintro action hmem ⟨args, members, rfl, -⟩
    rcases List.mem_cons.1 hmem with h | h
    · injection h with hid
      exact absurd hid (by decide)
    · injection List.mem_singleton.1 h with hid
      exact absurd hid (by decide)
  have hbuilt : setup.registry.Built := mailRegistry_built
  have hdecided : (setup.config.policy.decide mailSend .writeRisky digest
      ((start setup .null (.logical 0) .none).run
        actions).state.approvals).action ≠ .requireApproval := by
    rw [hbefore]
    decide
  refine ⟨hbefore, ?_⟩
  have hafter := decision_stands hbuilt .null (.logical 0) .none actions
    continuation mailSend .writeRisky digest hdecided hopen hrequests
  exact hafter.trans hbefore

end Session

end CallGate
