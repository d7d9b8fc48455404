import CallGate.Proofs.Approval.Askers
import CallGate.Proofs.Backend.Office
import CallGate.Proofs.Redaction.Secrets
import CallGate.Proofs.Session.Closing

/-!
# Secrets in calls

What is given under the name of a secret gets into the world, into the digests
of a call and into the answers of later calls, but not into receipts.  Two runs
whose calls differ in secrets at most stay in step: their worlds differ in
secrets at most, their queues in who asked, and their receipts in fingerprints.
-/

namespace CallGate

open Redaction (SameButSecrets sameButSecrets_arr_iff sameButSecrets_obj_iff)

/-- The receipt without its fingerprint. -/
def Receipt.withoutFingerprint (r : Receipt) : Receipt :=
  { r with fingerprint := "" }

/-- Requests of the same call, but for secrets in the arguments. -/
structure Request.SameButSecrets (r r' : Request) : Prop where
  operation_eq : r'.operation = r.operation
  risk_eq : r'.risk = r.risk
  sequence_eq : r'.sequence = r.sequence
  args : Redaction.SameButSecrets (.obj r.args) (.obj r'.args)

/-- Worlds with the same snapshot and records that differ in secrets at most. -/
structure World.SameButSecrets (w w' : World) : Prop where
  snapshot_eq : w'.snapshot = w.snapshot
  records : ∀ service, List.Forall₂ Redaction.SameButSecrets
    (w.recordsOf service) (w'.recordsOf service)

/-- Outcomes of the same kind with the same failure, or with data that differ
in secrets at most. -/
inductive Outcome.SameButSecrets : Outcome → Outcome → Prop where
  | ok {p p' : Payload} (h : Redaction.SameButSecrets p.data p'.data) :
      SameButSecrets (.ok p) (.ok p')
  | err (failure : AdapterFailure) :
      SameButSecrets (.err failure) (.err failure)

/-- Two ends of a call of which a receipt shows the same, but for secrets. -/
structure Executed.ShowsSame (e e' : Executed) : Prop where
  decision_eq : e'.decision = e.decision
  status_eq : e'.response.status = e.response.status
  shown : Redaction.SameButSecrets (SessionSetup.shown e.response)
    (SessionSetup.shown e'.response)

/-- States in which the same calls have ends of which receipts show the
same. -/
structure SessionState.SameButSecrets (st st' : SessionState) : Prop where
  sequence_eq : st'.sequence = st.sequence
  world : st.world.SameButSecrets st'.world
  approvals_eq : st'.approvals.unasked = st.approvals.unasked
  receipts_eq : st'.receipts.map Receipt.withoutFingerprint =
    st.receipts.map Receipt.withoutFingerprint
  clock_eq : st'.clock = st.clock
  closed_eq : st'.closed = st.closed

/-- States differ in secrets at most after their queues were changed in the
same way. -/
theorem SessionState.SameButSecrets.queues {st st' : SessionState}
    {q q' : Approval.Queue} (h : st.SameButSecrets st')
    (hq : q'.unasked = q.unasked) :
    SessionState.SameButSecrets { st with approvals := q }
      { st' with approvals := q' } :=
  ⟨h.sequence_eq, h.world, hq, h.receipts_eq, h.clock_eq,
    h.closed_eq⟩

/-! ## The office -/

namespace World.SameButSecrets

variable {w w' : World}

theorem append (h : w.SameButSecrets w') (service : String)
    {record record' : Json}
    (hrecord : Redaction.SameButSecrets record record') :
    (w.append service record).SameButSecrets (w'.append service record') where
  snapshot_eq := h.snapshot_eq
  records other := by
    by_cases hother : other = service
    · subst hother
      rw [recordsOf_append_self, recordsOf_append_self]
      exact List.rel_append (h.records other) (.cons hrecord .nil)
    · rw [recordsOf_append_of_ne hother, recordsOf_append_of_ne hother]
      exact h.records other

end World.SameButSecrets

namespace Office

variable {w w' : World} {seed : Nat} {r r' : Request}

theorem idOf_eq (h : r.SameButSecrets r') : idOf seed r' = idOf seed r := by
  rw [idOf, idOf, callNumbers, callNumbers, h.operation_eq, h.sequence_eq]

theorem record_sameButSecrets (h : r.SameButSecrets r') (id : String) :
    SameButSecrets (record id r) (record id r') := by
  rw [record, record, sameButSecrets_obj_iff, h.operation_eq]
  refine .cons ⟨rfl, Or.inl h.args⟩ ?_
  exact .cons ⟨rfl, Or.inl (.refl _)⟩ (.cons ⟨rfl, Or.inl (.refl _)⟩ .nil)

theorem readAnswer_sameButSecrets (h : r.SameButSecrets r')
    (hw : w.SameButSecrets w') :
    SameButSecrets (readAnswer w r) (readAnswer w' r') := by
  have hrecords := hw.records r.operation.service
  have hview : view w' r' = view w r := by
    rw [view, view, World.section?, World.section?, hw.snapshot_eq,
      h.operation_eq]
  rw [readAnswer, readAnswer, h.operation_eq, hview, sameButSecrets_obj_iff,
    hrecords.length_eq]
  refine .cons ⟨rfl, Or.inl (.refl _)⟩ (.cons ⟨rfl, Or.inl (.refl _)⟩ ?_)
  refine .cons ⟨rfl, Or.inl (sameButSecrets_arr_iff.2 hrecords)⟩ ?_
  exact .cons ⟨rfl, Or.inl (.refl _)⟩ (.cons ⟨rfl, Or.inl (.refl _)⟩ .nil)

theorem answer_sameButSecrets (h : r.SameButSecrets r')
    (hw : w.SameButSecrets w') :
    SameButSecrets (answer seed r w) (answer seed r' w') := by
  rw [answer, answer, h.risk_eq]
  split
  · rw [idOf_eq h, h.operation_eq, writeAnswer, writeAnswer, h.operation_eq,
      (hw.records r.operation.service).length_eq]
    exact .refl _
  · exact readAnswer_sameButSecrets h hw

theorem after_sameButSecrets (h : r.SameButSecrets r')
    (hw : w.SameButSecrets w') :
    (after seed r w).SameButSecrets (after seed r' w') := by
  rw [after, after, h.risk_eq]
  split
  · rw [idOf_eq h, h.operation_eq]
    exact hw.append _ (record_sameButSecrets h _)
  · exact hw

end Office

/-- What adapters make of a call that is not replayed differs in secrets at
most when the call and the world do. -/
theorem Adapters.execute_sameButSecrets {a : Adapters} {r r' : Request}
    {w w' : World} (hoffice : a.ServedByOffice)
    (hmode : a.modeOf r ≠ .replay) (h : r.SameButSecrets r')
    (hw : w.SameButSecrets w') (seed : Nat) :
    (a.execute seed r w).1.SameButSecrets (a.execute seed r' w').1 ∧
      (a.execute seed r w).2.SameButSecrets (a.execute seed r' w').2 := by
  have hmode' : a.modeOf r' = a.modeOf r := by
    rw [modeOf, modeOf, h.operation_eq]
  have hrefusal : a.guard.refusal? r'.operation r'.risk =
      a.guard.refusal? r.operation r.risk := by rw [h.operation_eq, h.risk_eq]
  by_cases hsimulates : a.Simulates r
  · have hsimulates' : a.Simulates r' := by
      rw [Simulates, hmode', hrefusal]
      exact hsimulates
    obtain ⟨raw, hraw⟩ := exists_execute_of_simulates hoffice hsimulates seed
    obtain ⟨raw', hraw'⟩ := exists_execute_of_simulates hoffice hsimulates' seed
    rw [hraw, hraw']
    exact ⟨.ok (Office.answer_sameButSecrets h hw),
      Office.after_sameButSecrets h hw⟩
  · rcases execute_cases hoffice seed r with ⟨_, -, hwhy⟩ | ⟨hyes, -⟩
    · rcases hwhy with hreplay | ⟨hlive, reason, hreason, -⟩
      · exact absurd hreplay hmode
      · rw [execute, execute, hmode', hlive]
        dsimp only
        rw [executeLive, executeLive, hrefusal, hreason]
        exact ⟨.err _, hw⟩
    · exact absurd hyes hsimulates

/-! ## The gate -/

namespace Approval.Queue

variable {q : Queue}

/-- Where approvals are matched by the operation, it is of no matter which call
of it one asks about. -/
theorem unresolvedFor?_of_operation (h : q.matching = .operation)
    (operation : OperationId) (digest digest' : String) :
    q.unresolvedFor? operation digest' = q.unresolvedFor? operation digest := by
  rw [unresolvedFor?, unresolvedFor?, h]
  rfl

theorem latestResolution?_of_operation (h : q.matching = .operation)
    (operation : OperationId) (digest digest' : String) :
    q.latestResolution? operation digest' =
      q.latestResolution? operation digest := by
  rw [latestResolution?, latestResolution?, lastResolved?, lastResolved?, h]
  rfl

end Approval.Queue

namespace SessionSetup

variable {s : SessionSetup} {r r' : Request} {st st' : SessionState}
  {q q' : Approval.Queue} {target : Approval.Target}

theorem peek_sameButSecrets (h : r.SameButSecrets r')
    (hmatching : q'.matching = .operation) (hq : q'.unasked = q.unasked) :
    s.config.policy.peek r' q' = s.config.policy.peek r q := by
  have hdigest : s.config.policy.decide r.operation r.risk r'.digest q' =
      s.config.policy.decide r.operation r.risk r.digest q' := by
    have hwaits := Approval.Queue.unresolvedFor?_of_operation hmatching
      r.operation r.digest r'.digest
    have hlast := Approval.Queue.latestResolution?_of_operation hmatching
      r.operation r.digest r'.digest
    simp only [Policy.decide, Policy.byClass, Policy.byApproval, hwaits, hlast]
  rw [Policy.peek, Policy.peek, h.operation_eq, h.risk_eq, hdigest,
    ← Policy.decide_unasked, hq, Policy.decide_unasked]

theorem targetFor_of_operation {p : Policy} (h : p.matching = .operation)
    (operation : OperationId) (digest : String) :
    p.targetFor operation digest = .everyCall operation := by
  rw [Policy.targetFor, h]
  rfl

theorem serve_sameButSecrets (hoffice : s.adapters.ServedByOffice)
    (hmode : s.adapters.modeOf r ≠ .replay) (h : r.SameButSecrets r')
    (hst : st.SameButSecrets st') :
    (s.serve r st).1.SameButSecrets (s.serve r' st').1 ∧
      (s.serve r st).2.SameButSecrets (s.serve r' st').2 := by
  obtain ⟨hserved, hafter⟩ := s.serve_eq_execute r st
  obtain ⟨hserved', hafter'⟩ := s.serve_eq_execute r' st'
  obtain ⟨houtcome, hworld⟩ := Adapters.execute_sameButSecrets hoffice hmode h
    hst.world s.config.seed
  rw [← hserved, ← hserved'] at houtcome
  rw [← hafter, ← hafter'] at hworld
  rw [serve_state s r st, serve_state s r' st']
  exact ⟨houtcome, hst.sequence_eq, hworld, hst.approvals_eq, hst.receipts_eq,
    hst.clock_eq, hst.closed_eq⟩

/-- What is shown of outcomes that differ in secrets differs in them at
most. -/
theorem showsSame_of_outcome {decision : Decision} {outcome outcome' : Outcome}
    (h : outcome.SameButSecrets outcome') (r r' : Request)
    (mode mode' : Option Mode) :
    Executed.ShowsSame
      ⟨decision, .ofOutcome r.sequence r.fingerprint outcome, mode⟩
      ⟨decision, .ofOutcome r'.sequence r'.fingerprint outcome', mode'⟩ := by
  cases h with
  | ok hdata => exact ⟨rfl, rfl, hdata⟩
  | err failure => exact ⟨rfl, rfl, .refl _⟩

theorem executeGated_sameButSecrets (hoffice : s.adapters.ServedByOffice)
    (hmode : s.adapters.modeOf r ≠ .replay)
    (hmatching : s.config.policy.matching = .operation)
    (hqueue : st'.approvals.matching = .operation)
    (h : r.SameButSecrets r') (hst : st.SameButSecrets st') :
    (s.executeGated r st).executed.ShowsSame
        (s.executeGated r' st').executed ∧
      (s.executeGated r st).state.SameButSecrets
        (s.executeGated r' st').state := by
  have hpeek : s.config.policy.peek r' st'.approvals =
      s.config.policy.peek r st.approvals :=
    peek_sameButSecrets h hqueue hst.approvals_eq
  have hwaits : (st'.approvals.unresolvedFor? r'.operation r'.digest).map
      (·.id) = (st.approvals.unresolvedFor? r.operation r.digest).map
        (·.id) := by
    rw [h.operation_eq,
      Approval.Queue.unresolvedFor?_of_operation hqueue _ r.digest,
      Approval.Queue.unresolvedFor?_id hst.approvals_eq]
  cases haction : (s.config.policy.peek r st.approvals).action with
  | deny =>
      rw [executeGated_of_denied haction,
        executeGated_of_denied (hpeek ▸ haction), hpeek, h.operation_eq]
      exact ⟨⟨rfl, rfl, .refl _⟩, hst⟩
  | allow =>
      obtain ⟨houtcome, hafter⟩ := serve_sameButSecrets hoffice hmode h hst
      rw [executeGated_of_allowed haction,
        executeGated_of_allowed (hpeek ▸ haction), hpeek]
      exact ⟨showsSame_of_outcome houtcome r r' _ _, hafter⟩
  | requireApproval =>
      cases hwaiting : st.approvals.unresolvedFor? r.operation r.digest with
      | some a =>
          rw [hwaiting] at hwaits
          obtain ⟨b, hb, hid⟩ := Option.map_eq_some_iff.1 hwaits
          rw [executeGated_of_waiting haction hwaiting,
            executeGated_of_waiting (hpeek ▸ haction) hb, hpeek, hid,
            h.operation_eq]
          exact ⟨⟨rfl, rfl, .refl _⟩, hst⟩
      | none =>
          rw [hwaiting] at hwaits
          have hnone := Option.map_eq_none_iff.1 hwaits
          have hid := Approval.Queue.nextId_eq_of_unasked hst.approvals_eq
          rw [executeGated_of_asking haction hwaiting,
            executeGated_of_asking (hpeek ▸ haction) hnone, hpeek, hid,
            h.operation_eq, h.sequence_eq]
          refine ⟨⟨rfl, rfl, .refl _⟩, hst.queues ?_⟩
          rw [targetFor_of_operation hmatching,
            targetFor_of_operation hmatching]
          exact Approval.Queue.unasked_enqueue_of_unasked hst.approvals_eq
            _ _ _ _

/-! ## Controls -/

theorem controlOperation_maskMembers (s : SessionSetup) (args : Arguments) :
    s.controlOperation (Redaction.maskMembers args) =
      s.controlOperation args := by
  have hservice : Redaction.isSecretName "service" = false := by decide +kernel
  have hoperation : Redaction.isSecretName "operation" = false := by
    decide +kernel
  rw [controlOperation, controlOperation,
    Redaction.text?_member?_maskMembers hservice,
    Redaction.text?_member?_maskMembers hoperation]

/-- What a control is about is no secret, unless approvals are matched by the
arguments of calls. -/
theorem controlTarget_maskMembers
    (hmatching : s.config.policy.matching = .operation) (args : Arguments) :
    s.controlTarget (Redaction.maskMembers args) = s.controlTarget args := by
  have hargs : Redaction.isSecretName "args" = false := by decide +kernel
  rw [controlTarget, controlTarget, controlOperation_maskMembers,
    Redaction.member?_maskMembers hargs]
  cases s.controlOperation args with
  | error e => rfl
  | ok operation =>
      cases Json.member? "args" args with
      | none => rfl
      | some v =>
          dsimp only [Option.map_some]
          rw [Redaction.ofValue_mask]
          cases Arguments.ofValue operation v with
          | error e => rfl
          | ok members =>
              dsimp only [Except.map]
              rw [targetFor_of_operation hmatching,
                targetFor_of_operation hmatching]

theorem controlTarget_sameButSecrets
    (hmatching : s.config.policy.matching = .operation)
    (h : r.SameButSecrets r') :
    s.controlTarget r'.args = s.controlTarget r.args := by
  have hmask : Redaction.maskMembers r.args = Redaction.maskMembers r'.args :=
    Json.obj.inj h.args
  rw [← controlTarget_maskMembers hmatching, ← hmask,
    controlTarget_maskMembers hmatching]

theorem controlRequest_sameButSecrets (h : r.SameButSecrets r')
    (hst : st.SameButSecrets st') :
    (s.controlRequest r target st).executed.ShowsSame
        (s.controlRequest r' target st').executed ∧
      (s.controlRequest r target st).state.SameButSecrets
        (s.controlRequest r' target st').state := by
  have hopen := Approval.Queue.openFor?_id hst.approvals_eq target
  rw [controlRequest, controlRequest]
  cases hwaiting : st.approvals.openFor? target with
  | some a =>
      rw [hwaiting] at hopen
      obtain ⟨b, hb, hid⟩ := Option.map_eq_some_iff.1 hopen
      rw [hb]
      dsimp only
      rw [hid]
      exact ⟨⟨rfl, rfl, .refl _⟩, hst⟩
  | none =>
      rw [hwaiting] at hopen
      have hid := Approval.Queue.nextId_eq_of_unasked hst.approvals_eq
      rw [Option.map_eq_none_iff.1 hopen]
      dsimp only
      rw [hid, h.sequence_eq]
      exact ⟨⟨rfl, rfl, .refl _⟩, hst.queues
        (Approval.Queue.unasked_enqueue_of_unasked hst.approvals_eq _ _ _ _)⟩

theorem controlStatus_sameButSecrets (r r' : Request)
    (hst : st.SameButSecrets st') :
    (controlStatus r target st).ShowsSame (controlStatus r' target st') := by
  have hlatest := Approval.Queue.latestFor?_shown hst.approvals_eq target
  rw [controlStatus, controlStatus]
  cases hfound : st.approvals.latestFor? target with
  | none =>
      rw [hfound] at hlatest
      rw [Option.map_eq_none_iff.1 hlatest]
      exact ⟨rfl, rfl, .refl _⟩
  | some a =>
      rw [hfound] at hlatest
      obtain ⟨b, hb, hba⟩ := Option.map_eq_some_iff.1 hlatest
      obtain ⟨hid, hresolution⟩ := Prod.mk.inj hba
      rw [hb]
      dsimp only [Option.map_some]
      rw [hid, hresolution]
      exact ⟨rfl, rfl, .refl _⟩

theorem controlDecide_sameButSecrets {resolution : Approval.Resolution}
    (h : r.SameButSecrets r') (hst : st.SameButSecrets st') :
    (s.controlDecide r target resolution st).executed.ShowsSame
        (s.controlDecide r' target resolution st').executed ∧
      (s.controlDecide r target resolution st).state.SameButSecrets
        (s.controlDecide r' target resolution st').state := by
  rw [controlDecide, controlDecide, h.sequence_eq]
  rcases Approval.Queue.decide_of_unasked hst.approvals_eq target resolution
      r.sequence with
    ⟨e, hq, hq'⟩ | ⟨decided, decided', after, after', hq, hq', hids, hafter⟩
  · rw [hq, hq']
    exact ⟨⟨rfl, rfl, .refl _⟩, hst⟩
  · have hnames : decided'.map (fun a => Json.str a.id) =
        decided.map fun a => Json.str a.id := by
      have hstrings := congrArg (List.map Json.str) hids
      rw [List.map_map, List.map_map] at hstrings
      exact hstrings
    rw [hq, hq']
    dsimp only
    rw [hnames]
    exact ⟨⟨rfl, rfl, .refl _⟩, hst.queues hafter⟩

/-- A control that does not list the queue shows nothing of who asked. -/
theorem executeControl_sameButSecrets {c : ApprovalControl} (hc : c ≠ .list)
    (hmatching : s.config.policy.matching = .operation)
    (h : r.SameButSecrets r') (hst : st.SameButSecrets st') :
    (s.executeControl r c st).executed.ShowsSame
        (s.executeControl r' c st').executed ∧
      (s.executeControl r c st).state.SameButSecrets
        (s.executeControl r' c st').state := by
  rw [executeControl, executeControl, if_neg hc, if_neg hc,
    controlTarget_sameButSecrets hmatching h]
  cases s.controlTarget r.args with
  | error message => exact ⟨⟨rfl, rfl, .refl _⟩, hst⟩
  | ok target =>
      cases c with
      | list => exact absurd rfl hc
      | request => exact controlRequest_sameButSecrets h hst
      | status => exact ⟨controlStatus_sameButSecrets r r' hst, hst⟩
      | approve => exact controlDecide_sameButSecrets h hst
      | deny => exact controlDecide_sameButSecrets h hst

theorem execute_sameButSecrets {route : Route}
    (hoffice : s.adapters.ServedByOffice)
    (hmode : s.adapters.modeOf r ≠ .replay)
    (hmatching : s.config.policy.matching = .operation)
    (hqueue : st'.approvals.matching = .operation)
    (hroute : route ≠ .control .list)
    (h : r.SameButSecrets r') (hst : st.SameButSecrets st') :
    (s.execute r route st).executed.ShowsSame
        (s.execute r' route st').executed ∧
      (s.execute r route st).state.SameButSecrets
        (s.execute r' route st').state := by
  cases route with
  | adapter =>
      exact executeGated_sameButSecrets hoffice hmode hmatching hqueue h hst
  | control c =>
      have hc : c ≠ .list := fun hlist => hroute (congrArg _ hlist)
      exact executeControl_sameButSecrets hc hmatching h hst

/-! ## Calls and runs -/

/-- Of calls that differ in secrets at most neither is taken up, or they are
requests that differ in secrets at most. -/
theorem requestFor_sameButSecrets {args args' : Json}
    (hargs : SameButSecrets args args') (hst : st.SameButSecrets st')
    (s : SessionSetup) (operation : OperationId) :
    (∃ e, s.requestFor operation args st = .error e ∧
        s.requestFor operation args' st' = .error e) ∨
      ∃ r r' route, s.requestFor operation args st = .ok (r, route) ∧
        s.requestFor operation args' st' = .ok (r', route) ∧
        r.SameButSecrets r' := by
  rw [requestFor, requestFor, hst.closed_eq, hst.sequence_eq]
  split
  · exact Or.inl ⟨_, rfl, rfl⟩
  · cases s.registry.get? operation with
    | none => exact Or.inl ⟨_, rfl, rfl⟩
    | some spec =>
        have hmembers := congrArg (Arguments.ofValue spec.id) hargs
        rw [Redaction.ofValue_mask, Redaction.ofValue_mask] at hmembers
        dsimp only
        rw [Request.build, Request.build]
        rcases cases_of_map_eq hmembers with
          ⟨e, hread, hread'⟩ | ⟨members, members', hread, hread', hmask⟩
        · rw [hread, hread']
          exact Or.inl ⟨_, rfl, rfl⟩
        · rw [hread, hread']
          exact Or.inr ⟨_, _, spec.route, rfl, rfl, rfl, rfl, rfl,
            congrArg Json.obj hmask⟩

/-- The receipts of calls that differ in secrets at most, and of ends that show
the same but for secrets, differ in their fingerprints alone. -/
theorem receiptOf_withoutFingerprint {e e' : Executed} {time : Timestamp}
    (h : r.SameButSecrets r') (he : e.ShowsSame e') :
    (receiptOf r' e' time).withoutFingerprint =
      (receiptOf r e time).withoutFingerprint := by
  have hargs := h.args.redact_eq
  rw [Redaction.redact, Redaction.redact] at hargs
  have hshown := he.shown.redact_eq
  rw [receiptOf, receiptOf, Receipt.withoutFingerprint,
    Receipt.withoutFingerprint]
  dsimp only
  rw [h.sequence_eq, h.operation_eq, h.risk_eq, he.decision_eq, he.status_eq,
    hargs, hshown]

theorem take_sameButSecrets {operation : OperationId} {args args' : Json}
    (hbuilt : s.registry.Built) (hoffice : s.adapters.ServedByOffice)
    (hmodes : ∀ service, s.config.modes.of service ≠ .replay)
    (hmatching : s.config.policy.matching = .operation)
    (hqueue : st'.approvals.matching = .operation)
    (hoperation : operation ≠ ApprovalControl.list.id)
    (hargs : SameButSecrets args args') (hst : st.SameButSecrets st') :
    (s.act st (.call operation args)).SameButSecrets
      (s.act st' (.call operation args')) := by
  rcases requestFor_sameButSecrets hargs hst s operation with
    ⟨e, hfound, hfound'⟩ | ⟨r, r', route, hfound, hfound', hr⟩
  · rw [act, act, take, take, hfound, hfound']
    exact hst
  · have hroute : route ≠ .control .list := by
      obtain ⟨-, spec, -, hspec, -, -, hroute⟩ := requestFor_eq_ok hfound
      intro hlist
      exact hoperation
        ((hbuilt.fits hspec).eq_control (hroute.symm.trans hlist)).1
    have hnumbered : SessionState.SameButSecrets
        { st with sequence := r.sequence }
        { st' with sequence := r'.sequence } :=
      ⟨hr.sequence_eq, hst.world, hst.approvals_eq, hst.receipts_eq,
        hst.clock_eq, hst.closed_eq⟩
    have hmode := hmodes r.operation.service
    obtain ⟨hexecuted, hafter⟩ := execute_sameButSecrets hoffice hmode
      hmatching (by exact hqueue) hroute hr hnumbered
    rw [act, act, take, take, hfound, hfound']
    dsimp only [Except.map]
    refine ⟨hafter.sequence_eq, hafter.world, hafter.approvals_eq, ?_, ?_,
      hafter.closed_eq⟩
    · rw [List.map_append, List.map_append, hafter.receipts_eq,
        hafter.clock_eq, List.map_singleton, List.map_singleton,
        receiptOf_withoutFingerprint hr hexecuted]
    · rw [hafter.clock_eq]

theorem close_sameButSecrets (hst : st.SameButSecrets st') :
    (s.act st .close).SameButSecrets (s.act st' .close) := by
  rw [act, act, close, close, hst.closed_eq]
  split
  · exact hst
  · refine ⟨hst.sequence_eq, hst.world, ?_, hst.receipts_eq, hst.clock_eq, rfl⟩
    dsimp only
    rw [Approval.Queue.expireAll, Approval.Queue.expireAll,
      Approval.Queue.unasked_resolveWhere fun _ => rfl,
      Approval.Queue.unasked_resolveWhere fun _ => rfl, hst.approvals_eq,
      hst.sequence_eq]

end SessionSetup

/-- The same thing done with a session, but for secrets in the arguments of a
call, and other than listing the queue. -/
inductive SessionAction.SameButSecrets : SessionAction → SessionAction → Prop
    where
  | call {operation : OperationId} {args args' : Json}
      (hoperation : operation ≠ ApprovalControl.list.id)
      (hargs : Redaction.SameButSecrets args args') :
      SameButSecrets (.call operation args) (.call operation args')
  | close : SameButSecrets .close .close

namespace SessionSetup

variable {s : SessionSetup} {st st' : SessionState}
  {actions actions' : List SessionAction}

theorem run_sameButSecrets (hbuilt : s.registry.Built)
    (hoffice : s.adapters.ServedByOffice)
    (hmodes : ∀ service, s.config.modes.of service ≠ .replay)
    (hmatching : s.config.policy.matching = .operation)
    (horderly : s.Orderly st')
    (hactions : List.Forall₂ SessionAction.SameButSecrets actions actions')
    (hst : st.SameButSecrets st') :
    (s.run st actions).SameButSecrets (s.run st' actions') := by
  induction hactions generalizing st st' with
  | nil => exact hst
  | cons hsame _ ih =>
      refine ih (horderly.act _) ?_
      cases hsame with
      | call hoperation hargs =>
          exact take_sameButSecrets hbuilt hoffice hmodes hmatching
            (horderly.matching.trans hmatching) hoperation hargs hst
      | close => exact close_sameButSecrets hst

end SessionSetup

namespace Session

/-- Take two sessions with the same setup, in which approvals are matched by
the operation, simulators are behind all adapters and none is replaying.  If
the calls of the two differ in secrets at most, wherever in the arguments these
stand, and none of them lists the queue, then the receipts of the two differ in
their fingerprints alone. -/
theorem secrets_stay_out_of_receipts {setup : SessionSetup}
    (hbuilt : setup.registry.Built) (hoffice : setup.adapters.ServedByOffice)
    (hmodes : ∀ service, setup.config.modes.of service ≠ .replay)
    (hmatching : setup.config.policy.matching = .operation) (snapshot : Json)
    (clock : Clock) (sink sink' : ReceiptSink)
    {actions actions' : List SessionAction}
    (hactions : List.Forall₂ SessionAction.SameButSecrets actions actions') :
    ((start setup snapshot clock sink').run actions').state.receipts.map
        Receipt.withoutFingerprint =
      ((start setup snapshot clock sink).run actions).state.receipts.map
        Receipt.withoutFingerprint := by
  rw [(run_eq (start setup snapshot clock sink') actions').2,
    (run_eq (start setup snapshot clock sink) actions).2]
  have hstart : (start setup snapshot clock sink).state.SameButSecrets
      (start setup snapshot clock sink').state :=
    ⟨rfl, ⟨rfl, fun _ => .nil⟩, rfl, rfl, rfl, rfl⟩
  have horderly := setup.orderly_start snapshot clock
  exact (SessionSetup.run_sameButSecrets hbuilt hoffice hmodes hmatching
    horderly hactions hstart).receipts_eq

/-- A mail with a password inside waits for an approval, is approved, is sent,
and is read back.  With another password the world is another one, and the
receipts are the same but for their fingerprints. -/
theorem mail_password_stays_out :
    let inbox : OperationId := ⟨"mail", "inbox"⟩
    let registry : Registry :=
      ⟨mailRegistry.specs.insert inbox (.viaAdapter inbox .read)⟩
    let setup : SessionSetup := { registry := registry }
    let mail (password : Json) : Json :=
      .obj [("auth", .obj [("password", password)]), ("to", .str "ada")]
    let approved : Json :=
      .obj [("operation", .str "send"), ("service", .str "mail")]
    let actions (password : Json) : List SessionAction :=
      [.call mailSend (mail password),
        .call ApprovalControl.approve.id approved,
        .call mailSend (mail password), .call inbox .null, .close]
    let final (password : Json) : SessionState :=
      ((start setup .null (.logical 0) .none).run (actions password)).state
    let first := final (.str "sesame")
    let second := final (.bool true)
    first.receipts.map (·.status) = [.pending, .ok, .ok, .ok] ∧
      first.world ≠ second.world ∧
      second.receipts.map Receipt.withoutFingerprint =
        first.receipts.map Receipt.withoutFingerprint := by
  intro inbox registry setup mail approved actions final first second
  have hregister : mailRegistry.register inbox .read = .ok registry := by
    decide +kernel
  have hbuilt : setup.registry.Built := .register mailRegistry_built hregister
  have hoffice : setup.adapters.ServedByOffice := ⟨rfl, rfl⟩
  have hmodes : ∀ service, setup.config.modes.of service ≠ .replay :=
    fun _ => nofun
  have hmail : SameButSecrets (mail (.str "sesame")) (mail (.bool true)) := by
    decide +kernel
  refine ⟨by decide +kernel, by decide +kernel, ?_⟩
  refine secrets_stay_out_of_receipts hbuilt hoffice hmodes rfl .null
    (.logical 0) .none .none ?_
  refine .cons (.call (by decide) hmail) (.cons (.call (by decide) rfl) ?_)
  refine .cons (.call (by decide) hmail) (.cons (.call (by decide) rfl) ?_)
  exact .cons .close .nil

end Session

end CallGate
