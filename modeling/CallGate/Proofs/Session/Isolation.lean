import CallGate.Proofs.Approval.Share
import CallGate.Proofs.Backend.Office
import CallGate.Proofs.Session.Asking
import CallGate.Proofs.Session.Takings
import Mathlib.Data.List.Forall2

/-!
# Services by themselves

Two runs that differ in what they do with other services are the same for a
service.  A call is about the service of its adapter, or about that of the
operation that a control names.  A call about another service leaves the
records of the service and its share of the queue as they are, and all that a
call about the service meets is its number, the snapshot, these records and
this share.
-/

namespace CallGate

/-- Two ends of a call with the same decision, in the same mode and with the
same status, and with the same response when an adapter served the call. -/
structure Executed.Agrees (e e' : Executed) : Prop where
  decision_eq : e'.decision = e.decision
  mode_eq : e'.mode = e.mode
  status_eq : e'.response.status = e.response.status
  response_eq : e.mode.isSome = true → e'.response = e.response

theorem Executed.Agrees.of_unserved {e e' : Executed}
    (hdecision : e'.decision = e.decision) (hmode : e.mode = none)
    (hmode' : e'.mode = none)
    (hstatus : e'.response.status = e.response.status) : e.Agrees e' where
  decision_eq := hdecision
  mode_eq := hmode'.trans hmode.symm
  status_eq := hstatus
  response_eq := by
    intro hserved
    rw [hmode] at hserved
    contradiction

/-- States that are the same for a service. -/
structure SessionState.AlikeFor (service : String) (st st' : SessionState) :
    Prop where
  sequence_eq : st'.sequence = st.sequence
  world : World.AlikeFor service st.world st'.world
  share_eq : st'.approvals.share service = st.approvals.share service

namespace SessionState.AlikeFor

variable {service : String} {st st' st'' : SessionState}

theorem symm (h : AlikeFor service st st') : AlikeFor service st' st :=
  ⟨h.sequence_eq.symm, h.world.symm, h.share_eq.symm⟩

theorem trans (h : AlikeFor service st st')
    (h' : AlikeFor service st' st'') : AlikeFor service st st'' :=
  ⟨h'.sequence_eq.trans h.sequence_eq, h.world.trans h'.world,
    h'.share_eq.trans h.share_eq⟩

/-- The states in which the next call is carried out. -/
theorem numbered (h : AlikeFor service st st') :
    AlikeFor service { st with sequence := st.sequence + 1 }
      { st' with sequence := st'.sequence + 1 } :=
  ⟨congrArg (· + 1) h.sequence_eq, h.world, h.share_eq⟩

end SessionState.AlikeFor

namespace SessionSetup

variable {s : SessionSetup} {service : String} {st st' : SessionState}
  {operation : OperationId} {args : Json} {r : Request} {route : Route}
  {t t' : Taken} {spec : OperationSpec} {members : Arguments}
  {e : Execution} {target : Approval.Target} {c : ApprovalControl}

/-- The service that a request is about: its own when it goes to an adapter,
and that of the operation that its arguments name when it is a control. -/
def serviceOf? (s : SessionSetup) (r : Request) : Route → Option String
  | .adapter => some r.operation.service
  | .control _ => (s.controlOperation r.args).toOption.map (·.service)

theorem serviceOf?_control (htarget : s.controlTarget r.args = .ok target)
    (c : ApprovalControl) :
    s.serviceOf? r (.control c) = some target.operation.service := by
  rw [serviceOf?, controlOperation_of_controlTarget htarget]
  rfl

/-! ## Calls about other services -/

/-- A call about another service leaves the share of the service as it is.  The
queue changes only by what a call asks for or decides about, and that is for the
service that the call is about. -/
theorem TakesUp.share_eq_of_ne
    (h : s.TakesUp operation args st t spec members e)
    (hmatching : st.approvals.matching = s.config.policy.matching)
    (hne : s.serviceOf? t.request spec.route ≠ some service) :
    t.state.approvals.share service = st.approvals.share service := by
  have heffect := h.effect hmatching
  generalize hq : t.state.approvals = q at heffect ⊢
  cases heffect with
  | kept => rfl
  | asked target hopen =>
      have hasks := h.asks hq
      generalize spec.route = route at hasks hne
      apply Approval.Queue.share_enqueue_of_ne
      rintro rfl
      cases hasks with
      | gated => exact hne rfl
      | requested htarget => exact hne (serviceOf?_control htarget _)
  | decided c target resolution hroute hc htarget hok =>
      rw [hroute, serviceOf?_control htarget] at hne
      exact Approval.Queue.share_decided_of_ne fun heq => hne (heq ▸ rfl)

/-! ## Calls about the service -/

theorem serve_agrees (hoffice : s.adapters.ServedByOffice)
    (halike : SessionState.AlikeFor r.operation.service st st') :
    (s.serve r st').1 = (s.serve r st).1 ∧
      SessionState.AlikeFor r.operation.service (s.serve r st).2
        (s.serve r st').2 := by
  obtain ⟨houtcome, hworld⟩ :=
    Adapters.execute_congr hoffice s.config.seed halike.world
  obtain ⟨hserved, hafter⟩ := s.serve_eq_execute r st
  obtain ⟨hserved', hafter'⟩ := s.serve_eq_execute r st'
  refine ⟨by rw [hserved, hserved', houtcome], ?_, ?_, ?_⟩
  · rw [serve_state, serve_state s r st]
    exact halike.sequence_eq
  · rw [hafter, hafter']
    exact hworld
  · rw [serve_state, serve_state s r st]
    exact halike.share_eq

/-- A gated call gets the same decision, and when it is let through the same
response. -/
theorem executeGated_agrees (hoffice : s.adapters.ServedByOffice)
    (halike : SessionState.AlikeFor r.operation.service st st') :
    (s.executeGated r st).executed.Agrees (s.executeGated r st').executed ∧
      SessionState.AlikeFor r.operation.service (s.executeGated r st).state
        (s.executeGated r st').state := by
  have hpeek : s.config.policy.peek r st'.approvals =
      s.config.policy.peek r st.approvals := by
    rw [Policy.peek, Policy.peek, ← Policy.decide_share rfl,
      halike.share_eq, Policy.decide_share rfl]
  have hunresolved :
      (st'.approvals.unresolvedFor? r.operation r.digest).map
          Approval.unnamed =
        (st.approvals.unresolvedFor? r.operation r.digest).map
          Approval.unnamed := by
    rw [← Approval.Queue.unresolvedFor?_share rfl, halike.share_eq,
      Approval.Queue.unresolvedFor?_share rfl]
  cases haction : (s.config.policy.peek r st.approvals).action with
  | deny =>
      rw [executeGated_of_denied haction,
        executeGated_of_denied (hpeek ▸ haction), hpeek]
      exact ⟨.of_unserved rfl rfl rfl rfl, halike⟩
  | allow =>
      obtain ⟨houtcome, hafter⟩ := serve_agrees hoffice halike
      rw [executeGated_of_allowed haction,
        executeGated_of_allowed (hpeek ▸ haction), hpeek, houtcome]
      exact ⟨⟨rfl, rfl, rfl, fun _ => rfl⟩, hafter⟩
  | requireApproval =>
      cases hwaiting :
          st.approvals.unresolvedFor? r.operation r.digest with
      | some a =>
          rw [hwaiting] at hunresolved
          obtain ⟨b, hb, -⟩ := Option.map_eq_some_iff.1 hunresolved
          rw [executeGated_of_waiting haction hwaiting,
            executeGated_of_waiting (hpeek ▸ haction) hb, hpeek]
          exact ⟨.of_unserved rfl rfl rfl rfl, halike⟩
      | none =>
          rw [hwaiting] at hunresolved
          have hnone := Option.map_eq_none_iff.1 hunresolved
          rw [executeGated_of_asking haction hwaiting,
            executeGated_of_asking (hpeek ▸ haction) hnone, hpeek]
          exact ⟨.of_unserved rfl rfl rfl rfl, halike.sequence_eq, halike.world,
            Approval.Queue.share_enqueue_congr halike.share_eq _ _ _⟩

/-- What waits for a decision about an operation of the service waits for it
in both states. -/
theorem openFor?_agrees
    (halike : SessionState.AlikeFor target.operation.service st st') :
    (st'.approvals.openFor? target).map Approval.unnamed =
      (st.approvals.openFor? target).map Approval.unnamed := by
  rw [← Approval.Queue.openFor?_share rfl, halike.share_eq,
    Approval.Queue.openFor?_share rfl]

theorem controlRequest_agrees
    (halike : SessionState.AlikeFor target.operation.service st st') :
    (s.controlRequest r target st).executed.Agrees
        (s.controlRequest r target st').executed ∧
      SessionState.AlikeFor target.operation.service
        (s.controlRequest r target st).state
        (s.controlRequest r target st').state := by
  have hopen := openFor?_agrees halike
  rw [controlRequest, controlRequest]
  cases hwaiting : st.approvals.openFor? target with
  | some a =>
      rw [hwaiting] at hopen
      obtain ⟨b, hb, -⟩ := Option.map_eq_some_iff.1 hopen
      rw [hb]
      exact ⟨.of_unserved rfl rfl rfl rfl, halike⟩
  | none =>
      rw [hwaiting] at hopen
      rw [Option.map_eq_none_iff.1 hopen]
      exact ⟨.of_unserved rfl rfl rfl rfl, halike.sequence_eq, halike.world,
        Approval.Queue.share_enqueue_congr halike.share_eq _ _ _⟩

theorem controlDecide_agrees {resolution : Approval.Resolution}
    (hdecision : resolution.isDecision = true)
    (halike : SessionState.AlikeFor target.operation.service st st') :
    (s.controlDecide r target resolution st).executed.Agrees
        (s.controlDecide r target resolution st').executed ∧
      SessionState.AlikeFor target.operation.service
        (s.controlDecide r target resolution st).state
        (s.controlDecide r target resolution st').state := by
  have hopen := openFor?_agrees halike
  rw [controlDecide, controlDecide]
  cases hwaiting : st.approvals.openFor? target with
  | none =>
      rw [hwaiting] at hopen
      rw [Approval.Queue.decide_of_openFor?_eq_none hdecision hwaiting,
        Approval.Queue.decide_of_openFor?_eq_none hdecision
          (Option.map_eq_none_iff.1 hopen)]
      exact ⟨.of_unserved rfl rfl rfl rfl, halike⟩
  | some a =>
      rw [hwaiting] at hopen
      obtain ⟨b, hb, -⟩ := Option.map_eq_some_iff.1 hopen
      obtain ⟨decided, hdecided⟩ :=
        Approval.Queue.decide_of_openFor?_eq_some hdecision hwaiting
          r.sequence
      obtain ⟨decided', hdecided'⟩ :=
        Approval.Queue.decide_of_openFor?_eq_some hdecision hb r.sequence
      rw [hdecided, hdecided']
      exact ⟨.of_unserved rfl rfl rfl rfl, halike.sequence_eq, halike.world,
        Approval.Queue.share_decided_congr halike.share_eq _ _ _⟩

/-- A control about an operation of the service goes through in both states or
in neither. -/
theorem executeControl_agrees {c : ApprovalControl}
    (habout : s.serviceOf? r (.control c) = some service)
    (halike : SessionState.AlikeFor service st st') :
    (s.executeControl r c st).executed.Agrees
        (s.executeControl r c st').executed ∧
      SessionState.AlikeFor service (s.executeControl r c st).state
        (s.executeControl r c st').state := by
  rw [executeControl, executeControl]
  split
  · exact ⟨.of_unserved rfl rfl rfl rfl, halike⟩
  · cases htarget : s.controlTarget r.args with
    | error message => exact ⟨.of_unserved rfl rfl rfl rfl, halike⟩
    | ok target =>
        rw [serviceOf?_control htarget] at habout
        cases habout
        cases c with
        | list => exact ⟨.of_unserved rfl rfl rfl rfl, halike⟩
        | request => exact controlRequest_agrees halike
        | status => exact ⟨.of_unserved rfl rfl rfl rfl, halike⟩
        | approve => exact controlDecide_agrees rfl halike
        | deny => exact controlDecide_agrees rfl halike

theorem execute_agrees (hoffice : s.adapters.ServedByOffice)
    (habout : s.serviceOf? r route = some service)
    (halike : SessionState.AlikeFor service st st') :
    (s.execute r route st).executed.Agrees
        (s.execute r route st').executed ∧
      SessionState.AlikeFor service (s.execute r route st).state
        (s.execute r route st').state := by
  cases route with
  | control c => exact executeControl_agrees habout halike
  | adapter =>
      cases habout
      exact executeGated_agrees hoffice halike

end SessionSetup

namespace Taking

variable {s : SessionSetup} {service : String} {x y : Taking}

/-- The service that the call is about. -/
def about? (s : SessionSetup) (x : Taking) : Option String :=
  (s.registry.get? x.operation).bind fun spec =>
    s.serviceOf? x.taken.request spec.route

/-- Calls at the same place of two runs: they are the same, or neither is
about the service. -/
def Aligned (s : SessionSetup) (service : String) (x y : Taking) : Prop :=
  (y.operation = x.operation ∧ y.args = x.args) ∨
    (x.about? s ≠ some service ∧ y.about? s ≠ some service)

instance (s : SessionSetup) (service : String) (x y : Taking) :
    Decidable (Aligned s service x y) :=
  inferInstanceAs (Decidable (_ ∨ _))

/-- A call about another service is of no matter but for its number. -/
theorem Valid.alikeFor_of_ne (h : x.Valid s)
    (hoffice : s.adapters.ServedByOffice)
    (horderly : s.Orderly x.found) (hne : x.about? s ≠ some service) :
    SessionState.AlikeFor service
      { x.found with sequence := x.found.sequence + 1 } x.taken.state := by
  obtain ⟨spec, members, e, htakes⟩ := SessionSetup.take_eq_ok h
  have hother : s.serviceOf? x.taken.request spec.route ≠ some service := by
    rwa [about?, htakes.spec_eq] at hne
  refine ⟨htakes.state_sequence, ?_,
    htakes.share_eq_of_ne horderly.matching hother⟩
  cases hmode : x.taken.executed.mode with
  | none =>
      rw [(h.unserved hmode).2.1]
      exact .refl service _
  | some mode =>
      have hserved := h.servedIn hmode
      obtain ⟨spec', hspec', hroute⟩ := hserved.forAdapter
      cases hspec'.symm.trans htakes.spec_eq
      rw [hroute] at hother
      rw [hserved.world_eq, served]
      apply Adapters.alikeFor_execute_of_ne hoffice
      rintro rfl
      exact hother rfl

/-- The same call under the same number is the same request. -/
theorem Valid.request_eq (hx : x.Valid s) (hy : y.Valid s)
    (hsequence : y.found.sequence = x.found.sequence)
    (hoperation : y.operation = x.operation) (hargs : y.args = x.args) :
    y.taken.request = x.taken.request := by
  obtain ⟨spec, members, e, htakes⟩ := SessionSetup.take_eq_ok hx
  obtain ⟨spec', members', e', htakes'⟩ := SessionSetup.take_eq_ok hy
  rw [hoperation, hargs] at htakes'
  cases htakes.spec_eq.symm.trans htakes'.spec_eq
  cases htakes.members_eq.symm.trans htakes'.members_eq
  rw [htakes'.request_eq, htakes.request_eq, hsequence]

theorem about?_congr (hoperation : y.operation = x.operation)
    (hrequest : y.taken.request = x.taken.request) :
    y.about? s = x.about? s := by
  rw [about?, about?, hoperation, hrequest]

/-- The same call about the service ends alike in states that are the same for
the service, and leaves such states. -/
theorem Valid.agrees (hx : x.Valid s) (hy : y.Valid s)
    (hoffice : s.adapters.ServedByOffice)
    (halike : SessionState.AlikeFor service x.found y.found)
    (hoperation : y.operation = x.operation) (hargs : y.args = x.args)
    (habout : x.about? s = some service) :
    x.taken.executed.Agrees y.taken.executed ∧
      SessionState.AlikeFor service x.taken.state y.taken.state := by
  obtain ⟨spec, members, e, htakes⟩ := SessionSetup.take_eq_ok hx
  obtain ⟨spec', members', e', htakes'⟩ := SessionSetup.take_eq_ok hy
  have hrequest :=
    hx.request_eq hy halike.sequence_eq hoperation hargs
  rw [hoperation] at htakes'
  cases htakes.spec_eq.symm.trans htakes'.spec_eq
  rw [about?, htakes.spec_eq] at habout
  obtain ⟨hagrees, hafter⟩ :=
    SessionSetup.execute_agrees hoffice habout halike.numbered
  rw [← htakes.execution_eq, ← hrequest, ← htakes'.execution_eq]
    at hagrees hafter
  rw [htakes.executed_eq, htakes'.executed_eq, htakes.state_eq,
    htakes'.state_eq]
  exact ⟨hagrees, hafter.sequence_eq, hafter.world, hafter.share_eq⟩

/-- Aligned calls leave states that are the same for the service. -/
theorem Valid.alikeFor_of_aligned (hx : x.Valid s) (hy : y.Valid s)
    (hoffice : s.adapters.ServedByOffice) (hxorderly : s.Orderly x.found)
    (hyorderly : s.Orderly y.found)
    (halike : SessionState.AlikeFor service x.found y.found)
    (haligned : Aligned s service x y) :
    (x.about? s = some service →
        x.taken.executed.Agrees y.taken.executed) ∧
      SessionState.AlikeFor service x.taken.state y.taken.state := by
  by_cases habout : x.about? s = some service
  · rcases haligned with ⟨hoperation, hargs⟩ | ⟨hnot, -⟩
    · obtain ⟨hagrees, hafter⟩ :=
        hx.agrees hy hoffice halike hoperation hargs habout
      exact ⟨fun _ => hagrees, hafter⟩
    · exact absurd habout hnot
  · have hother : y.about? s ≠ some service := by
      rcases haligned with ⟨hoperation, hargs⟩ | ⟨-, hnot⟩
      · rwa [about?_congr hoperation
          (hx.request_eq hy halike.sequence_eq hoperation hargs)]
      · exact hnot
    have hxafter := hx.alikeFor_of_ne hoffice hxorderly habout
    have hyafter := hy.alikeFor_of_ne hoffice hyorderly hother
    have hnumbered := halike.numbered
    exact ⟨fun h => absurd h habout,
      hxafter.symm.trans (hnumbered.trans hyafter)⟩

end Taking

namespace SessionSetup

variable {s : SessionSetup} {service : String} {st st' : SessionState}
  {actions actions' : List SessionAction}

/-- Runs with aligned calls from states that are the same for the service.  The
induction is on the calls, as the runs may differ in what they do not take
up. -/
theorem takings_agree (hoffice : s.adapters.ServedByOffice)
    (horderly : s.Orderly st) (horderly' : s.Orderly st')
    (halike : SessionState.AlikeFor service st st')
    (haligned : List.Forall₂ (Taking.Aligned s service)
      (s.takings st actions) (s.takings st' actions')) :
    List.Forall₂
      (fun x y => x.about? s = some service →
        x.taken.executed.Agrees y.taken.executed)
      (s.takings st actions) (s.takings st' actions') := by
  generalize hxs : s.takings st actions = xs at haligned ⊢
  generalize hys : s.takings st' actions' = ys at haligned ⊢
  induction haligned generalizing st st' actions actions' with
  | nil => exact .nil
  | cons hfirst _ ih =>
      obtain ⟨hx, rfl, later, hlater⟩ := takings_eq_cons hxs
      obtain ⟨hy, rfl, later', hlater'⟩ := takings_eq_cons hys
      obtain ⟨hagrees, hafter⟩ :=
        hx.alikeFor_of_aligned hy hoffice horderly horderly' halike hfirst
      exact .cons hagrees (ih (horderly.take hx) (horderly'.take hy) hafter
        hlater.symm hlater'.symm)

end SessionSetup

namespace Session

/-- Take two sessions with the same setup, with simulators behind all adapters
that are not replaying, and the same snapshot.  If the calls that they take up
are the same wherever one of them goes to a service or is a control that names
an operation of it, then each of these gets the same decision and the same
status in both, and the same response when it reaches an adapter, whatever
else the two take up in between. -/
theorem service_isolated {setup : SessionSetup}
    (hoffice : setup.adapters.ServedByOffice) (service : String)
    (snapshot : Json) (clock clock' : Clock) (sink sink' : ReceiptSink)
    (actions actions' : List SessionAction)
    (haligned : List.Forall₂ (Taking.Aligned setup service)
      (setup.takings (start setup snapshot clock sink).state actions)
      (setup.takings (start setup snapshot clock' sink').state actions')) :
    List.Forall₂
      (fun x y => x.about? setup = some service →
        x.taken.executed.Agrees y.taken.executed)
      (setup.takings (start setup snapshot clock sink).state actions)
      (setup.takings (start setup snapshot clock' sink').state actions') :=
  SessionSetup.takings_agree hoffice (setup.orderly_start snapshot clock)
    (setup.orderly_start snapshot clock') ⟨rfl, .refl service _, rfl⟩ haligned

/-- A mail waits for an approval, is approved and is sent.  Whether a chat
asked for an approval before it or all approvals were listed is nothing to the
mail, though its approval has another id. -/
theorem mail_isolated_from_chat :
    let chatPost : OperationId := ⟨"chat", "post"⟩
    let registry : Registry :=
      ⟨mailRegistry.specs.insert chatPost (.viaAdapter chatPost .writeRisky)⟩
    let setup : SessionSetup := { registry := registry }
    let approved : Json :=
      .obj [("operation", .str "send"), ("service", .str "mail")]
    let mails : List SessionAction :=
      [.call mailSend .null, .call ApprovalControl.approve.id approved,
        .call mailSend .null]
    let first := (start setup .null (.logical 0) .none).state
    let xs := setup.takings first (.call chatPost .null :: mails)
    let ys := setup.takings first
      (.call ApprovalControl.list.id .null :: mails)
    xs.map (·.about? setup) =
        [some "chat", some "mail", some "mail", some "mail"] ∧
      ys.map (·.about? setup) =
        [none, some "mail", some "mail", some "mail"] ∧
      xs.map (·.taken.executed.mode) = [none, none, none, some .sim] ∧
      List.Forall₂
        (fun x y => x.about? setup = some "mail" →
          x.taken.executed.Agrees y.taken.executed) xs ys := by
  intro chatPost registry setup approved mails first xs ys
  have hoffice : setup.adapters.ServedByOffice := ⟨rfl, rfl⟩
  have haligned :
      List.Forall₂ (Taking.Aligned setup "mail") xs ys := by
    decide +kernel
  refine ⟨by decide +kernel, by decide +kernel, by decide +kernel, ?_⟩
  exact service_isolated hoffice "mail" .null (.logical 0) (.logical 0) .none
    .none (.call chatPost .null :: mails)
    (.call ApprovalControl.list.id .null :: mails) haligned

end Session

end CallGate
