import CallGate.Proofs.Approval.Lifecycle
import CallGate.Proofs.Operation.Legible
import CallGate.Proofs.Session.Runs
import Mathlib.Data.List.Forall2
import Mathlib.Data.List.Nodup

/-!
# What the audit is told of approvals

Whatever changes the queue of a session tells the audit of it: that an approval
was asked for, or how it ended.  So the queue can be put together again from
the trail alone, and the trail has no other approvals in it.  What is written of
the trail has the text of an operation in place of its id, so it tells the text
in every case, and the id whenever that can be read from its text.
-/

namespace CallGate

/-- The event, when it is the change of an approval. -/
def AuditEvent.approval? : AuditEvent → Option ApprovalEvent
  | .approval e => some e
  | .dispatch _ | .episode _ => none

theorem AuditEvent.filterMap_approval? {α : Type} (l : List α)
    (f : α → ApprovalEvent) :
    (l.map fun a => AuditEvent.approval (f a)).filterMap
      AuditEvent.approval? = l.map f := by
  rw [List.filterMap_map]
  exact congrFun List.filterMap_eq_map l

/-! ## What is written of an event -/

theorem Approval.Resolution.encode_inj {r r' : Approval.Resolution} :
    r.encode = r'.encode ↔ r = r' := by
  rw [encode, encode, Json.str.injEq]
  cases r <;> cases r' <;> decide

namespace ApprovalEvent

/-- Events that differ at most in operations, which have the same text. -/
structure Alike (e e' : ApprovalEvent) : Prop where
  session_eq : e.session = e'.session
  approval_eq : e.approval = e'.approval
  text_eq : e.operation.display = e'.operation.display
  resolution_eq : e.resolution = e'.resolution
  sequence_eq : e.sequence = e'.sequence

theorem encode_eq_iff {e e' : ApprovalEvent} :
    (AuditEvent.approval e).encode = (AuditEvent.approval e').encode ↔
      e.Alike e' := by
  constructor
  · intro h
    simp only [AuditEvent.encode, OperationId.encode, Json.ofNat,
      Json.obj.injEq, List.cons.injEq, Prod.mk.injEq, Json.str.injEq,
      Json.num.injEq, Number.int.injEq, true_and, and_true,
      Int.natCast_inj] at h
    obtain ⟨happroval, htext, hresolution, hsequence, hsession⟩ := h
    exact ⟨hsession, happroval, htext,
      Approval.Resolution.encode_inj.1 hresolution, hsequence⟩
  · intro h
    simp only [AuditEvent.encode, OperationId.encode, h.session_eq,
      h.approval_eq, h.text_eq, h.resolution_eq, h.sequence_eq]

theorem forall₂_alike_of_encode_eq {events events' : List ApprovalEvent}
    (h : (events.map fun e => (AuditEvent.approval e).encode) =
      events'.map fun e => (AuditEvent.approval e).encode) :
    List.Forall₂ Alike events events' := by
  rw [← List.forall₂_eq_eq_eq, List.forall₂_map_left_iff,
    List.forall₂_map_right_iff] at h
  exact h.imp fun e e' he => encode_eq_iff.1 he

end ApprovalEvent

/-! ## Rebuilding a queue from events -/

/-- What events tell about an approval. -/
structure ToldApproval where
  id : String
  operation : OperationId
  requestedAt : Nat
  resolution : Approval.Resolution
  resolvedAt : Option Nat
  deriving DecidableEq

namespace ToldApproval

/-- What there is to tell about an approval. -/
def of (a : Approval) : ToldApproval :=
  ⟨a.id, a.target.operation, a.requestedAt, a.resolution, a.resolvedAt⟩

/-- The approval after an event about its end, which may be that of another. -/
def hearEnd (t : ToldApproval) (e : ApprovalEvent) : ToldApproval :=
  if t.id = e.approval then
    { t with resolution := e.resolution, resolvedAt := some e.sequence }
  else t

/-- The approvals after an event: there is a new one, or one has ended. -/
def hear (told : List ToldApproval) (e : ApprovalEvent) : List ToldApproval :=
  if e.resolution = .unresolved then
    told ++ [⟨e.approval, e.operation, e.sequence, .unresolved, none⟩]
  else told.map fun t => t.hearEnd e

/-- The approvals that events tell of, from the first event on. -/
def replay (events : List ApprovalEvent) : List ToldApproval :=
  events.foldl hear []

variable {t : ToldApproval} {told : List ToldApproval} {e : ApprovalEvent}
  {events : List ApprovalEvent}

theorem id_hearEnd (t : ToldApproval) (e : ApprovalEvent) :
    (t.hearEnd e).id = t.id := by
  rw [hearEnd]
  split <;> rfl

/-- Of all that ended an approval hears only its own events. -/
theorem foldl_hearEnd (t : ToldApproval) (events : List ApprovalEvent) :
    events.foldl hearEnd t =
      (events.filter fun e => e.approval = t.id).foldl hearEnd t := by
  induction events generalizing t with
  | nil => rfl
  | cons e rest ih =>
      rw [List.foldl_cons, ih, id_hearEnd]
      by_cases howned : e.approval = t.id
      · rw [List.filter_cons_of_pos (by simpa using howned),
          List.foldl_cons]
      · rw [List.filter_cons_of_neg (by simpa using howned), hearEnd,
          if_neg (Ne.symm howned)]

theorem foldl_hear (hended : ∀ e ∈ events, e.resolution ≠ .unresolved)
    (told : List ToldApproval) :
    events.foldl hear told = told.map fun t => events.foldl hearEnd t := by
  induction events generalizing told with
  | nil => simp
  | cons e rest ih =>
      have hrest := fun e he => hended e (List.mem_cons_of_mem _ he)
      rw [List.foldl_cons, ih hrest, hear,
        if_neg (hended e List.mem_cons_self), List.map_map]
      rfl

/-! ### Events that are written alike -/

/-- Approvals of which the same is told, but for the operations, which have the
same text. -/
structure Alike (t t' : ToldApproval) : Prop where
  id_eq : t.id = t'.id
  text_eq : t.operation.display = t'.operation.display
  requestedAt_eq : t.requestedAt = t'.requestedAt
  resolution_eq : t.resolution = t'.resolution
  resolvedAt_eq : t.resolvedAt = t'.resolvedAt

/-- Operations that can be read from their texts are the same. -/
theorem Alike.eq_of_isLegible {t' : ToldApproval} (h : t.Alike t')
    (hlegible : t.operation.IsLegible) (hlegible' : t'.operation.IsLegible) :
    t = t' := by
  have hoperation := OperationId.eq_of_display_eq hlegible hlegible' h.text_eq
  cases t
  cases t'
  rw [mk.injEq]
  exact ⟨h.id_eq, hoperation, h.requestedAt_eq, h.resolution_eq,
    h.resolvedAt_eq⟩

theorem Alike.hearEnd {t' : ToldApproval} {e' : ApprovalEvent}
    (h : t.Alike t') (he : e.Alike e') :
    (t.hearEnd e).Alike (t'.hearEnd e') := by
  rw [ToldApproval.hearEnd, ToldApproval.hearEnd, h.id_eq, he.approval_eq]
  split
  · exact ⟨rfl, h.text_eq, h.requestedAt_eq, he.resolution_eq,
      congrArg some he.sequence_eq⟩
  · exact ⟨h.id_eq, h.text_eq, h.requestedAt_eq, h.resolution_eq,
      h.resolvedAt_eq⟩

theorem hear_alike ⦃told told' : List ToldApproval⦄
    (htold : List.Forall₂ Alike told told') ⦃e e' : ApprovalEvent⦄
    (he : e.Alike e') : List.Forall₂ Alike (hear told e) (hear told' e') := by
  rw [hear, hear, he.resolution_eq]
  split
  · exact List.rel_append htold (.cons
      ⟨he.approval_eq, he.text_eq, he.sequence_eq, rfl, rfl⟩ .nil)
  · rw [List.forall₂_map_left_iff, List.forall₂_map_right_iff]
    exact htold.imp fun t t' ht => ht.hearEnd he

theorem replay_alike {events' : List ApprovalEvent}
    (h : List.Forall₂ ApprovalEvent.Alike events events') :
    List.Forall₂ Alike (replay events) (replay events') :=
  List.rel_foldl hear_alike .nil h

end ToldApproval

/-- In a queue an id is that of one approval. -/
theorem Approval.Queue.Filed.filter_id {q : Approval.Queue} {a : Approval}
    (h : q.Filed) (ha : a ∈ q.entries) :
    q.entries.filter (fun b => b.id = a.id) = [a] := by
  have hnodup : q.entries.Nodup := List.Nodup.of_map _ h.nodup_ids
  have hsame : ∀ b ∈ q.entries,
      Decidable.decide (b.id = a.id) = Decidable.decide (b = a) := by
    intro b hb
    refine decide_eq_decide.2 ⟨h.eq_of_id_eq hb ha, ?_⟩
    rintro rfl
    rfl
  rw [List.filter_congr hsame, List.filter_eq,
    List.count_eq_one_of_mem hnodup ha, List.replicate_one]

/-- The next approval has an id of its own. -/
theorem Approval.Queue.Filed.id_ne_nextId {q : Approval.Queue} {a : Approval}
    (h : q.Filed) (ha : a ∈ q.entries) : a.id ≠ q.nextId := by
  obtain ⟨i, hi, rfl⟩ := List.getElem_of_mem ha
  intro heq
  rw [h.id_eq i _ (List.getElem?_eq_getElem hi)] at heq
  have hplace : i + 1 = q.entries.length + 1 :=
    Approval.Queue.idAt_injective heq
  omega

namespace SessionSetup

variable {s : SessionSetup} {st : SessionState} {operation : OperationId}
  {args : Json} {t : Taken} {r : Request} {q q' : Approval.Queue}
  {events : List ApprovalEvent} {target : Approval.Target} {n : Nat}

/-- The event that an approval was asked for. -/
def askedEvent (s : SessionSetup) (a : Approval) : ApprovalEvent :=
  ⟨s.config.id, a.id, a.target.operation, .unresolved, a.requestedAt⟩

/-- The event that an approval got a resolution. -/
def endedEvent (s : SessionSetup) (resolution : Approval.Resolution) (n : Nat)
    (a : Approval) : ApprovalEvent :=
  ⟨s.config.id, a.id, a.target.operation, resolution, n⟩

/-- The events of an approval: that it was asked for, and how it ended if it
did. -/
def history (s : SessionSetup) (a : Approval) : List ApprovalEvent :=
  s.askedEvent a ::
    a.resolvedAt.toList.map fun n => s.endedEvent a.resolution n a

/-! ## The events of one change -/

/-- A change of a queue at a number, with the events that it should have. -/
inductive Announces (s : SessionSetup) (n : Nat) (q : Approval.Queue) :
    Approval.Queue → List ApprovalEvent → Prop where
  | kept : Announces s n q q []
  | asked (target : Approval.Target) (fingerprint : String) :
      Announces s n q (q.enqueue target fingerprint n)
        [s.askedEvent
          ⟨q.nextId, target, fingerprint, n, .unresolved, none⟩]
  | ended (p : Approval → Bool) (resolution : Approval.Resolution)
      (hp : ∀ a, p a = true → a.resolution = .unresolved)
      (hresolution : resolution ≠ .unresolved) :
      Announces s n q (q.resolveWhere p resolution n)
        ((q.entries.filter p).map (s.endedEvent resolution n))

theorem controlDecide_announces {resolution : Approval.Resolution}
    (hsequence : r.sequence = st.sequence) :
    s.Announces r.sequence st.approvals
      (s.controlDecide r target resolution st).state.approvals
      ((s.controlDecide r target resolution st).events.filterMap
        AuditEvent.approval?) := by
  rw [controlDecide]
  cases hdecide : st.approvals.decide target resolution r.sequence with
  | error e => exact .kept
  | ok found =>
      obtain ⟨decided, after⟩ := found
      obtain ⟨hdecision, rfl, rfl⟩ := Approval.Queue.decide_eq_ok hdecide
      have hevents : ∀ a ∈ st.approvals.entries.filter
          (st.approvals.isOpenFor target),
            s.approvalEvent a.id target.operation resolution st.sequence =
              .approval (s.endedEvent resolution r.sequence a) := by
        intro a ha
        have hshared :=
          (Approval.Queue.isOpenFor_iff.1 (List.mem_filter.1 ha).2).2
        rw [approvalEvent, endedEvent, hsequence,
          (Approval.Target.decidedBy_iff.1 hshared).1]
      dsimp only
      rw [List.map_map, Function.comp_def]
      dsimp only [Approval.resolve]
      rw [List.map_congr_left hevents, AuditEvent.filterMap_approval?]
      exact .ended _ resolution
        (fun a ha => (Approval.Queue.isOpenFor_iff.1 ha).1)
        (Approval.Resolution.ne_unresolved_of_isDecision hdecision)

theorem executeControl_announces (c : ApprovalControl)
    (hsequence : r.sequence = st.sequence) :
    s.Announces r.sequence st.approvals
      (s.executeControl r c st).state.approvals
      ((s.executeControl r c st).events.filterMap
        AuditEvent.approval?) := by
  rw [executeControl]
  split
  · exact .kept
  · cases s.controlTarget r.args with
    | error message => exact .kept
    | ok target =>
        cases c with
        | list => exact .kept
        | status => exact .kept
        | approve => exact controlDecide_announces hsequence
        | deny => exact controlDecide_announces hsequence
        | request =>
            dsimp only
            rw [controlRequest]
            dsimp only
            cases st.approvals.openFor? target with
            | some a => exact .kept
            | none =>
                rw [← hsequence]
                exact .asked target r.fingerprint

theorem executeGated_announces (hsequence : r.sequence = st.sequence) :
    s.Announces r.sequence st.approvals (s.executeGated r st).state.approvals
      ((s.executeGated r st).events.filterMap AuditEvent.approval?) := by
  cases haction : (s.config.policy.peek r st.approvals).action with
  | allow =>
      rw [executeGated_of_allowed haction, serve_state]
      exact .kept
  | deny =>
      rw [executeGated_of_denied haction]
      exact .kept
  | requireApproval =>
      cases hwaiting : st.approvals.unresolvedFor? r.operation r.digest with
      | some a =>
          rw [executeGated_of_waiting haction hwaiting]
          exact .kept
      | none =>
          rw [executeGated_of_asking haction hwaiting, ← hsequence]
          exact .asked (s.config.policy.targetFor r.operation r.digest)
            r.fingerprint

/-- A call tells of the change that it makes to the queue. -/
theorem take_announces (ht : s.take operation args st = .ok t) :
    s.Announces t.state.sequence st.approvals t.state.approvals
      (t.events.filterMap AuditEvent.approval?) := by
  rw [take] at ht
  cases hrequest : s.requestFor operation args st with
  | error e =>
      rw [hrequest] at ht
      cases ht
  | ok found =>
      obtain ⟨r, route⟩ := found
      rw [hrequest] at ht
      cases ht
      dsimp only
      rw [(execute_frame s r route { st with sequence := r.sequence }).1]
      have hsequence :
          r.sequence = { st with sequence := r.sequence }.sequence := rfl
      cases route with
      | adapter => exact executeGated_announces hsequence
      | control c => exact executeControl_announces c hsequence

/-- Closing a session tells of all that expires. -/
theorem close_announces (s : SessionSetup) (st : SessionState) :
    s.Announces st.sequence st.approvals (s.close st).2.1.approvals
      ((s.close st).2.2.filterMap AuditEvent.approval?) := by
  rw [close]
  split
  · exact .kept
  · dsimp only [Approval.Queue.expireAll]
    rw [List.map_map, Function.comp_def]
    dsimp only [Approval.resolve, approvalEvent]
    rw [AuditEvent.filterMap_approval?]
    exact .ended _ .expired (fun a ha => by simpa using ha) (by decide)

/-! ## The events of a run -/

/-- Events tell of a queue: those of each of its approvals are its history, no
others are told of, and the queue can be put together from them. -/
structure Recounts (s : SessionSetup) (q : Approval.Queue)
    (events : List ApprovalEvent) : Prop where
  history_eq : ∀ a ∈ q.entries,
    events.filter (fun e => e.approval = a.id) = s.history a
  known : ∀ e ∈ events, ∃ a ∈ q.entries, a.id = e.approval
  replay_eq : ToldApproval.replay events = q.entries.map ToldApproval.of

/-- Of the events about approvals that have ended an approval has one, if it
has. -/
theorem filter_endedEvents (h : q.Filed) (p : Approval → Bool)
    (resolution : Approval.Resolution) (n : Nat) {a : Approval}
    (ha : a ∈ q.entries) :
    ((q.entries.filter p).map (s.endedEvent resolution n)).filter
        (fun e => e.approval = a.id) =
      if p a then [s.endedEvent resolution n a] else [] := by
  have hown : (q.entries.filter p).filter (fun b => b.id = a.id) =
      if p a then [a] else [] := by
    rw [List.filter_filter]
    simp only [Bool.and_comm]
    rw [← List.filter_filter, h.filter_id ha, List.filter_singleton]
    cases p a <;> rfl
  rw [List.filter_map]
  refine (congrArg _ hown).trans ?_
  split <;> rfl

theorem Recounts.asked (h : s.Recounts q events) (hfiled : q.Filed)
    (target : Approval.Target) (fingerprint : String) (n : Nat) :
    s.Recounts (q.enqueue target fingerprint n) (events ++
      [s.askedEvent ⟨q.nextId, target, fingerprint, n, .unresolved, none⟩])
    where
  history_eq a ha := by
    rw [List.filter_append]
    rcases Approval.Queue.mem_enqueue.1 ha with hold | rfl
    · have hother : q.nextId ≠ a.id := (hfiled.id_ne_nextId hold).symm
      rw [h.history_eq a hold, List.filter_cons_of_neg
        (by simp [askedEvent, hother]), List.filter_nil, List.append_nil]
    · have hunheard : events.filter (fun e => e.approval = q.nextId) = [] := by
        refine List.filter_eq_nil_iff.2 fun e he => ?_
        obtain ⟨b, hb, hid⟩ := h.known e he
        simpa [← hid] using hfiled.id_ne_nextId hb
      rw [hunheard, List.filter_cons_of_pos (by simp [askedEvent]),
        List.filter_nil]
      rfl
  known e he := by
    rcases List.mem_append.1 he with he | he
    · obtain ⟨a, ha, hid⟩ := h.known e he
      exact ⟨a, Approval.Queue.mem_enqueue.2 (Or.inl ha), hid⟩
    · rw [List.mem_singleton.1 he]
      exact ⟨_, Approval.Queue.mem_enqueue.2 (Or.inr rfl), rfl⟩
  replay_eq := by
    have hreplay := h.replay_eq
    rw [ToldApproval.replay] at hreplay ⊢
    rw [List.foldl_append, hreplay, Approval.Queue.enqueue, List.map_append]
    rfl

theorem Recounts.ended (h : s.Recounts q events) (hfiled : q.Filed)
    {p : Approval → Bool} {resolution : Approval.Resolution}
    (hp : ∀ a, p a = true → a.resolution = .unresolved)
    (hresolution : resolution ≠ .unresolved) (n : Nat) :
    s.Recounts (q.resolveWhere p resolution n) (events ++
      (q.entries.filter p).map (s.endedEvent resolution n)) where
  history_eq a ha := by
    obtain ⟨b, hb, rfl⟩ := Approval.Queue.mem_resolveWhere.1 ha
    have hid : (if p b then b.resolve resolution n else b).id = b.id := by
      split <;> rfl
    rw [hid, List.filter_append, h.history_eq b hb,
      filter_endedEvents hfiled p resolution n hb]
    by_cases hpb : p b = true
    · have hnone : b.resolvedAt = none := (hfiled.open_iff b hb).1 (hp b hpb)
      rw [if_pos hpb, if_pos hpb, history, hnone]
      rfl
    · rw [if_neg hpb, if_neg hpb, List.append_nil]
  known e he := by
    have hmem (b : Approval) (hb : b ∈ q.entries) :
        ∃ a ∈ (q.resolveWhere p resolution n).entries, a.id = b.id := by
      refine ⟨_, Approval.Queue.mem_resolveWhere.2 ⟨b, hb, rfl⟩, ?_⟩
      split <;> rfl
    rcases List.mem_append.1 he with he | he
    · obtain ⟨b, hb, hid⟩ := h.known e he
      rw [← hid]
      exact hmem b hb
    · obtain ⟨b, hb, rfl⟩ := List.mem_map.1 he
      exact hmem b (List.mem_filter.1 hb).1
  replay_eq := by
    have hreplay := h.replay_eq
    have hends : ∀ e ∈ (q.entries.filter p).map (s.endedEvent resolution n),
        e.resolution ≠ .unresolved := by
      intro e he
      obtain ⟨b, -, rfl⟩ := List.mem_map.1 he
      exact hresolution
    rw [ToldApproval.replay] at hreplay ⊢
    rw [List.foldl_append, hreplay, ToldApproval.foldl_hear hends,
      Approval.Queue.resolveWhere, List.map_map, List.map_map]
    refine List.map_congr_left fun b hb => ?_
    rw [Function.comp_apply, Function.comp_apply, ToldApproval.foldl_hearEnd,
      ToldApproval.of, filter_endedEvents hfiled p resolution n hb]
    by_cases hpb : p b = true
    · rw [if_pos hpb, if_pos hpb]
      exact if_pos rfl
    · rw [if_neg hpb, if_neg hpb]
      rfl

/-- Events that tell of a queue still do so with the events of a change. -/
theorem Recounts.announced (h : s.Recounts q events) (hfiled : q.Filed)
    {more : List ApprovalEvent} (hchange : s.Announces n q q' more) :
    s.Recounts q' (events ++ more) := by
  cases hchange with
  | kept =>
      rw [List.append_nil]
      exact h
  | asked target fingerprint => exact h.asked hfiled target fingerprint n
  | ended p resolution hp hresolution => exact h.ended hfiled hp hresolution n

end SessionSetup

namespace Session

variable {session : Session}

/-- The approval events of the trail. -/
def approvalTrail (session : Session) : List ApprovalEvent :=
  session.trail.filterMap AuditEvent.approval?

/-- Whether or not the receipt is refused, a dispatch tells of what it changes
in the queue. -/
theorem approvalTrail_dispatch {operation : OperationId} {args : Json}
    {t : Taken}
    (ht : session.setup.take operation args session.state = .ok t) :
    (session.dispatch operation args).2.approvalTrail =
      session.approvalTrail ++ t.events.filterMap AuditEvent.approval? := by
  rw [dispatch, ht]
  dsimp only
  cases (session.sink.send (session.id, t.receipt)).refusal with
  | some e =>
      dsimp only
      rw [approvalTrail, trail_write, trail_tell, List.filterMap_append]
      rfl
  | none =>
      have hdispatch : [session.dispatchEvent t].filterMap
          AuditEvent.approval? = [] := rfl
      dsimp only
      rw [approvalTrail, trail_tell, trail_write, trail_tell,
        List.filterMap_append, List.filterMap_append, hdispatch,
        List.append_nil]
      rfl

theorem approvalTrail_close (session : Session) :
    session.close.2.approvalTrail = session.approvalTrail ++
      (session.setup.close session.state).2.2.filterMap
        AuditEvent.approval? := by
  rw [close]
  dsimp only
  cases session.sink.flush.refusal <;>
    (dsimp only
     rw [approvalTrail, trail_write, trail_tell, List.filterMap_append]
     rfl)

/-- An action tells of what it changes in the queue. -/
theorem act_announces (session : Session) (action : SessionAction) :
    ∃ n more, session.setup.Announces n session.state.approvals
        (session.act action).state.approvals more ∧
      (session.act action).approvalTrail = session.approvalTrail ++ more := by
  rw [(act_eq session action).2]
  cases action with
  | call operation args =>
      cases ht : session.setup.take operation args session.state with
      | error e =>
          rw [act, dispatch, SessionSetup.act, ht]
          exact ⟨0, [], .kept, (List.append_nil _).symm⟩
      | ok t =>
          rw [SessionSetup.act_of_take ht]
          exact ⟨_, _, SessionSetup.take_announces ht,
            approvalTrail_dispatch ht⟩
  | close =>
      exact ⟨_, _, session.setup.close_announces session.state,
        approvalTrail_close session⟩

theorem recounts_run (session : Session) (hrecounts : session.setup.Recounts
      session.state.approvals session.approvalTrail)
    (horderly : session.setup.Orderly session.state)
    (actions : List SessionAction) :
    session.setup.Recounts (session.run actions).state.approvals
      (session.run actions).approvalTrail := by
  induction actions generalizing session with
  | nil => exact hrecounts
  | cons action rest ih =>
      obtain ⟨n, more, hchange, htrail⟩ := act_announces session action
      obtain ⟨hsetup, hstate⟩ := act_eq session action
      have hnext := hrecounts.announced horderly.kept.filed hchange
      have horderly' := horderly.act action
      rw [← htrail, ← hsetup] at hnext
      rw [← hstate, ← hsetup] at horderly'
      rw [← hsetup]
      exact ih _ hnext horderly'

theorem recounts_run_start (setup : SessionSetup) (snapshot : Json)
    (clock : Clock) (sink : ReceiptSink) (actions : List SessionAction) :
    let session := (start setup snapshot clock sink).run actions
    setup.Recounts session.state.approvals session.approvalTrail := by
  refine recounts_run (start setup snapshot clock sink) ?_
    (setup.orderly_start snapshot clock) actions
  exact ⟨nofun, nofun, rfl⟩

/-- However its sink refuses receipts, the approval events of a session that
was started tell of its queue.  Played from the first on they give the id, the
operation, the time of the request and the end of every approval, in the order
of the queue.  The events of an approval are that it was asked for, at the
number of the request, and after that, if it is resolved, its resolution, at
the number of that; and there are no events of other approvals. -/
theorem approval_trail_rebuilds_queue (setup : SessionSetup) (snapshot : Json)
    (clock : Clock) (sink : ReceiptSink) (actions : List SessionAction) :
    let session := (start setup snapshot clock sink).run actions
    let entries := session.state.approvals.entries
    let events := session.trail.filterMap AuditEvent.approval?
    ToldApproval.replay events = entries.map ToldApproval.of ∧
    (∀ a ∈ entries,
      let asked : ApprovalEvent :=
        ⟨setup.config.id, a.id, a.target.operation, .unresolved, a.requestedAt⟩
      let told := events.filter fun e => e.approval = a.id
      (a.resolution = .unresolved ∧ a.resolvedAt = none ∧ told = [asked]) ∨
      ∃ n, a.resolution.isTerminal = true ∧ a.resolvedAt = some n ∧
        told = [asked, ⟨setup.config.id, a.id, a.target.operation,
          a.resolution, n⟩]) ∧
    ∀ e ∈ events, ∃ a ∈ entries, a.id = e.approval := by
  intro session entries events
  have hrecounts : setup.Recounts session.state.approvals events :=
    recounts_run_start setup snapshot clock sink actions
  have hfiled : session.state.approvals.Filed :=
    (orderly_run_start setup snapshot clock sink actions).kept.filed
  refine ⟨hrecounts.replay_eq, ?_, hrecounts.known⟩
  intro a ha asked told
  have htold : told = setup.history a := hrecounts.history_eq a ha
  cases hresolvedAt : a.resolvedAt with
  | none =>
      refine Or.inl ⟨(hfiled.open_iff a ha).2 hresolvedAt, rfl, ?_⟩
      rw [htold, SessionSetup.history, hresolvedAt]
      rfl
  | some n =>
      have hresolved : a.resolution ≠ .unresolved := fun hwaiting => by
        rw [(hfiled.open_iff a ha).1 hwaiting] at hresolvedAt
        cases hresolvedAt
      refine Or.inr ⟨n, Approval.Queue.isTerminal_iff.2 hresolved, rfl, ?_⟩
      rw [htold, SessionSetup.history, hresolvedAt]
      rfl

/-! ## What is written of the trail -/

/-- What is written of the approval events of the trail. -/
def writtenApprovals (session : Session) : List Json :=
  session.approvalTrail.map fun e => (AuditEvent.approval e).encode

/-- What is written of approvals tells of the queue what their events do, but
for the operations, of which it has the texts: sessions of which the same is
written have queues whose approvals are alike, one by one. -/
theorem approvals_alike_of_written_eq {setup setup' : SessionSetup}
    {snapshot snapshot' : Json} {clock clock' : Clock}
    {sink sink' : ReceiptSink} {actions actions' : List SessionAction} :
    let session := (start setup snapshot clock sink).run actions
    let session' := (start setup' snapshot' clock' sink').run actions'
    session.writtenApprovals = session'.writtenApprovals →
      List.Forall₂ (fun a a' => (ToldApproval.of a).Alike (.of a'))
        session.state.approvals.entries session'.state.approvals.entries := by
  intro session session' hwritten
  have hevents : List.Forall₂ ApprovalEvent.Alike session.approvalTrail
      session'.approvalTrail :=
    ApprovalEvent.forall₂_alike_of_encode_eq hwritten
  have htold := ToldApproval.replay_alike hevents
  rw [(recounts_run_start setup snapshot clock sink actions).replay_eq,
    (recounts_run_start setup' snapshot' clock' sink' actions').replay_eq,
    List.forall₂_map_left_iff, List.forall₂_map_right_iff] at htold
  exact htold

end Session

end CallGate
