import CallGate.Proofs.Episode.Consistency
import CallGate.Proofs.Episode.Receipts
import CallGate.Proofs.Episode.Underway
import CallGate.Proofs.Workflow.Resolution

/-!
# What references recall

The arguments of a step may refer to the data of other steps.  Steps are
skipped, and attempted again after jumps, so what a reference recalls depends
on the calls that the episode has made: it is the data of the last answer to a
call of the step, also when the attempt did not pass.  An attempt that was not
dispatched leaves no data behind, and a step that refers to what is not there
is not called.
-/

namespace CallGate

namespace EpisodeCall

/-- The answer to the call of a step, when there was one. -/
def answer? : EpisodeCall → Option Dispatch
  | .attempt session step args =>
    (session.dispatch step.operation.id args).1.toOption
  | .denial _ _ _ => none

/-- The data that the call leaves behind for references to a step. -/
def dataFor? (id : String) (c : EpisodeCall) : Option Json :=
  if c.step.id = id then c.answer?.map (·.response.data) else none

/-- The step whose call was answered, and the number of the call. -/
def dispatched? (c : EpisodeCall) : Option (String × Nat) :=
  c.answer?.map fun d => (c.step.id, d.response.sequence)

def remember (data : KeyMap String Json) (c : EpisodeCall) :
    KeyMap String Json :=
  match c.answer? with
  | some d => data.insert c.step.id d.response.data
  | none => data

end EpisodeCall

/-- The step whose attempt was dispatched, and the number of the call. -/
def Attempt.dispatched? (a : Attempt) : Option (String × Nat) :=
  a.sequence.map fun sequence => (a.step, sequence)

namespace Episode

open EpisodeCall (remember dataFor?)

variable {w : Workflow} {limits : EpisodeLimits} {e e' : Episode}
  {s : Session} {step : Step} {calls : List EpisodeCall} {i : Nat}

/-- The data of the last answer to a call of a step. -/
def latestData? (calls : List EpisodeCall) (id : String) : Option Json :=
  (calls.filterMap (dataFor? id)).getLast?

/-- What references can refer to after some calls: what the calls have left
behind, and the world as the workflow has it. -/
def recalled (w : Workflow) (calls : List EpisodeCall) : Template.Scope :=
  ⟨calls.foldl remember KeyMap.empty, w.world⟩

theorem get?_remember (data : KeyMap String Json) (c : EpisodeCall)
    (id : String) :
    (remember data c).get? id = (dataFor? id c).or (data.get? id) := by
  rw [remember, dataFor?]
  cases c.answer? with
  | none =>
      rw [Option.map_none, ite_self]
      rfl
  | some d =>
      by_cases hid : c.step.id = id
      · subst hid
        rw [if_pos rfl]
        exact KeyMap.get?_insert_self data _ _
      · rw [if_neg hid]
        exact KeyMap.get?_insert_of_ne data (Ne.symm hid) _

/-- Of what several calls of a step have left behind the last is recalled. -/
theorem get?_recalled (w : Workflow) (calls : List EpisodeCall)
    (id : String) :
    (recalled w calls).steps.get? id = latestData? calls id := by
  induction calls using List.reverseRecOn with
  | nil => rfl
  | append_singleton calls c ih =>
      have hlast : latestData? (calls ++ [c]) id =
          (dataFor? id c).or (latestData? calls id) := by
        rw [latestData?, List.filterMap_append, List.getLast?_append]
        cases hdata : dataFor? id c <;> simp [hdata, latestData?]
      rw [hlast, ← ih, recalled, List.foldl_append]
      exact get?_remember _ c id

/-- A reference to a step of which no call was answered has no value. -/
theorem not_hasValue_of_unanswered (w : Workflow) {id : String}
    (h : ∀ c ∈ calls, c.step.id = id → c.answer? = none) (path : String) :
    ¬(recalled w calls).HasValue (.step id path) := by
  have hnone : latestData? calls id = none := by
    rw [latestData?, List.getLast?_eq_none_iff, List.filterMap_eq_nil_iff]
    intro c hc
    rw [dataFor?]
    split
    · rename_i hid
      rw [h c hc hid, Option.map_none]
    · rfl
  rintro ⟨v, hv⟩
  cases hv with
  | step _ _ data _ hdata hat =>
      rw [get?_recalled, hnone] at hdata
      cases hdata

theorem foldl_remember_of_unanswered {more : List EpisodeCall}
    (h : ∀ c ∈ more, c.answer? = none) (data : KeyMap String Json) :
    more.foldl remember data = data := by
  induction more with
  | nil => rfl
  | cons c rest ih =>
      rw [List.foldl_cons, remember, h c List.mem_cons_self]
      exact ih fun c hc => h c (List.mem_cons_of_mem _ hc)

/-! ## What a turn leaves behind -/

/-- The data of an episode is what its calls have left behind, and its history
tells of the same answers. -/
structure Recalls (calls : List EpisodeCall) (e : Episode) : Prop where
  data_eq : e.data = calls.foldl remember KeyMap.empty
  history_eq : e.state.history.filterMap Attempt.dispatched? =
    calls.filterMap EpisodeCall.dispatched?

theorem Recalls.of_unanswered {more : List EpisodeCall}
    {added : List Attempt} (h : Recalls calls e)
    (hanswer : ∀ c ∈ more, c.answer? = none) (hdata : e'.data = e.data)
    (hhistory : e'.state.history = e.state.history ++ added)
    (hadded : ∀ a ∈ added, a.sequence = none) :
    Recalls (calls ++ more) e' := by
  have hattempts : added.filterMap Attempt.dispatched? = [] := by
    rw [List.filterMap_eq_nil_iff]
    intro a ha
    rw [Attempt.dispatched?, hadded a ha, Option.map_none]
  have hcalls : more.filterMap EpisodeCall.dispatched? = [] := by
    rw [List.filterMap_eq_nil_iff]
    intro c hc
    rw [EpisodeCall.dispatched?, hanswer c hc, Option.map_none]
  constructor
  · rw [hdata, h.data_eq, List.foldl_append,
      foldl_remember_of_unanswered hanswer]
  · rw [hhistory, List.filterMap_append, hattempts, h.history_eq,
      List.filterMap_append, hcalls]

theorem settle_data (e : Episode) (step : Step) (verdict : Verdict)
    (sent : Option Sent) :
    (e.settle step verdict sent).1.data = e.data := by
  obtain ⟨transition, current, jumps, reason, -, hsettle⟩ :=
    exists_course_of_settle e step verdict sent
  rw [hsettle]

/-- Settling an attempt that was not dispatched leaves no data behind. -/
theorem Recalls.settle_unsent {more : List EpisodeCall}
    (h : Recalls calls e) (hanswer : ∀ c ∈ more, c.answer? = none)
    (before : Episode) (hdata : before.data = e.data)
    (hhistory : before.state.history = e.state.history) (step : Step)
    (verdict : Verdict) :
    Recalls (calls ++ more) (before.settle step verdict none).1 := by
  obtain ⟨number, transition, hsettle⟩ :=
    exists_history_of_settle before step verdict none
  rw [hhistory] at hsettle
  refine h.of_unanswered hanswer ((settle_data _ _ _ _).trans hdata) hsettle
    fun a ha => ?_
  rw [List.mem_singleton.1 ha]
  rfl

theorem Recalls.settle_answered {told : Session} {args : Json} {d : Dispatch}
    (h : Recalls calls e)
    (hanswer : (told.dispatch step.operation.id args).1 = .ok d)
    (verdict : Verdict) :
    Recalls (calls ++ [.attempt told step args])
      ((e.readied 1 (e.data.insert step.id d.response.data)).settle step
        verdict (some ⟨d.response.sequence, d.response.fingerprint,
          d.response.status⟩)).1 := by
  have hcall : (EpisodeCall.attempt told step args).answer? = some d := by
    rw [EpisodeCall.answer?, hanswer]
    rfl
  obtain ⟨number, transition, hhistory⟩ := exists_history_of_settle
    (e.readied 1 (e.data.insert step.id d.response.data)) step verdict _
  constructor
  · rw [settle_data, List.foldl_append, ← h.data_eq, List.foldl_cons,
      remember, hcall]
    rfl
  · rw [hhistory, List.filterMap_append, List.filterMap_append,
      ← h.history_eq, List.filterMap_cons, List.filterMap_cons,
      EpisodeCall.dispatched?, hcall]
    rfl

theorem Recalls.turn (h : e.state.status = .running → Recalls calls e)
    (s : Session)
    (hrunning : (e.turn s).2.1.state.status = .running) :
    Recalls (calls ++ e.turnCalls s) (e.turn s).2.1 := by
  have heffect := turn_effect e s
  generalize e.turnCalls s = more at heffect ⊢
  generalize e.turn s = taken at heffect hrunning ⊢
  obtain ⟨turn, e', s'⟩ := taken
  dsimp only at heffect hrunning ⊢
  have hnone : ∀ c ∈ ([] : List EpisodeCall), c.answer? = none :=
    List.forall_mem_nil _
  cases heffect with
  | kept result =>
      rw [List.append_nil]
      exact h hrunning
  | finished hbefore hcurrent =>
      exact absurd hrunning (EndsAs.finish hbefore s.pendingCount).not_running
  | withheld i step verdict hbefore hat hwithheld =>
      exact (h hbefore).settle_unsent hnone e.awake rfl rfl step verdict
  | denied i step told approval args hbefore hat =>
      refine (h hbefore).settle_unsent (fun c hc => ?_) e.awake rfl rfl step _
      rw [List.mem_singleton.1 hc]
      rfl
  | undenied => cases hrunning
  | suspended i step told approval args hbefore hat =>
      exact (h hbefore).of_unanswered hnone rfl (List.append_nil _).symm
        (List.forall_mem_nil _)
  | timedOut => cases hrunning
  | failed => cases hrunning
  | attempted i step told verdict sent data hbefore hat hleft hverdict htold
      hattempted =>
      cases hattempted with
      | unresolved error hargs =>
          rw [attemptCalls, hargs]
          exact (h hbefore).settle_unsent hnone (e.readied 1 e.data) rfl rfl
            step _
      | untaken args error hargs hanswer =>
          rw [attemptCalls, hargs]
          refine (h hbefore).settle_unsent (fun c hc => ?_)
            (e.readied 1 e.data) rfl rfl step _
          rw [List.mem_singleton.1 hc, EpisodeCall.answer?, hanswer]
          rfl
      | answered args d hargs hanswer =>
          rw [attemptCalls, hargs]
          exact (h hbefore).settle_answered hanswer _

/-! ## What references recall -/

theorem Underway.recalls (h : Underway w limits calls e)
    (hrunning : e.state.status = .running) : Recalls calls e := by
  induction h with
  | start => exact ⟨rfl, rfl⟩
  | @turn calls e h s ih => exact Recalls.turn ih s hrunning
  | @endEpisode calls e h s ih =>
      exact absurd hrunning (endEpisode_not_running e s)

/-- The arguments of a step are resolved with what the calls have left
behind. -/
theorem Underway.arguments_eq (h : Underway w limits calls e)
    (hrunning : e.state.status = .running) (step : Step) :
    e.arguments step =
      Template.resolve (recalled w calls) step.args := by
  rw [arguments, (h.recalls hrunning).data_eq, h.steady.workflow_eq]
  rfl

theorem arguments_of_mem_turnCalls {told : Session} {args : Json}
    (hcall : .attempt told step args ∈ e.turnCalls s) :
    e.state.status = .running ∧ step ∈ e.workflow.steps ∧
      e.arguments step = .ok args := by
  have hattempt {i : Nat} {own : Step} {before : Session}
      (hat : e.IsAt i own)
      (hmem : .attempt told step args ∈ e.awake.attemptCalls before own) :
      step ∈ e.workflow.steps ∧ e.arguments step = .ok args := by
    rw [attemptCalls] at hmem
    split at hmem
    · cases hmem
    · rename_i hargs
      cases List.mem_singleton.1 hmem
      exact ⟨List.mem_of_getElem? hat.step_eq, hargs⟩
  have heffect := turn_effect e s
  generalize e.turnCalls s = calls at heffect hcall
  generalize e.turn s = taken at heffect
  obtain ⟨turn, e', s'⟩ := taken
  dsimp only at heffect
  cases heffect with
  | kept => cases hcall
  | finished => cases hcall
  | withheld => cases hcall
  | denied => cases List.mem_singleton.1 hcall
  | undenied => cases List.mem_singleton.1 hcall
  | suspended => cases hcall
  | timedOut => cases hcall
  | attempted i own told verdict sent data hrunning hat =>
      exact ⟨hrunning, hattempt hat hcall⟩
  | failed i own told error hrunning hat =>
      exact ⟨hrunning, hattempt hat hcall⟩

/-- The history grows by attempts of a step that were not dispatched and did
not pass, if it grows at all. -/
def AddsUndispatched (e e' : Episode) (step : Step) : Prop :=
  ∃ added, e'.state.history = e.state.history ++ added ∧
    ∀ a ∈ added, a.step = step.id ∧ a.Undispatched

theorem AddsUndispatched.of_same
    (h : e'.state.history = e.state.history) : AddsUndispatched e e' step :=
  ⟨[], by rw [h, List.append_nil], List.forall_mem_nil _⟩

theorem AddsUndispatched.settle (before : Episode)
    (h : before.state.history = e.state.history) {verdict : Verdict}
    (hverdict : verdict ≠ .passed) :
    AddsUndispatched e (before.settle step verdict none).1 step := by
  obtain ⟨number, transition, hadded⟩ :=
    exists_history_of_settle before step verdict none
  refine ⟨_, h ▸ hadded, fun a ha => ?_⟩
  rw [List.mem_singleton.1 ha]
  exact ⟨rfl, Attempt.undispatched_make step.id number transition hverdict⟩

/-- An episode at a step whose arguments cannot be resolved makes no call. -/
theorem turn_of_unresolved {error : Template.Error} (hat : e.IsAt i step)
    (hargs : e.state.status = .running → e.arguments step = .error error) :
    e.turnCalls s = [] ∧ AddsUndispatched e (e.turn s).2.1 step := by
  have hnone {before : Session} (hrunning : e.state.status = .running) :
      e.awake.attemptCalls before step = [] := by
    have hawake : e.awake.arguments step = .error error := hargs hrunning
    rw [attemptCalls, hawake]
  have hunblocked {before : Session} (hrunning : e.state.status = .running) :
      e.awake.blockedBy? step before = none := by
    have hawake : e.awake.arguments step = .error error := hargs hrunning
    rw [blockedBy?, hawake]
    split <;> rfl
  have heffect := turn_effect e s
  generalize e.turnCalls s = calls at heffect ⊢
  generalize e.turn s = taken at heffect ⊢
  obtain ⟨turn, e', s'⟩ := taken
  dsimp only at heffect ⊢
  cases heffect with
  | kept => exact ⟨rfl, .of_same rfl⟩
  | finished hrunning hcurrent => cases hcurrent.symm.trans hat.current_eq
  | withheld j own verdict hrunning hown hwithheld =>
      cases hown.eq hat
      exact ⟨rfl, .settle e.awake rfl hwithheld.not_passed⟩
  | denied j own told approval args hrunning hown hclear htold hblocked =>
      cases hown.eq hat
      cases (hunblocked hrunning).symm.trans hblocked
  | undenied j own told approval args error hrunning hown hblocked =>
      cases hown.eq hat
      cases (hunblocked hrunning).symm.trans hblocked
  | suspended => exact ⟨rfl, .of_same rfl⟩
  | timedOut => exact ⟨rfl, .of_same rfl⟩
  | failed j own told error hrunning hown =>
      cases hown.eq hat
      exact ⟨hnone hrunning, .of_same rfl⟩
  | attempted j own told verdict sent data hrunning hown hleft hverdict htold
      hattempted =>
      cases hown.eq hat
      refine ⟨hnone hrunning, ?_⟩
      cases hattempted with
      | unresolved => exact .settle (e.readied 1 e.data) rfl (by simp)
      | untaken => exact .settle (e.readied 1 e.data) rfl (by simp)
      | answered args d hok =>
          have hawake : e.awake.arguments step = .error error :=
            hargs hrunning
          cases hawake.symm.trans hok

/-- The arguments of every call of a step are those that the workflow says,
with each reference replaced: to a step by the data of its last answer before
the call, whatever came of that attempt, and to the world by the snapshot of
the workflow.  A step with a reference that has no value is not called, and
what is added to the history then are attempts that were not dispatched.  This
is so at every turn of every run, whatever sessions the episode meets. -/
theorem references_recall_last_answers (h : Underway w limits calls e)
    (s : Session) :
    Leads e s (e.turnCalls s) (e.turn s).2.1 (e.turn s).2.2 ∧
      (recalled w calls).world = w.world ∧
      (∀ id, (recalled w calls).steps.get? id = latestData? calls id) ∧
      (∀ id path, (∀ c ∈ calls, c.step.id = id → c.answer? = none) →
        ¬(recalled w calls).HasValue (.step id path)) ∧
      (e.state.status = .running →
        e.state.history.filterMap Attempt.dispatched? =
          calls.filterMap EpisodeCall.dispatched?) ∧
      (∀ told step args, .attempt told step args ∈ e.turnCalls s →
        step ∈ w.steps ∧
          Template.Filled (recalled w calls) step.args args) ∧
      (∀ i step, e.IsAt i step →
        (¬∃ refs, Template.references step.args = .ok refs ∧
          ∀ r ∈ refs, (recalled w calls).HasValue r) →
        e.turnCalls s = [] ∧ AddsUndispatched e (e.turn s).2.1 step) ∧
      ∀ actions, Underway w limits (calls ++ playCalls (e, s) actions)
        (e.play s actions).1 := by
  refine ⟨turn_leads e s, rfl, get?_recalled w calls,
    fun id path hnone => not_hasValue_of_unanswered w hnone path,
    fun hrunning => (h.recalls hrunning).history_eq, ?_, ?_, ?_⟩
  · intro told step args hcall
    obtain ⟨hrunning, hstep, hargs⟩ := arguments_of_mem_turnCalls hcall
    rw [h.arguments_eq hrunning] at hargs
    exact ⟨h.steady.workflow_eq ▸ hstep, Template.resolve_eq_ok_iff.1 hargs⟩
  · intro i step hat hmissing
    have hnot := mt Template.exists_resolve_iff.1 hmissing
    cases hresolve : Template.resolve (recalled w calls) step.args with
    | ok args => exact absurd ⟨args, hresolve⟩ hnot
    | error error =>
        have hargs (hrunning : e.state.status = .running) :
            e.arguments step = .error error := by
          rw [h.arguments_eq hrunning, hresolve]
        exact turn_of_unresolved hat hargs
  · intro actions
    exact h.play (p := (e, s)) actions

/-- A denial that gives the approval that the step `ask` has asked for. -/
def denialArgs (why : String) : Json :=
  .obj [("operation", .str "send"), ("service", .str "mail"),
    ("why", .str why)]

/-- A workflow that asks for an approval and denies it, and asks again when
there is nothing more to deny. -/
def reaskingWorkflow : Workflow :=
  let template := denialArgs "$\x7bsteps.ask.approval_id\x7d"
  mailDocument.withSteps
    [⟨0, "ask", "", .viaControl .request, Session.decisionArgs mailSend none,
        Expectation.ordinary, .fail, none, none⟩,
      ⟨1, "deny", "", .viaControl .deny, template, Expectation.ordinary,
        .fail, none, none⟩,
      ⟨2, "again", "", .viaControl .deny, template, Expectation.ordinary,
        .jump "ask" 0, some 2, none⟩]

/-- After the jump the denial gives the second approval. -/
theorem references_recall_last_answers_reasked :
    let first := start reaskingWorkflow {}
    let session := Session.start (mailSetup {}) .null (.logical 0) .none
    let calls := turnsCalls 4 first session
    let last := (turns 4 first session).2
    last.1.state.history.filterMap Attempt.dispatched? =
        [("ask", 1), ("deny", 2), ("again", 3), ("ask", 4)] ∧
      latestData? calls "ask" =
        some (SessionSetup.approvalData (some "approval-2") mailSend
          "unresolved") ∧
      ∃ told step, .attempt told step (denialArgs "approval-2") ∈
          last.1.turnCalls last.2 ∧ step ∈ reaskingWorkflow.steps ∧
        Template.Filled (recalled reaskingWorkflow calls) step.args
          (denialArgs "approval-2") := by
  intro first session calls last
  have hunderway : Underway reaskingWorkflow {} calls last.1 :=
    Underway.turns .start 4 session
  have hlast : last.1.state.history.filterMap Attempt.dispatched? =
        [("ask", 1), ("deny", 2), ("again", 3), ("ask", 4)] ∧
      latestData? calls "ask" =
        some (SessionSetup.approvalData (some "approval-2") mailSend
          "unresolved") := by
    decide +kernel
  have hcalls : (last.1.turnCalls last.2).any (fun c =>
      c.isAttempt && c.args = denialArgs "approval-2") = true := by
    decide +kernel
  obtain ⟨c, hc, hargs⟩ := List.any_eq_true.1 hcalls
  obtain ⟨-, -, -, -, -, hfilled, -, -⟩ :=
    references_recall_last_answers hunderway last.2
  refine ⟨hlast.1, hlast.2, ?_⟩
  cases c with
  | denial told step args => cases hargs
  | attempt told step args =>
      obtain rfl : args = denialArgs "approval-2" := of_decide_eq_true hargs
      exact ⟨told, step, hc, hfilled told step _ hc⟩

end Episode

end CallGate
