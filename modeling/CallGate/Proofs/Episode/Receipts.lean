import CallGate.Proofs.Episode.Verdicts
import CallGate.Proofs.Episode.Budget
import CallGate.Proofs.Session.Numbering
import CallGate.Proofs.Session.Replay
import CallGate.Proofs.Workflow.Expectation

/-!
# Histories and logs

An episode keeps its history and its session keeps the log, and others add to
the log in between.  The two tell the same story.  An attempt that was answered
has the number of its call, and the log has the receipt under that number; an
attempt that was not answered has no number and did not pass.  Both grow at the
end only, and numbers are given in order, so no two attempts share a receipt.
-/

namespace CallGate

namespace Attempt

/-- Nothing is known of a dispatch, and the attempt did not pass. -/
structure Undispatched (a : Attempt) : Prop where
  sequence_eq : a.sequence = none
  fingerprint_eq : a.fingerprint = none
  status_eq : a.status = none
  not_passed : a.verdict ≠ .passed

theorem undispatched_make (step : String) (number : Nat) {verdict : Verdict}
    (transition : Transition) (hverdict : verdict ≠ .passed) :
    (make step number none verdict transition).Undispatched :=
  ⟨rfl, rfl, rfl, hverdict⟩

/-- The attempt is of a call of the episode that was answered.  What is known
of it is what was answered, it passed when the answer met all that the step
expects, and the receipt is in the log under its number. -/
structure ToldBy (w : Workflow) (calls : List EpisodeCall)
    (log : List Receipt) (a : Attempt) (before : Session) (step : Step)
    (args : Json) (d : Dispatch) : Prop where
  call_mem : .attempt before step args ∈ calls
  step_mem : step ∈ w.steps
  step_eq : a.step = step.id
  answer_eq : (before.dispatch step.operation.id args).1 = .ok d
  sequence_eq : a.sequence = some d.response.sequence
  fingerprint_eq : a.fingerprint = some d.response.fingerprint
  status_eq : a.status = some d.response.status
  passed_iff : a.verdict = .passed ↔ ∀ x ∈ step.expect,
    x.Holds d.response
      (before.dispatch step.operation.id args).2.pendingCount
  logged : d.Logged step.operation.id before.state
    (before.dispatch step.operation.id args).2.state
  receipt_eq : log[before.state.sequence]? = some d.receipt

/-- The attempt was not dispatched, or calls and log tell of it. -/
def Explained (w : Workflow) (calls : List EpisodeCall) (log : List Receipt)
    (a : Attempt) : Prop :=
  a.Undispatched ∨
    ∃ before step args d, a.ToldBy w calls log before step args d

theorem ToldBy.mono {w : Workflow} {calls calls' : List EpisodeCall}
    {log log' : List Receipt} {a : Attempt} {before : Session} {step : Step}
    {args : Json} {d : Dispatch}
    (h : a.ToldBy w calls log before step args d) (hcalls : calls ⊆ calls')
    (hlog : log <+: log') : a.ToldBy w calls' log' before step args d :=
  { h with
    call_mem := hcalls h.call_mem
    receipt_eq := by
      obtain ⟨later, rfl⟩ := hlog
      exact List.getElem?_append_left
        (List.getElem?_eq_some_iff.1 h.receipt_eq).1 ▸ h.receipt_eq }

theorem Explained.mono {w : Workflow} {calls calls' : List EpisodeCall}
    {log log' : List Receipt} {a : Attempt} (h : a.Explained w calls log)
    (hcalls : calls ⊆ calls') (hlog : log <+: log') :
    a.Explained w calls' log' := by
  rcases h with hnone | ⟨before, step, args, d, htold⟩
  · exact Or.inl hnone
  · exact Or.inr ⟨before, step, args, d, htold.mono hcalls hlog⟩

end Attempt

namespace Episode

open EpisodeCall (Chain)
open Attempt (Undispatched)

variable {setup : SessionSetup} {w : Workflow} {e e' : Episode}
  {s s' : Session} {p p' : Episode × Session} {calls : List EpisodeCall}
  {step : Step}

theorem verdictOn_eq_passed_iff (step : Step) (r : Response)
    (pending : Nat) :
    verdictOn step r pending = .passed ↔
      ∀ x ∈ step.expect, x.Holds r pending := by
  rw [← Expectation.complaints_eq_nil_iff, verdictOn]
  cases Expectation.complaints step.expect r pending with
  | nil => simp
  | cons failure failures => simp

/-- The numbers of the calls of some attempts. -/
def numbers (history : List Attempt) : List Nat :=
  history.filterMap (·.sequence)

/-! ## Attempts and receipts -/

/-- The history of the episode and the log of the session tell the same of the
calls that the episode made. -/
structure Reconciled (setup : SessionSetup) (w : Workflow)
    (calls : List EpisodeCall) (p : Episode × Session) : Prop where
  setup_eq : p.2.setup = setup
  workflow_eq : p.1.workflow = w
  counted : p.2.state.Counted
  explained : ∀ a ∈ p.1.state.history,
    a.Explained w calls p.2.state.receipts
  increasing : (numbers p.1.state.history).Pairwise (· < ·)
  given : ∀ k ∈ numbers p.1.state.history, k ≤ p.2.state.sequence

theorem reconciled_start (w : Workflow) (limits : EpisodeLimits)
    (setup : SessionSetup) (snapshot : Json) (clock : Clock)
    (sink : ReceiptSink) :
    Reconciled setup w []
      (start w limits, .start setup snapshot clock sink) where
  setup_eq := rfl
  workflow_eq := rfl
  counted := rfl
  explained := nofun
  increasing := .nil
  given := nofun

/-- A session goes on, and the episode makes calls and adds attempts that are
explained and whose numbers were given meanwhile. -/
structure Records (w : Workflow) (p : Episode × Session)
    (calls : List EpisodeCall) (p' : Episode × Session)
    (added : List Attempt) : Prop where
  setup_eq : p'.2.setup = p.2.setup
  workflow_eq : p'.1.workflow = p.1.workflow
  grows : p.2.state.Grows p'.2.state
  history_eq : p'.1.state.history = p.1.state.history ++ added
  explained : ∀ a ∈ added, a.Explained w calls p'.2.state.receipts
  increasing : (numbers added).Pairwise (· < ·)
  given : ∀ k ∈ numbers added,
    p.2.state.sequence < k ∧ k ≤ p'.2.state.sequence

theorem Reconciled.records {more : List EpisodeCall} {added : List Attempt}
    (h : Reconciled setup w calls p) (hrecords : Records w p more p' added) :
    Reconciled setup w (calls ++ more) p' := by
  have hprefix := hrecords.grows.receipts_prefix
  have hcounted := hrecords.grows.counted h.counted
  have hle : p.2.state.sequence ≤ p'.2.state.sequence := by
    rw [← h.counted, ← hcounted]
    exact hprefix.length_le
  have hnumbers : numbers p'.1.state.history =
      numbers p.1.state.history ++ numbers added := by
    rw [hrecords.history_eq, numbers, numbers, numbers,
      List.filterMap_append]
  refine ⟨hrecords.setup_eq.trans h.setup_eq,
    hrecords.workflow_eq.trans h.workflow_eq, hcounted, ?_, ?_, ?_⟩
  · intro a ha
    rw [hrecords.history_eq] at ha
    rcases List.mem_append.1 ha with hold | hnew
    · exact (h.explained a hold).mono (List.subset_append_left _ _) hprefix
    · exact (hrecords.explained a hnew).mono (List.subset_append_right _ _)
        List.prefix_rfl
  · rw [hnumbers, List.pairwise_append]
    refine ⟨h.increasing, hrecords.increasing, fun k hk l hl => ?_⟩
    exact Nat.lt_of_le_of_lt (h.given k hk) (hrecords.given l hl).1
  · intro k hk
    rw [hnumbers] at hk
    rcases List.mem_append.1 hk with hold | hnew
    · exact Nat.le_trans (h.given k hold) hle
    · exact (hrecords.given k hnew).2

theorem Records.of_same (hsetup : p'.2.setup = p.2.setup)
    (hworkflow : p'.1.workflow = p.1.workflow)
    (hgrows : p.2.state.Grows p'.2.state)
    (hhistory : p'.1.state.history = p.1.state.history) :
    Records w p calls p' [] where
  setup_eq := hsetup
  workflow_eq := hworkflow
  grows := hgrows
  history_eq := by rw [hhistory, List.append_nil]
  explained := nofun
  increasing := .nil
  given := nofun

theorem Records.of_undispatched {a : Attempt}
    (hsetup : p'.2.setup = p.2.setup)
    (hworkflow : p'.1.workflow = p.1.workflow)
    (hgrows : p.2.state.Grows p'.2.state)
    (hhistory : p'.1.state.history = p.1.state.history ++ [a])
    (ha : a.Undispatched) : Records w p calls p' [a] := by
  have hnumbers : numbers [a] = [] := by
    rw [numbers, List.filterMap_cons, ha.sequence_eq, List.filterMap_nil]
  refine ⟨hsetup, hworkflow, hgrows, hhistory, ?_, ?_, ?_⟩
  · intro b hb
    cases List.mem_singleton.1 hb
    exact Or.inl ha
  · rw [hnumbers]
    exact .nil
  · rw [hnumbers]
    exact nofun

theorem Records.of_told {a : Attempt} {before : Session} {args : Json}
    {d : Dispatch} (hsetup : p'.2.setup = p.2.setup)
    (hworkflow : p'.1.workflow = p.1.workflow)
    (hgrows : p.2.state.Grows p'.2.state)
    (hhistory : p'.1.state.history = p.1.state.history ++ [a])
    (hcounted : p.2.state.Counted) (hbefore : before.state = p.2.state)
    (hafter : (before.dispatch step.operation.id args).2.state = p'.2.state)
    (ha : a.ToldBy w calls p'.2.state.receipts before step args d) :
    Records w p calls p' [a] := by
  have hnumbers : numbers [a] = [d.response.sequence] := by
    rw [numbers, List.filterMap_cons, ha.sequence_eq, List.filterMap_nil]
  have hlogged := ha.logged
  rw [hbefore, hafter] at hlogged
  have hlast : p'.2.state.sequence = p.2.state.sequence + 1 := by
    rw [← hgrows.counted hcounted, hlogged.receipts_eq, List.length_append,
      hcounted]
    rfl
  refine ⟨hsetup, hworkflow, hgrows, hhistory, ?_, ?_, ?_⟩
  · intro b hb
    cases List.mem_singleton.1 hb
    exact Or.inr ⟨before, step, args, d, ha⟩
  · rw [hnumbers]
    exact List.pairwise_singleton _ _
  · intro k hk
    rw [hnumbers, List.mem_singleton] at hk
    rw [hk, hlogged.sequence_eq, hlast]
    exact ⟨Nat.lt_succ_self _, Nat.le_refl _⟩

/-! ## What a turn records -/

theorem exists_history_of_settle (e : Episode) (step : Step)
    (verdict : Verdict) (sent : Option Sent) :
    ∃ number transition, (e.settle step verdict sent).1.state.history =
      e.state.history ++ [.make step.id number sent verdict transition] := by
  obtain ⟨transition, current, jumps, reason, -, hsettle⟩ :=
    exists_course_of_settle e step verdict sent
  exact ⟨e.state.attemptCount step.id + 1, transition, by rw [hsettle]; rfl⟩

theorem Withheld.not_passed {queue : Approval.Queue} {verdict : Verdict}
    (h : Withheld queue verdict) : verdict ≠ .passed := by
  rintro rfl
  cases h

/-- An attempt that was answered is told by its call and the log. -/
theorem toldBy_of_dispatch {told : Session} {args : Json} {d : Dispatch}
    (hbuilt : told.setup.registry.Built) (hcounted : told.state.Counted)
    (hstep : step ∈ w.steps)
    (hanswer : (told.dispatch step.operation.id args).1 = .ok d)
    (number : Nat) (transition : Transition) :
    (Attempt.make step.id number
        (some ⟨d.response.sequence, d.response.fingerprint,
          d.response.status⟩)
        (verdictOn step d.response
          (told.dispatch step.operation.id args).2.pendingCount)
        transition).ToldBy w [.attempt told step args]
      (told.dispatch step.operation.id args).2.state.receipts told step args
      d := by
  have hlogged := Session.logged_of_dispatch hbuilt hanswer
  exact
    { call_mem := List.mem_singleton_self _
      step_mem := hstep
      step_eq := rfl
      answer_eq := hanswer
      sequence_eq := rfl
      fingerprint_eq := rfl
      status_eq := rfl
      passed_iff := verdictOn_eq_passed_iff step d.response _
      logged := hlogged
      receipt_eq := by
        rw [hlogged.receipts_eq, ← hcounted, List.getElem?_concat_length] }

theorem exists_records_turn (h : Reconciled setup w calls (e, s))
    (hbuilt : setup.registry.Built) :
    ∃ added, Records w (e, s) (e.turnCalls s) (e.turn s).2 added := by
  obtain rfl : s.setup = setup := h.setup_eq
  obtain rfl : e.workflow = w := h.workflow_eq
  have heffect := turn_effect e s
  have hleads := turn_leads e s
  generalize e.turnCalls s = more at heffect hleads ⊢
  generalize e.turn s = taken at heffect hleads ⊢
  obtain ⟨turn, e', s'⟩ := taken
  dsimp only at heffect hleads ⊢
  obtain ⟨hchain, hsetup, hworkflow⟩ := hleads
  have hgrows : s.state.Grows s'.state := by
    rw [hchain.last_eq]
    exact SessionSetup.run_grows s.setup s.state _
  have hsame (hhistory : e'.state.history = e.state.history) :
      ∃ added, Records e.workflow (e, s) more (e', s') added :=
    ⟨[], .of_same hsetup hworkflow hgrows hhistory⟩
  have hundispatched (before : Episode) (step : Step) (verdict : Verdict)
      (he : e' = (before.settle step verdict none).1)
      (hhistory : before.state.history = e.state.history)
      (hverdict : verdict ≠ .passed) :
      ∃ added, Records e.workflow (e, s) more (e', s') added := by
    obtain ⟨number, transition, hsettle⟩ :=
      exists_history_of_settle before step verdict none
    rw [← he, hhistory] at hsettle
    exact ⟨_, .of_undispatched hsetup hworkflow hgrows hsettle
      (Attempt.undispatched_make step.id number transition hverdict)⟩
  cases heffect with
  | kept result => exact hsame rfl
  | finished hrunning hcurrent =>
      exact hsame (EndsAs.finish hrunning s.pendingCount).history_eq
  | withheld i step verdict hrunning hat hwithheld =>
      exact hundispatched e.awake step verdict rfl rfl hwithheld.not_passed
  | denied i step told approval args hrunning hat =>
      exact hundispatched e.awake step _ rfl rfl nofun
  | undenied i step told approval args error hrunning hat =>
      exact hsame rfl
  | suspended i step told approval args hrunning hat => exact hsame rfl
  | timedOut i step hrunning hat => exact hsame rfl
  | failed i step told error hrunning hat => exact hsame rfl
  | attempted i step told verdict sent data hrunning hat hleft hverdict htold
      hattempted =>
      cases hattempted with
      | unresolved error hargs =>
          exact hundispatched (e.readied 1 e.data) step _ rfl rfl nofun
      | untaken args error hargs hanswer =>
          exact hundispatched (e.readied 1 e.data) step _ rfl rfl nofun
      | answered args d hargs hanswer =>
          obtain ⟨number, transition, hhistory⟩ :=
            exists_history_of_settle
              (e.readied 1 (e.awake.data.insert step.id d.response.data))
              step _ _
          have hlast : (told.dispatch step.operation.id args).2.state =
              s'.state := by
            rw [attemptCalls, hargs] at hchain
            rw [hchain.eq_act, ← htold.1, ← htold.2]
            exact (Session.act_eq told (.call step.operation.id args)).2
          have htoldBy := toldBy_of_dispatch (htold.1 ▸ hbuilt)
            (htold.2 ▸ h.counted) (List.mem_of_getElem? hat.step_eq) hanswer
            number transition
          rw [hlast] at htoldBy
          rw [attemptCalls, hargs]
          exact ⟨_, .of_told hsetup hworkflow hgrows hhistory h.counted
            htold.2 hlast htoldBy⟩

theorem Reconciled.turns (fuel : Nat) (h : Reconciled setup w calls (e, s))
    (hbuilt : setup.registry.Built) :
    Reconciled setup w (calls ++ turnsCalls fuel e s)
      (Episode.turns fuel e s).2 := by
  induction fuel generalizing e s calls with
  | zero =>
      rw [turnsCalls, List.append_nil]
      exact h
  | succ fuel ih =>
      obtain ⟨added, hrecords⟩ := exists_records_turn h hbuilt
      have hnext := h.records hrecords
      rw [turnsCalls, Episode.turns]
      generalize e.turn s = taken at hnext ⊢
      obtain ⟨_ | _, e', s'⟩ := taken
      · rw [← List.append_assoc]
        exact ih hnext
      · rw [List.append_nil]
        exact hnext

/-! ## What actions record -/

/-- The end of an episode adds at most an attempt that was not dispatched. -/
theorem exists_records_endEpisode (w : Workflow) (p : Episode × Session) :
    ∃ added, Records w p [] (Episode.act p .endEpisode) added := by
  obtain ⟨e, s⟩ := p
  obtain ⟨hworkflow, hsetup, hstate⟩ := endEpisode_eq e s
  have hgrows : s.state.Grows (e.endEpisode s).2.2.state := by
    rw [hstate]
    exact SessionSetup.act_grows s.setup s.state .close
  have hsame (hhistory : (e.endEpisode s).2.1.state.history =
      e.state.history) :
      ∃ added, Records w (e, s) [] (e.endEpisode s).2 added :=
    ⟨[], .of_same hsetup hworkflow hgrows hhistory⟩
  by_cases hrunning : e.state.status = .running
  · have hexpire := endEpisode_of_running hrunning s
    cases hsuspended : e.state.suspended with
    | none =>
        refine hsame ?_
        rw [hexpire]
        exact (EndsAs.expire hrunning hsuspended).history_eq
    | some suspension =>
        refine ⟨[e.expiredAttempt suspension],
          .of_undispatched hsetup hworkflow hgrows ?_ ⟨rfl, rfl, rfl, nofun⟩⟩
        change (e.endEpisode s).2.1.state.history = _
        rw [hexpire, expire_of_suspended hsuspended]
  · refine hsame ?_
    rw [endEpisode_of_over hrunning s]

theorem Reconciled.act (h : Reconciled setup w calls p)
    (hbuilt : setup.registry.Built) (action : EpisodeAction) :
    Reconciled setup w (calls ++ actCalls p action)
      (Episode.act p action) := by
  have hgrows := SessionSetup.run_grows p.2.setup p.2.state
    (sessionActions p action)
  rw [← (act_session p action).2] at hgrows
  cases action with
  | run => exact h.turns p.1.maxTurns hbuilt
  | call operation args =>
      exact h.records (.of_same (act_session p _).1 rfl hgrows rfl)
  | close => exact h.records (.of_same (act_session p _).1 rfl hgrows rfl)
  | endEpisode =>
      obtain ⟨added, hrecords⟩ := exists_records_endEpisode w p
      exact h.records hrecords

theorem Reconciled.play (h : Reconciled setup w calls p)
    (hbuilt : setup.registry.Built) (actions : List EpisodeAction) :
    Reconciled setup w (calls ++ playCalls p actions)
      (p.1.play p.2 actions) := by
  induction actions generalizing p calls with
  | nil =>
      rw [playCalls, List.append_nil]
      exact h
  | cons action rest ih =>
      rw [playCalls, ← List.append_assoc]
      exact ih (h.act hbuilt action)

/-- Whatever happens to an episode and its session, the history and the log
tell the same.  An attempt with a number has the receipt under that number: the
fingerprint and the status are the same, and the receipt is of the operation of
the step.  Numbers increase along the history.  Number, fingerprint and status
are known together.  An attempt that passed is of a call of the episode whose
answer met all that the step expects, with as many approvals as waited right
after the call. -/
theorem history_matches_receipts {setup : SessionSetup}
    (hbuilt : setup.registry.Built) (w : Workflow) (limits : EpisodeLimits)
    (snapshot : Json) (clock : Clock) (sink : ReceiptSink)
    (actions : List EpisodeAction) :
    let first := (start w limits, Session.start setup snapshot clock sink)
    let last := first.1.play first.2 actions
    let history := last.1.state.history
    let receipts := last.2.state.receipts
    (∀ a ∈ history, ∀ k, a.sequence = some k →
        ∃ n r, k = n + 1 ∧ receipts[n]? = some r ∧ r.sequence = k ∧
          a.fingerprint = some r.fingerprint ∧ a.status = some r.status ∧
          ∃ step ∈ w.steps, a.step = step.id ∧
            r.service = step.operation.id.service ∧
            r.operation = step.operation.id.name) ∧
      (history.filterMap (·.sequence)).Pairwise (· < ·) ∧
      (∀ a ∈ history, a.sequence.isSome = a.fingerprint.isSome ∧
        a.sequence.isSome = a.status.isSome) ∧
      ∀ a ∈ history, a.verdict = .passed →
        ∃ before step args d, a.step = step.id ∧ step ∈ w.steps ∧
          .attempt before step args ∈ playCalls first actions ∧
          (before.dispatch step.operation.id args).1 = .ok d ∧
          a.sequence = some d.response.sequence ∧
          a.fingerprint = some d.response.fingerprint ∧
          a.status = some d.response.status ∧
          ∀ x ∈ step.expect, x.Holds d.response
            (before.dispatch step.operation.id args).2.pendingCount := by
  intro first last history receipts
  have hreconciled : Reconciled setup w (playCalls first actions) last :=
    (reconciled_start w limits setup snapshot clock sink).play hbuilt actions
  refine ⟨?_, hreconciled.increasing, ?_, ?_⟩
  · intro a ha k hk
    rcases hreconciled.explained a ha with
      hnone | ⟨before, step, args, d, htold⟩
    · cases hnone.sequence_eq.symm.trans hk
    · obtain rfl : d.response.sequence = k :=
        Option.some.inj (htold.sequence_eq.symm.trans hk)
      have hlogged := htold.logged
      refine ⟨before.state.sequence, d.receipt, hlogged.sequence_eq,
        htold.receipt_eq, hlogged.receipt_sequence, ?_, ?_, step,
        htold.step_mem, htold.step_eq, hlogged.receipt_service,
        hlogged.receipt_operation⟩
      · rw [htold.fingerprint_eq, hlogged.receipt_fingerprint]
      · rw [htold.status_eq, hlogged.receipt_status]
  · intro a ha
    rcases hreconciled.explained a ha with
      hnone | ⟨before, step, args, d, htold⟩
    · rw [hnone.sequence_eq, hnone.fingerprint_eq, hnone.status_eq]
      exact ⟨rfl, rfl⟩
    · rw [htold.sequence_eq, htold.fingerprint_eq, htold.status_eq]
      exact ⟨rfl, rfl⟩
  · intro a ha hpassed
    rcases hreconciled.explained a ha with
      hnone | ⟨before, step, args, d, htold⟩
    · exact absurd hpassed hnone.not_passed
    · exact ⟨before, step, args, d, htold.step_eq, htold.step_mem,
        htold.call_mem, htold.answer_eq, htold.sequence_eq,
        htold.fingerprint_eq, htold.status_eq, htold.passed_iff.1 hpassed⟩

/-- Somebody sends a mail before the episode sends two.  The attempts have the
second and the third receipt. -/
theorem mails_match_receipts :
    let session := Session.start (mailSetup Session.mailGranted) .null
      (.logical 0) .none
    let last :=
      (start mailWorkflow {}).play session [.call mailSend .null, .run]
    last.1.state.history.map (fun a => (a.sequence, a.verdict)) =
        [(some 2, .passed), (some 3, .passed)] ∧
      ∀ a ∈ last.1.state.history, ∃ r ∈ last.2.state.receipts,
        a.sequence = some r.sequence ∧ a.fingerprint = some r.fingerprint ∧
          a.status = some r.status := by
  intro session last
  have hplayed : last.1.state.history.map
        (fun a => (a.sequence, a.verdict)) =
      [(some 2, .passed), (some 3, .passed)] := by
    decide +kernel
  have hsent : ∀ a ∈ last.1.state.history, a.sequence.isSome = true := by
    decide +kernel
  have hbuilt : (mailSetup Session.mailGranted).registry.Built :=
    mailRegistry_built
  have hmatches := (history_matches_receipts hbuilt mailWorkflow {} .null
    (.logical 0) .none [.call mailSend .null, .run]).1
  dsimp only [last, session] at hplayed hsent hmatches ⊢
  refine ⟨hplayed, fun a ha => ?_⟩
  obtain ⟨k, hk⟩ := Option.isSome_iff_exists.1 (hsent a ha)
  obtain ⟨n, r, -, hr, hsequence, hfingerprint, hstatus, -⟩ :=
    hmatches a ha k hk
  refine ⟨r, List.mem_of_getElem? hr, ?_, hfingerprint, hstatus⟩
  rw [hk, hsequence]

end Episode

end CallGate
