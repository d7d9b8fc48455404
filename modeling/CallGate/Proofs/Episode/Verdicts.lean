import CallGate.Proofs.Episode.Blocking
import CallGate.Proofs.Episode.Turns
import CallGate.Proofs.Session.Decisions

/-!
# What verdicts say about approvals

A run writes that an approval was denied or has expired when the queue says
so, and what the queue says about a resolved approval never changes.  Ending
an episode from outside is different: it writes that the approval of a step
that waits has expired, and does not look whether somebody decided it since
the last run.  That is the only way in which a history and a queue come to
disagree.
-/

namespace CallGate

/-- What the verdict says about an approval, if anything, is what the queue
says about it. -/
def Verdict.AgreesWith (v : Verdict) (q : Approval.Queue) : Prop :=
  match v with
  | .passed | .assertionFailed _ => True
  | .approvalDenied id => ∃ a, q.get? id = some a ∧ a.resolution = .denied
  | .approvalExpired id => ∃ a, q.get? id = some a ∧ a.resolution = .expired

theorem Verdict.AgreesWith.mono {v : Verdict} {q q' : Approval.Queue}
    (h : v.AgreesWith q) (hkeeps : q.Keeps q') : v.AgreesWith q' := by
  cases v with
  | passed => trivial
  | assertionFailed failures => trivial
  | approvalDenied id =>
      obtain ⟨a, hget, hdenied⟩ := h
      have hsame := hkeeps.get?_of_resolved hget (by simp [hdenied])
      exact ⟨a, hsame, hdenied⟩
  | approvalExpired id =>
      obtain ⟨a, hget, hexpired⟩ := h
      have hsame := hkeeps.get?_of_resolved hget (by simp [hexpired])
      exact ⟨a, hsame, hexpired⟩

namespace EpisodeCall.Chain

variable {setup : SessionSetup} {st last : SessionState}
  {calls : List EpisodeCall} {c : EpisodeCall}

theorem eq_of_nil (h : Chain setup st [] last) : last = st := by
  cases h
  rfl

theorem eq_act (h : Chain setup st [c] last) :
    last = setup.act st c.action := by
  cases h with
  | cons hsetup hrest => exact hrest.eq_of_nil

theorem accounted (h : Chain setup st calls last)
    (hbuilt : setup.registry.Built) (hst : setup.Accounted st) :
    setup.Accounted last ∧ st.approvals.Keeps last.approvals := by
  induction h with
  | nil => exact ⟨hst, .refl _⟩
  | @cons first _ _ hsetup _ ih =>
      have hkeeps := hst.orderly.keeps_act first.action
      obtain ⟨hlast, hrest⟩ := ih (hst.act hbuilt first.action)
      exact ⟨hlast, hkeeps.trans hrest⟩

end EpisodeCall.Chain

namespace Episode

variable {e e' : Episode} {s s' told : Session} {step : Step}
  {setup : SessionSetup} {p p' : Episode × Session}
  {actions : List EpisodeAction}

/-! ## What a step waits for -/

theorem exists_blocking_of_blockedBy? {approval : String} {args : Json}
    (h : e.blockedBy? step s = some (approval, args)) :
    ∃ a, s.blocking step.operation.id args = .ok (some a) ∧
      a.id = approval := by
  rw [blockedBy?] at h
  split at h
  · cases h
  · split at h
    · cases h
    · split at h
      · rename_i a hblocking
        cases h
        exact ⟨a, hblocking, rfl⟩
      · cases h
      · cases h

theorem mem_of_blocking {operation : OperationId} {args : Json}
    {a : Approval} (h : s.blocking operation args = .ok (some a)) :
    a ∈ s.state.approvals.entries := by
  rw [Session.blocking] at h
  split at h
  · cases h
  · exact List.mem_of_find?_eq_some (Except.ok.inj h)

/-! ## What an episode adds to its history -/

/-- The session is in order, and what the episode waits for is in its
queue. -/
structure Attests (setup : SessionSetup) (p : Episode × Session) :
    Prop where
  setup_eq : p.2.setup = setup
  accounted : setup.Accounted p.2.state
  named : ∀ suspension, p.1.state.suspended = some suspension →
    ∃ a, p.2.state.approvals.get? suspension.approval = some a

/-- The attempts that were added have verdicts that agree with the queue. -/
def Adds (p p' : Episode × Session) : Prop :=
  ∃ added, p'.1.state.history = p.1.state.history ++ added ∧
    ∀ a ∈ added, a.verdict.AgreesWith p'.2.state.approvals

def Agrees (p : Episode × Session) : Prop :=
  ∀ a ∈ p.1.state.history, a.verdict.AgreesWith p.2.state.approvals

theorem Adds.of_eq (h : p'.1.state.history = p.1.state.history) :
    Adds p p' :=
  ⟨[], by rw [h, List.append_nil], nofun⟩

theorem Adds.agrees (h : Adds p p') (hagrees : Agrees p)
    (hkeeps : p.2.state.approvals.Keeps p'.2.state.approvals) :
    Agrees p' := by
  obtain ⟨added, hhistory, hadded⟩ := h
  intro a ha
  rw [hhistory] at ha
  rcases List.mem_append.1 ha with hold | hnew
  · exact (hagrees a hold).mono hkeeps
  · exact hadded a hnew

theorem Adds.trans {p'' : Episode × Session} (h : Adds p p')
    (h' : Adds p' p'')
    (hkeeps : p'.2.state.approvals.Keeps p''.2.state.approvals) :
    Adds p p'' := by
  obtain ⟨added, hhistory, hadded⟩ := h
  obtain ⟨more, hhistory', hmore⟩ := h'
  refine ⟨added ++ more, ?_, fun a ha => ?_⟩
  · rw [hhistory', hhistory, List.append_assoc]
  · rcases List.mem_append.1 ha with hold | hnew
    · exact (hadded a hold).mono hkeeps
    · exact hmore a hnew

theorem Adds.of_settle {before : Episode} {verdict : Verdict}
    (hhistory : before.state.history = e.state.history)
    (hagrees : verdict.AgreesWith s'.state.approvals)
    (sent : Option Sent) :
    Adds (e, s) ((before.settle step verdict sent).1, s') := by
  obtain ⟨transition, current, jumps, reason, -, hsettle⟩ :=
    exists_course_of_settle before step verdict sent
  let number := before.state.attemptCount step.id + 1
  refine ⟨[.make step.id number sent verdict transition], ?_, ?_⟩
  · rw [hsettle, ← hhistory]
    rfl
  · intro a ha
    cases List.mem_singleton.1 ha
    exact hagrees

/-- A session that goes on in order still has what the episode waits for. -/
theorem Attests.later (h : Attests setup (e, s)) (hsetup : s'.setup = s.setup)
    (haccounted : setup.Accounted s'.state)
    (hkeeps : s.state.approvals.Keeps s'.state.approvals)
    (hsuspended : e'.state.suspended = none ∨
      e'.state.suspended = e.state.suspended) :
    Attests setup (e', s') := by
  refine ⟨hsetup.trans h.setup_eq, haccounted, ?_⟩
  intro suspension hsuspension
  rcases hsuspended with hnone | hsame
  · cases hnone.symm.trans hsuspension
  · obtain ⟨a, hget⟩ := h.named suspension (hsame.symm.trans hsuspension)
    obtain ⟨b, hb, -⟩ := hkeeps _ a hget
    exact ⟨b, hb⟩

theorem Withheld.agreesWith {q : Approval.Queue} {verdict : Verdict}
    (h : Withheld q verdict) : verdict.AgreesWith q := by
  cases h with
  | denied a approval hget hdenied => exact ⟨a, hget, hdenied⟩
  | expired a approval hget hexpired => exact ⟨a, hget, hexpired⟩

/-- A verdict that an auto-denial leads to agrees with the queue that it leads
to. -/
theorem agreesWith_of_denial {approval : String} {args : Json} {d : Dispatch}
    (hbuilt : told.setup.registry.Built)
    (haccounted : told.setup.Accounted told.state)
    (hblocked : e.blockedBy? step told = some (approval, args))
    (hanswer : (told.resolve .deny step.operation.id (some args)).1 = .ok d) :
    (Verdict.approvalDenied approval).AgreesWith
      (told.setup.act told.state
        (EpisodeCall.denial told step args).action).approvals := by
  obtain ⟨a, hblocking, rfl⟩ := exists_blocking_of_blockedBy? hblocked
  have hact := (Session.act_eq told
    (EpisodeCall.denial told step args).action).2
  rw [← hact]
  exact Session.get?_of_denial hbuilt haccounted hblocking hanswer

/-- What a turn adds to the history agrees with the queue after it.  Two of the
ends of a turn add a verdict on an approval: one takes it from the queue, and
the other has just denied the approval. -/
theorem Attests.turn (h : Attests setup (e, s))
    (hbuilt : setup.registry.Built) :
    Attests setup (e.turn s).2 ∧ Adds (e, s) (e.turn s).2 ∧
      s.state.approvals.Keeps (e.turn s).2.2.state.approvals := by
  obtain rfl : s.setup = setup := h.setup_eq
  have haccounted : s.setup.Accounted s.state := h.accounted
  have heffect := turn_effect e s
  have hleads := turn_leads e s
  obtain ⟨hlast, hkeeps⟩ := hleads.chain.accounted hbuilt haccounted
  generalize e.turnCalls s = calls at heffect hleads
  generalize e.turn s = taken at heffect hleads hlast hkeeps ⊢
  obtain ⟨turn, e', s'⟩ := taken
  dsimp only at heffect hleads hlast hkeeps ⊢
  have hkept (hhistory : e'.state.history = e.state.history)
      (hsuspended : e'.state.suspended = none ∨
        e'.state.suspended = e.state.suspended) :
      Attests s.setup (e', s') ∧ Adds (e, s) (e', s') ∧
        s.state.approvals.Keeps s'.state.approvals :=
    ⟨h.later hleads.setup_eq hlast hkeeps hsuspended, .of_eq hhistory,
      hkeeps⟩
  have hsettled (before : Episode) (step : Step) (verdict : Verdict)
      (sent : Option Sent) (he : e' = (before.settle step verdict sent).1)
      (hhistory : before.state.history = e.state.history)
      (hnone : before.state.suspended = none)
      (hagrees : verdict.AgreesWith s'.state.approvals) :
      Attests s.setup (e', s') ∧ Adds (e, s) (e', s') ∧
        s.state.approvals.Keeps s'.state.approvals := by
    subst he
    have hsuspended := settle_suspended before step verdict sent
    refine ⟨?_, .of_settle hhistory hagrees sent, hkeeps⟩
    exact h.later hleads.setup_eq hlast hkeeps
      (Or.inl (hsuspended.trans hnone))
  cases heffect with
  | kept result => exact hkept rfl (Or.inr rfl)
  | finished hrunning hcurrent =>
      have hends := EndsAs.finish hrunning s.pendingCount
      exact hkept hends.history_eq hends.suspended_eq
  | withheld i step verdict hrunning hat hwithheld =>
      exact hsettled e.awake step verdict none rfl rfl rfl
        (hwithheld.agreesWith.mono hkeeps)
  | denied i step told approval args hrunning hat hclear htold hblocked
      hfallback hanswer =>
      obtain ⟨d, hd⟩ := hanswer
      have hagrees := agreesWith_of_denial (htold.1 ▸ hbuilt)
        (htold.1 ▸ htold.2 ▸ haccounted) hblocked hd
      rw [htold.1, htold.2, ← hleads.chain.eq_act] at hagrees
      exact hsettled e.awake step _ none rfl rfl rfl hagrees
  | undenied i step told approval args error hrunning hat hblocked =>
      exact hkept rfl (Or.inl rfl)
  | suspended i step told approval args hrunning hat htold hblocked =>
      refine ⟨⟨hleads.setup_eq, hlast, ?_⟩, .of_eq rfl, hkeeps⟩
      intro suspension hsuspension
      cases hsuspension
      obtain ⟨a, hblocking, rfl⟩ := exists_blocking_of_blockedBy? hblocked
      have hmem := mem_of_blocking hblocking
      rw [htold.2] at hmem
      obtain ⟨b, hb, -⟩ :=
        hkeeps _ a (haccounted.orderly.kept.get?_of_mem hmem)
      exact ⟨b, hb⟩
  | timedOut i step hrunning hat hused => exact hkept rfl (Or.inl rfl)
  | attempted i step told verdict sent data hrunning hat hleft hverdict =>
      refine hsettled (e.readied 1 data) step verdict sent rfl rfl rfl ?_
      rcases hverdict with rfl | ⟨failures, rfl⟩
      · trivial
      · trivial
  | failed i step told error hrunning hat hleft =>
      exact hkept rfl (Or.inl rfl)

theorem Attests.run (h : Attests setup (e, s))
    (hbuilt : setup.registry.Built) :
    Attests setup (e.run s).2 ∧ Adds (e, s) (e.run s).2 ∧
      s.state.approvals.Keeps (e.run s).2.2.state.approvals := by
  let P : Episode → Session → Prop := fun e' s' =>
    Attests setup (e', s') ∧ Adds (e, s) (e', s') ∧
      s.state.approvals.Keeps s'.state.approvals
  have hstart : P e s := ⟨h, .of_eq rfl, .refl _⟩
  refine run_keeps (P := P) (fun e' s' hP => ?_) hstart
  obtain ⟨hattests, hadds, hkeeps⟩ := hP
  obtain ⟨hattests', hadds', hkeeps'⟩ := hattests.turn hbuilt
  exact ⟨hattests', hadds.trans hadds' hkeeps', hkeeps.trans hkeeps'⟩

/-! ## Episodes that are ended from outside -/

/-- The episode waits for an approval that somebody decided since the last
run. -/
def WaitsForDecided (p : Episode × Session) : Prop :=
  p.1.state.status = .running ∧
    ∃ suspension a, p.1.state.suspended = some suspension ∧
      p.2.state.approvals.get? suspension.approval = some a ∧
      a.resolution.isDecision = true

theorem attests_start (w : Workflow) (limits : EpisodeLimits)
    (setup : SessionSetup) (snapshot : Json) (clock : Clock)
    (sink : ReceiptSink) :
    Attests setup (start w limits, .start setup snapshot clock sink) where
  setup_eq := rfl
  accounted := setup.accounted_start snapshot clock
  named := nofun

theorem Attests.act (h : Attests setup p) (hbuilt : setup.registry.Built)
    (action : EpisodeAction) :
    Attests setup (Episode.act p action) ∧
      p.2.state.approvals.Keeps
        (Episode.act p action).2.state.approvals := by
  obtain ⟨e, s⟩ := p
  have hsession (e' : Episode) (s' : Session) (action : SessionAction)
      (hsetup : s'.setup = s.setup)
      (hstate : s'.state = s.setup.act s.state action)
      (hsuspended : e'.state.suspended = none ∨
        e'.state.suspended = e.state.suspended) :
      Attests setup (e', s') ∧
        s.state.approvals.Keeps s'.state.approvals := by
    obtain rfl : s.setup = setup := h.setup_eq
    have haccounted : s.setup.Accounted s.state := h.accounted
    have hkeeps := haccounted.orderly.keeps_act action
    have hlater := haccounted.act hbuilt action
    rw [← hstate] at hkeeps hlater
    exact ⟨h.later hsetup hlater hkeeps hsuspended, hkeeps⟩
  cases action with
  | run =>
      obtain ⟨hattests, -, hkeeps⟩ := h.run hbuilt
      exact ⟨hattests, hkeeps⟩
  | call operation args =>
      obtain ⟨hsetup, hstate⟩ := Session.act_eq s (.call operation args)
      exact hsession e _ _ hsetup hstate (Or.inr rfl)
  | close =>
      obtain ⟨hsetup, hstate⟩ := Session.act_eq s .close
      exact hsession e _ _ hsetup hstate (Or.inr rfl)
  | endEpisode =>
      obtain ⟨-, hsetup, hstate⟩ := endEpisode_eq e s
      refine hsession _ _ _ hsetup hstate ?_
      by_cases hrunning : e.state.status = .running
      · rw [endEpisode_of_running hrunning]
        cases hsuspended : e.state.suspended with
        | none =>
            have hends := EndsAs.expire hrunning hsuspended
            exact hsuspended ▸ hends.suspended_eq
        | some suspension =>
            rw [expire_of_suspended hsuspended]
            exact Or.inl rfl
      · rw [endEpisode_of_over hrunning]
        exact Or.inr rfl

/-- What an action adds to the history agrees with the queue after it, unless
it ends an episode that waits for an approval that was decided. -/
theorem Attests.adds (h : Attests setup p) (hbuilt : setup.registry.Built)
    {action : EpisodeAction}
    (haction : action = .endEpisode → ¬WaitsForDecided p) :
    Adds p (Episode.act p action) := by
  obtain ⟨e, s⟩ := p
  cases action with
  | run => exact (h.run hbuilt).2.1
  | call operation args => exact .of_eq rfl
  | close => exact .of_eq rfl
  | endEpisode =>
      have hnot := haction rfl
      by_cases hrunning : e.state.status = .running
      · have hended := endEpisode_of_running hrunning s
        cases hsuspended : e.state.suspended with
        | none =>
            refine .of_eq ?_
            rw [Episode.act, hended]
            exact (EndsAs.expire hrunning hsuspended).history_eq
        | some suspension =>
            obtain ⟨rfl, haccounted, hnamed⟩ := h
            obtain ⟨a, hget⟩ := hnamed suspension hsuspended
            have hundecided : a.resolution.isDecision = false := by
              rw [Bool.eq_false_iff]
              intro hdecided
              exact hnot ⟨hrunning, suspension, a, hsuspended, hget,
                hdecided⟩
            obtain ⟨b, hb, hexpired⟩ :=
              haccounted.expired_of_close hget hundecided
            refine ⟨[e.expiredAttempt suspension], ?_, fun c hc => ?_⟩
            · rw [Episode.act, hended, expire_of_suspended hsuspended]
            · cases List.mem_singleton.1 hc
              refine ⟨b, ?_, hexpired⟩
              rw [Episode.act, (endEpisode_eq e s).2.2]
              exact hb
      · refine .of_eq ?_
        rw [Episode.act, endEpisode_of_over hrunning]

/-- Ending an episode that waits for an approval that was decided adds an
attempt that says otherwise. -/
theorem Attests.ends_disagreeing (h : Attests setup p)
    (hwaits : WaitsForDecided p) :
    let p' := Episode.act p .endEpisode
    p'.1.state.status ≠ .running ∧
      ∃ a approval, p'.1.state.history = p.1.state.history ++ [a] ∧
        a.verdict = .approvalExpired approval ∧
        ∃ b, p'.2.state.approvals.get? approval = some b ∧
          b.resolution.isDecision = true := by
  obtain ⟨e, s⟩ := p
  obtain ⟨hrunning, suspension, b, hsuspended, hget, hdecided⟩ := hwaits
  obtain ⟨rfl, haccounted, -⟩ := h
  have hresolved := Approval.Resolution.ne_unresolved_of_isDecision hdecided
  have hkeeps := haccounted.orderly.keeps_act .close
  dsimp only [Episode.act]
  rw [endEpisode_of_running hrunning, expire_of_suspended hsuspended,
    (endEpisode_eq e s).2.2]
  refine ⟨nofun, e.expiredAttempt suspension, suspension.approval, rfl, rfl,
    b, ?_, hdecided⟩
  exact hkeeps.get?_of_resolved hget hresolved

/-! ## Histories and queues -/

theorem play_cons (p : Episode × Session) (action : EpisodeAction)
    (actions : List EpisodeAction) :
    p.1.play p.2 (action :: actions) =
      (Episode.act p action).1.play (Episode.act p action).2 actions := rfl

theorem play_append (p : Episode × Session)
    (before after : List EpisodeAction) :
    p.1.play p.2 (before ++ after) =
      (p.1.play p.2 before).1.play (p.1.play p.2 before).2 after := by
  rw [play, List.foldl_append]
  rfl

theorem act_of_over (h : p.1.state.status ≠ .running)
    (action : EpisodeAction) : (Episode.act p action).1 = p.1 := by
  cases action with
  | run => rw [Episode.act, run_of_over h]
  | call operation args => rfl
  | close => rfl
  | endEpisode => exact endEpisode_of_over h p.2

theorem play_of_over (h : p.1.state.status ≠ .running)
    (actions : List EpisodeAction) : (p.1.play p.2 actions).1 = p.1 := by
  induction actions generalizing p with
  | nil => rfl
  | cons action rest ih =>
      have hsame := act_of_over h action
      rw [play_cons, ih (hsame ▸ h), hsame]

theorem Attests.play (h : Attests setup p) (hbuilt : setup.registry.Built)
    (actions : List EpisodeAction) :
    Attests setup (p.1.play p.2 actions) ∧
      p.2.state.approvals.Keeps
        (p.1.play p.2 actions).2.state.approvals := by
  induction actions generalizing p with
  | nil => exact ⟨h, .refl _⟩
  | cons action rest ih =>
      obtain ⟨hattests, hkeeps⟩ := h.act hbuilt action
      obtain ⟨hlast, hrest⟩ := ih hattests
      exact ⟨hlast, hkeeps.trans hrest⟩

def EndsDecided (p : Episode × Session) (actions : List EpisodeAction) :
    Prop :=
  ∃ before after, actions = before ++ .endEpisode :: after ∧
    WaitsForDecided (p.1.play p.2 before)

theorem Attests.agrees_play (h : Attests setup p)
    (hbuilt : setup.registry.Built) (hagrees : Agrees p)
    (hnot : ¬EndsDecided p actions) : Agrees (p.1.play p.2 actions) := by
  induction actions generalizing p with
  | nil => exact hagrees
  | cons action rest ih =>
      obtain ⟨hattests, hkeeps⟩ := h.act hbuilt action
      have haction : action = .endEpisode → ¬WaitsForDecided p := by
        rintro rfl hwaits
        exact hnot ⟨[], rest, rfl, hwaits⟩
      refine ih hattests ((h.adds hbuilt haction).agrees hagrees hkeeps) ?_
      rintro ⟨before, after, rfl, hwaits⟩
      exact hnot ⟨action :: before, after, rfl, hwaits⟩

/-- The attempt that says otherwise stays, because the episode is over, and it
stays wrong, because the approval is resolved. -/
theorem Attests.not_agrees_play (h : Attests setup p)
    (hbuilt : setup.registry.Built) (hends : EndsDecided p actions) :
    ¬Agrees (p.1.play p.2 actions) := by
  obtain ⟨before, after, rfl, hwaits⟩ := hends
  have hbefore := (h.play hbuilt before).1
  obtain ⟨hover, a, approval, hhistory, hverdict, b, hget, hdecided⟩ :=
    hbefore.ends_disagreeing hwaits
  have hended := (hbefore.act hbuilt .endEpisode).1
  have hkeeps := (hended.play hbuilt after).2
  rw [play_append, play_cons]
  intro hagrees
  generalize Episode.act (p.1.play p.2 before) .endEpisode = ended
    at hover hhistory hget hkeeps hagrees
  have hmem : a ∈ (ended.1.play ended.2 after).1.state.history := by
    rw [play_of_over hover, hhistory]
    exact List.mem_append_right _ (List.mem_singleton_self a)
  have hsays := hagrees a hmem
  rw [hverdict] at hsays
  obtain ⟨c, hc, hexpired⟩ := hsays
  rw [hkeeps.get?_of_resolved hget
    (Approval.Resolution.ne_unresolved_of_isDecision hdecided)] at hc
  cases hc
  rw [hexpired] at hdecided
  cases hdecided

def DeniesTruly (p : Episode × Session) : Prop :=
  ∀ a ∈ p.1.state.history, ∀ id, a.verdict = .approvalDenied id →
    a.verdict.AgreesWith p.2.state.approvals

theorem Attests.deniesTruly_act (h : Attests setup p)
    (hbuilt : setup.registry.Built) (hdenies : DeniesTruly p)
    (action : EpisodeAction) : DeniesTruly (Episode.act p action) := by
  have hkeeps := (h.act hbuilt action).2
  intro a ha id hid
  by_cases hends : action = .endEpisode ∧ WaitsForDecided p
  · obtain ⟨rfl, hwaits⟩ := hends
    obtain ⟨-, b, approval, hhistory, hverdict, -⟩ :=
      h.ends_disagreeing hwaits
    rw [hhistory] at ha
    rcases List.mem_append.1 ha with hold | hnew
    · exact (hdenies a hold id hid).mono hkeeps
    · cases List.mem_singleton.1 hnew
      cases hverdict.symm.trans hid
  · obtain ⟨added, hhistory, hadded⟩ := h.adds hbuilt fun haction hwaits =>
      hends ⟨haction, hwaits⟩
    rw [hhistory] at ha
    rcases List.mem_append.1 ha with hold | hnew
    · exact (hdenies a hold id hid).mono hkeeps
    · exact hadded a hnew

theorem Attests.deniesTruly_play (h : Attests setup p)
    (hbuilt : setup.registry.Built) (hdenies : DeniesTruly p)
    (actions : List EpisodeAction) :
    DeniesTruly (p.1.play p.2 actions) := by
  induction actions generalizing p with
  | nil => exact hdenies
  | cons action rest ih =>
      exact ih (h.act hbuilt action).1
        (h.deniesTruly_act hbuilt hdenies action)

/-- Whatever happens to an episode and its session, a verdict of denial names
an approval that was denied.  A verdict of expiry names one that has expired,
unless the episode was ended while it waited for an approval that had been
decided. -/
theorem verdicts_agree_iff {setup : SessionSetup}
    (hbuilt : setup.registry.Built) (w : Workflow) (limits : EpisodeLimits)
    (snapshot : Json) (clock : Clock) (sink : ReceiptSink)
    (actions : List EpisodeAction) :
    let first := (start w limits, Session.start setup snapshot clock sink)
    let last := first.1.play first.2 actions
    (∀ a ∈ last.1.state.history, ∀ id, a.verdict = .approvalDenied id →
        a.verdict.AgreesWith last.2.state.approvals) ∧
      ((∀ a ∈ last.1.state.history,
          a.verdict.AgreesWith last.2.state.approvals) ↔
        ¬∃ before after, actions = before ++ .endEpisode :: after ∧
          WaitsForDecided (first.1.play first.2 before)) := by
  intro first last
  have hattests : Attests setup first :=
    attests_start w limits setup snapshot clock sink
  have hagrees : Agrees first := by
    intro a ha
    cases ha
  have hdenies : DeniesTruly first := by
    intro a ha
    cases ha
  refine ⟨hattests.deniesTruly_play hbuilt hdenies actions, ?_, ?_⟩
  · intro hall hends
    exact hattests.not_agrees_play hbuilt hends hall
  · intro hnot
    exact hattests.agrees_play hbuilt hagrees hnot

/-- A document whose first step asks for the approval of the second one. -/
def askingDocument : WorkflowDocument :=
  { mailDocument with
    steps :=
      [⟨"ask", "", ⟨"approvals", "request",
            Session.decisionArgs mailSend none⟩, [], .fail, none, none⟩,
        ⟨"send", "", ⟨"mail", "send", .null⟩, [], .fail, none, none⟩] }

def askingWorkflow : Workflow :=
  askingDocument.withSteps
    [⟨0, "ask", "", .viaControl .request, Session.decisionArgs mailSend none,
        Expectation.ordinary, .fail, none, none⟩,
      { mailStep 1 "send" with onFailure := .fail, fallback := none }]

/-- The approval is denied and the episode is ended before it runs again: the
history says that the approval has expired. -/
theorem denied_then_ended :
    let session := Session.start (mailSetup {}) .null (.logical 0) .none
    let denial : EpisodeAction :=
      .call ApprovalControl.deny.id (Session.decisionArgs mailSend none)
    let last :=
      (start askingWorkflow {}).play session [.run, denial, .endEpisode]
    last.1.state.history.map (·.verdict) =
        [.passed, .approvalExpired "approval-1"] ∧
      (last.2.state.approvals.get? "approval-1").map (·.resolution) =
        some .denied ∧
      ¬∀ a ∈ last.1.state.history,
        a.verdict.AgreesWith last.2.state.approvals := by
  intro session denial last
  let middle := (start askingWorkflow {}).play session [.run, denial]
  have hlast : last.1.state.history.map (·.verdict) =
        [.passed, .approvalExpired "approval-1"] ∧
      (last.2.state.approvals.get? "approval-1").map (·.resolution) =
        some .denied := by
    decide +kernel
  have hsuspended : middle.1.state.status = .running ∧
      middle.1.state.suspended = some ⟨"send", "approval-1"⟩ ∧
      (middle.2.state.approvals.get? "approval-1").map (·.resolution) =
        some .denied := by
    decide +kernel
  obtain ⟨hrunning, hwaits, hdenied⟩ := hsuspended
  obtain ⟨a, hget, hresolution⟩ := Option.map_eq_some_iff.1 hdenied
  have hbuilt : (mailSetup {}).registry.Built := mailRegistry_built
  have hiff := (verdicts_agree_iff hbuilt askingWorkflow {} .null (.logical 0)
    .none [.run, denial, .endEpisode]).2
  refine ⟨hlast.1, hlast.2, fun hall => hiff.1 hall ?_⟩
  refine ⟨[.run, denial], [], rfl, hrunning, ⟨"send", "approval-1"⟩, a,
    hwaits, hget, ?_⟩
  rw [hresolution]
  rfl

end Episode

end CallGate
