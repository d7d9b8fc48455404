import CallGate.Episode.State
import CallGate.Proofs.Document.Workflows
import CallGate.Session.Config

/-!
# Sessions and episodes that are written and read again

Queues of approvals, policies, configurations of sessions and states of
episodes are stable.  With the documents before them this is so for every kind
of document.
-/

namespace CallGate

open Decoder

/-! ## Approvals -/

namespace Approval

theorem Matching.stable : Matching.decode.Stable Matching.encode :=
  stable_label fun a => by cases a <;> rfl

theorem Target.stable : Target.decode.Stable Target.encode := by
  apply Reads.Stable.record
  · intro w t h m
    simp only [Reads.gives_seq, Reads.gives_map] at h ⊢
    obtain ⟨operation, hoperation, digest, hdigest, rfl⟩ := h
    exact ⟨operation, OperationId.stable.required hoperation (by simp), digest,
      stable_text.optional nofun hdigest (by simp), rfl⟩
  · rintro ⟨_, _ | _⟩ <;> rfl

theorem Resolution.stable : Resolution.decode.Stable Resolution.encode :=
  stable_label fun r => by cases r <;> rfl

theorem stable : Approval.decode.Stable Approval.encode := by
  apply Reads.Stable.record
  · intro w a h m
    simp only [Reads.gives_seq, Reads.gives_map] at h ⊢
    obtain ⟨id, hid, target, htarget, requestedBy, hrequestedBy, requestedAt,
      hrequestedAt, resolution, hresolution, resolvedAt, hresolvedAt, rfl⟩ := h
    exact ⟨id, stable_text.required hid rfl, target,
      Target.stable.required htarget (by simp), requestedBy,
      stable_text.required hrequestedBy (by simp), requestedAt,
      (stable_natural _).required hrequestedAt (by simp), resolution,
      Resolution.stable.required hresolution (by simp), resolvedAt,
      (stable_natural _).optional nofun hresolvedAt (by simp), rfl⟩
  · rintro ⟨_, _, _, _, _, _ | _⟩ <;> rfl

theorem Queue.stable : Queue.decode.Stable Queue.encode := by
  apply Reads.Stable.record
  · intro w q h m
    simp only [Reads.gives_seq, Reads.gives_map] at h ⊢
    obtain ⟨matching, hmatching, entries, hentries, rfl⟩ := h
    exact ⟨matching, Matching.stable.required hmatching rfl, entries,
      Approval.stable.list.required hentries rfl, rfl⟩
  · intro q
    rfl

end Approval

/-! ## Configurations -/

theorem Override.stable : Override.decode.Stable Override.encode :=
  stable_label fun o => by cases o <;> rfl

theorem Policy.stable : Policy.decode.Stable Policy.encode := by
  have hoverrides := Override.stable.mapOf fun _ _ h =>
    OperationId.read_display h
  apply Reads.Stable.record
  · intro w p h m
    simp only [Reads.gives_seq, Reads.gives_map] at h ⊢
    obtain ⟨writeSafe, hwriteSafe, hardBlock, hhardBlock, overrides, hmap,
      preGranted, hpreGranted, matching, hmatching, rfl⟩ := h
    exact ⟨writeSafe, stable_bool.defaulted (fun _ => rfl) hwriteSafe rfl,
      hardBlock,
      OperationSet.stable.defaulted (fun _ => rfl) hhardBlock rfl, overrides,
      hoverrides.defaulted (fun _ => rfl) hmap rfl, preGranted,
      OperationSet.stable.defaulted (fun _ => rfl) hpreGranted rfl, matching,
      Approval.Matching.stable.defaulted (fun _ => rfl) hmatching rfl, rfl⟩
  · intro p
    rfl

theorem Mode.stable : Mode.decode.Stable Mode.encode :=
  stable_label fun m => by cases m <;> rfl

theorem Modes.stable : Modes.decode.Stable Modes.encode := by
  apply Reads.Stable.record
  · intro w modes h m
    simp only [Reads.gives_seq, Reads.gives_map] at h ⊢
    obtain ⟨default, hdefault, services, hservices, rfl⟩ := h
    exact ⟨default, Mode.stable.defaulted (fun _ => rfl) hdefault rfl, services,
      Mode.stable.textMap.defaulted (fun _ => rfl) hservices rfl, rfl⟩
  · intro modes
    rfl

theorem LiveGuard.stable : LiveGuard.decode.Stable LiveGuard.encode := by
  apply Reads.Stable.record
  · intro w g h m
    simp only [Reads.gives_seq, Reads.gives_map] at h ⊢
    obtain ⟨safe, hsafe, risky, hrisky, hardBlock, hhardBlock, rfl⟩ := h
    exact ⟨safe, stable_bool.defaulted (fun _ => rfl) hsafe rfl, risky,
      stable_bool.defaulted (fun _ => rfl) hrisky rfl, hardBlock,
      OperationSet.stable.defaulted (fun _ => rfl) hhardBlock rfl, rfl⟩
  · intro g
    rfl

theorem SessionConfig.stable :
    SessionConfig.decode.Stable SessionConfig.encode := by
  apply Reads.Stable.record
  · intro w c h m
    simp only [Reads.gives_seq, Reads.gives_map] at h ⊢
    obtain ⟨id, hid, seed, hseed, modes, hmodes, policy, hpolicy, guard, hguard,
      rfl⟩ := h
    exact ⟨id, stable_text.defaulted (fun _ => rfl) hid rfl, seed,
      (stable_natural _).defaulted (fun _ => rfl) hseed rfl, modes,
      Modes.stable.defaulted (fun _ => rfl) hmodes rfl, policy,
      Policy.stable.defaulted (fun _ => rfl) hpolicy rfl, guard,
      LiveGuard.stable.defaulted (fun _ => rfl) hguard rfl, rfl⟩
  · intro c
    rfl

/-! ## Episodes -/

theorem EpisodeStatus.stable :
    EpisodeStatus.decode.Stable EpisodeStatus.encode :=
  stable_label fun s => by cases s <;> rfl

theorem EndReason.stable : EndReason.decode.Stable EndReason.encode := by
  intro m t r h m'
  obtain ⟨s, read, t', hmem, hread⟩ := exists_of_tagged h
  simp only [List.mem_cons, Prod.mk.injEq, List.not_mem_nil, or_false] at hmem
  rcases hmem with ⟨rfl, rfl⟩ | ⟨rfl, rfl⟩ | ⟨rfl, rfl⟩ | ⟨rfl, rfl⟩ |
    ⟨rfl, rfl⟩ | ⟨rfl, rfl⟩ | ⟨rfl, rfl⟩
  · obtain rfl := eq_of_bare hread
    exact tagged_eq_ok rfl rfl rfl
  · obtain ⟨step, rfl, hagain⟩ := stable_text.exists_of_single hread
    exact tagged_eq_ok rfl rfl (hagain .aside)
  · obtain ⟨w, hw⟩ := Reads.exists_of_record hread
    simp only [Reads.gives_seq, Reads.gives_map] at hw
    obtain ⟨step, hstep, limit, hlimit, rfl⟩ := hw
    refine tagged_eq_ok rfl rfl (Reads.record_eq_ok rfl ?_)
    simp only [Reads.gives_seq, Reads.gives_map]
    exact ⟨step, stable_text.required hstep rfl, limit,
      (stable_natural _).required hlimit rfl, rfl⟩
  · obtain ⟨steps, rfl, hagain⟩ := stable_text.list.exists_of_single hread
    exact tagged_eq_ok rfl rfl (hagain .aside)
  · obtain ⟨failures, rfl, hagain⟩ := stable_text.list.exists_of_single hread
    exact tagged_eq_ok rfl rfl (hagain .aside)
  · obtain rfl := eq_of_bare hread
    exact tagged_eq_ok rfl rfl rfl
  · obtain ⟨message, rfl, hagain⟩ := stable_text.exists_of_single hread
    exact tagged_eq_ok rfl rfl (hagain .aside)

theorem Verdict.stable : Verdict.decode.Stable Verdict.encode := by
  intro m t v h m'
  obtain ⟨s, read, t', hmem, hread⟩ := exists_of_tagged h
  simp only [List.mem_cons, Prod.mk.injEq, List.not_mem_nil, or_false] at hmem
  rcases hmem with ⟨rfl, rfl⟩ | ⟨rfl, rfl⟩ | ⟨rfl, rfl⟩ | ⟨rfl, rfl⟩
  · obtain rfl := eq_of_bare hread
    exact tagged_eq_ok rfl rfl rfl
  · obtain ⟨failures, rfl, hagain⟩ := stable_text.list.exists_of_single hread
    exact tagged_eq_ok rfl rfl (hagain .aside)
  · obtain ⟨approval, rfl, hagain⟩ := stable_text.exists_of_single hread
    exact tagged_eq_ok rfl rfl (hagain .aside)
  · obtain ⟨approval, rfl, hagain⟩ := stable_text.exists_of_single hread
    exact tagged_eq_ok rfl rfl (hagain .aside)

theorem Transition.stable : Transition.decode.Stable Transition.encode := by
  intro m t transition h m'
  obtain ⟨s, beside, m'', c, hmem, hread⟩ := exists_of_kindAndContent h
  simp only [List.mem_cons, Prod.mk.injEq, List.not_mem_nil, or_false] at hmem
  have hne : "kind" ≠ "target" := by decide
  rcases hmem with ⟨rfl, rfl⟩ | ⟨rfl, rfl⟩ | ⟨rfl, rfl⟩ | ⟨rfl, rfl⟩
  · obtain rfl := eq_of_nothing hread
    rfl
  · obtain rfl := eq_of_nothing hread
    rfl
  · obtain ⟨t', ht⟩ := exists_of_something hread
    obtain ⟨target, htarget, rfl⟩ := map_eq_ok_iff.1 ht
    apply (kindAndContent_of_lookup hne rfl).trans
    exact map_eq_ok_iff.2 ⟨target, stable_text _ _ _ htarget m', rfl⟩
  · obtain rfl := eq_of_nothing hread
    rfl

theorem Attempt.stable : Attempt.decode.Stable Attempt.encode := by
  apply Reads.Stable.record
  · intro w a h m
    simp only [Reads.gives_seq, Reads.gives_map] at h ⊢
    obtain ⟨step, hstep, number, hnumber, sequence, hsequence, fingerprint,
      hfingerprint, status, hstatus, verdict, hverdict, transition,
      htransition, rfl⟩ := h
    exact ⟨step, stable_text.required hstep (by simp), number,
      (stable_natural _).required hnumber rfl, sequence,
      (stable_natural _).optional nofun hsequence (by simp), fingerprint,
      stable_text.optional nofun hfingerprint (by simp), status,
      ResponseStatus.stable.optional nofun hstatus (by simp), verdict,
      Verdict.stable.required hverdict (by simp), transition,
      Transition.stable.required htransition (by simp), rfl⟩
  · rintro ⟨_, _, _ | _, _ | _, _ | _, _, _⟩ <;> rfl

theorem Suspension.stable : Suspension.decode.Stable Suspension.encode := by
  apply Reads.Stable.record
  · intro w s h m
    simp only [Reads.gives_seq, Reads.gives_map] at h ⊢
    obtain ⟨step, hstep, approval, happroval, rfl⟩ := h
    exact ⟨step, stable_text.required hstep rfl, approval,
      stable_text.required happroval rfl, rfl⟩
  · intro s
    rfl

theorem EndReason.encode_ne_null (r : EndReason) : r.encode ≠ .null := by
  cases r <;> nofun

theorem EpisodeState.stable :
    EpisodeState.decode.Stable EpisodeState.encode := by
  apply Reads.Stable.record
  · intro w s h m
    simp only [Reads.gives_seq, Reads.gives_map] at h ⊢
    obtain ⟨workflow, hworkflow, status, hstatus, current, hcurrent, history,
      hhistory, jumps, hjumps, executions, hexecutions, suspended, hsuspended,
      reason, hreason, rfl⟩ := h
    exact ⟨workflow, stable_text.required hworkflow (by simp), status,
      EpisodeStatus.stable.required hstatus (by simp), current,
      (stable_natural _).orNull nofun hcurrent rfl, history,
      Attempt.stable.list.required hhistory (by simp), jumps,
      (stable_natural _).required hjumps (by simp), executions,
      (stable_natural _).required hexecutions (by simp), suspended,
      Suspension.stable.optional nofun hsuspended (by simp), reason,
      EndReason.stable.optional EndReason.encode_ne_null hreason (by simp),
      rfl⟩
  · rintro ⟨_, _, _, _, _, _, _ | _, _ | _⟩ <;> rfl

/-! ## All kinds of documents -/

/-- What is read from a value is read again from the value that is written for
it. -/
def Decoder.Restores {α : Type} (decode : Decoder α) (encode : α → Json) :
    Prop :=
  ∀ v x, decode.ofValue v = .ok x → decode.ofValue (encode x) = .ok x

theorem Decoder.Stable.restores {α : Type} {decode : Decoder α}
    {encode : α → Json} (h : decode.Stable encode) :
    decode.Restores encode := by
  intro v x hx
  exact h _ _ x hx .json

/-- Every kind of document, once it was read, is read again from what is
written for it, and so are the names of operations and what to do on failure
from the texts that are written for them. -/
theorem documents_restored :
    WorkflowDocument.decode.Restores WorkflowDocument.encode ∧
    Workflow.decode.Restores Workflow.encode ∧
    Approval.Queue.decode.Restores Approval.Queue.encode ∧
    EpisodeState.decode.Restores EpisodeState.encode ∧
    Request.decode.Restores Request.encode ∧
    Response.decode.Restores Response.encode ∧
    Receipt.decode.Restores Receipt.encode ∧
    Fixtures.decode.Restores Fixtures.encode ∧
    Policy.decode.Restores Policy.encode ∧
    SessionConfig.decode.Restores SessionConfig.encode ∧
    (∀ text id, OperationId.read text = .ok id →
      OperationId.read id.display = .ok id) ∧
    ∀ text p, FailurePolicy.read text = .ok p →
      FailurePolicy.read p.display = .ok p := by
  refine ⟨WorkflowDocument.stable.restores, Workflow.stable.restores,
    Approval.Queue.stable.restores, EpisodeState.stable.restores,
    Request.stable.restores, Response.stable.restores,
    Receipt.stable.restores, Fixtures.stable.restores, Policy.stable.restores,
    SessionConfig.stable.restores, ?_, ?_⟩
  · intro text id h
    exact OperationId.read_display h
  · intro text p h
    exact FailurePolicy.read_display h

/-- Blanks around the name of an operation, and a label that is given as the
name of a member, are not written again, but the policy stays. -/
theorem padded_override_restored :
    Policy.decode.ofValue (.obj
        [("overrides", .obj [(" mail.send ", .obj [("deny", .null)])])]) =
      .ok { overrides := KeyMap.ofList [(⟨"mail", "send"⟩, .deny)] } ∧
    Policy.decode.ofValue (Policy.encode
        { overrides := KeyMap.ofList [(⟨"mail", "send"⟩, .deny)] }) =
      .ok { overrides := KeyMap.ofList [(⟨"mail", "send"⟩, .deny)] } ∧
    FailurePolicy.read " JUMP: ask again " = .ok (.jump "ask again") ∧
    FailurePolicy.read (FailurePolicy.jump "ask again").display =
      .ok (.jump "ask again") := by
  have hpolicy : Policy.decode.ofValue (.obj
        [("overrides", .obj [(" mail.send ", .obj [("deny", .null)])])]) =
      .ok { overrides := KeyMap.ofList [(⟨"mail", "send"⟩, .deny)] } := by
    decide +kernel
  have hjump : FailurePolicy.read " JUMP: ask again " =
      .ok (.jump "ask again") := by
    decide +kernel
  obtain ⟨-, -, -, -, -, -, -, -, hpolicies, -, -, hfailures⟩ :=
    documents_restored
  exact ⟨hpolicy, hpolicies _ _ hpolicy, hjump, hfailures _ _ hjump⟩

end CallGate
