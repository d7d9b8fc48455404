import CallGate.Call.Receipt
import CallGate.Call.Request
import CallGate.Proofs.Document.Fields
import CallGate.Proofs.Document.Names

/-!
# Calls that are written and read again

Operations, requests, responses, outcomes and receipts are stable: their
records field by field, and the things of several kinds kind by kind.
-/

namespace CallGate

open Decoder

/-! ## Operations -/

theorem OperationId.stable : OperationId.decode.Stable OperationId.encode :=
  stable_andThen_text fun _ _ h => OperationId.read_display h

theorem OperationSet.stable : OperationSet.decode.Stable OperationSet.encode :=
  OperationId.stable.setOf

theorem RiskClass.stable : RiskClass.decode.Stable RiskClass.encode :=
  stable_label fun c => by cases c <;> rfl

theorem ApprovalControl.stable :
    ApprovalControl.decode.Stable ApprovalControl.encode :=
  stable_label fun c => by cases c <;> rfl

theorem Route.stable : Route.decode.Stable Route.encode := by
  intro m t r h m'
  obtain ⟨s, beside, m'', c, hmem, hread⟩ := exists_of_kindAndContent h
  simp only [List.mem_cons, Prod.mk.injEq, List.not_mem_nil, or_false] at hmem
  rcases hmem with ⟨rfl, rfl⟩ | ⟨rfl, rfl⟩
  · obtain rfl := eq_of_nothing hread
    rfl
  · obtain ⟨t', ht⟩ := exists_of_something hread
    obtain ⟨control, -, rfl⟩ := map_eq_ok_iff.1 ht
    cases control <;> rfl

theorem OperationSpec.stable :
    OperationSpec.decode.Stable OperationSpec.encode := by
  apply Reads.Stable.record
  · intro w s h m
    simp only [Reads.gives_seq, Reads.gives_map] at h ⊢
    obtain ⟨id, hid, risk, hrisk, route, hroute, rfl⟩ := h
    exact ⟨id, OperationId.stable.required hid rfl, risk,
      RiskClass.stable.required hrisk rfl, route,
      Route.stable.required hroute rfl, rfl⟩
  · intro s
    rfl

/-! ## Outcomes -/

theorem FailureKind.stable : FailureKind.decode.Stable FailureKind.encode :=
  stable_label fun k => by cases k <;> rfl

theorem AdapterFailure.stable :
    AdapterFailure.decode.Stable AdapterFailure.encode := by
  apply Reads.Stable.record
  · intro w f h m
    simp only [Reads.gives_seq, Reads.gives_map] at h ⊢
    obtain ⟨kind, hkind, message, hmessage, rfl⟩ := h
    exact ⟨kind, FailureKind.stable.required hkind rfl, message,
      stable_text.required hmessage rfl, rfl⟩
  · intro f
    rfl

theorem Payload.stable :
    Payload.decode.Stable fun p => .obj [("data", p.data), ("raw", p.raw)] := by
  apply Reads.Stable.record
  · intro w p h m
    simp only [Reads.gives_seq, Reads.gives_map] at h ⊢
    obtain ⟨data, hdata, raw, hraw, rfl⟩ := h
    exact ⟨data, stable_value.required hdata rfl, raw,
      stable_value.required hraw rfl, rfl⟩
  · intro p
    rfl

theorem Outcome.stable : Outcome.decode.Stable Outcome.encode := by
  intro m t o h m'
  obtain ⟨s, read, t', hmem, hread⟩ := exists_of_tagged h
  simp only [List.mem_cons, Prod.mk.injEq, List.not_mem_nil, or_false] at hmem
  rcases hmem with ⟨rfl, rfl⟩ | ⟨rfl, rfl⟩
  · obtain ⟨p, hp, rfl⟩ := map_eq_ok_iff.1 hread
    have hagain := Payload.stable _ t' p hp .aside
    exact tagged_eq_ok rfl rfl (map_eq_ok_iff.2 ⟨p, hagain, rfl⟩)
  · obtain ⟨f, hf, rfl⟩ := map_eq_ok_iff.1 hread
    have hagain := AdapterFailure.stable _ t' f hf .aside
    exact tagged_eq_ok rfl rfl (map_eq_ok_iff.2 ⟨f, hagain, rfl⟩)

theorem Fixtures.stable : Fixtures.decode.Stable Fixtures.encode :=
  Outcome.stable.textMap

/-! ## Requests -/

theorem Request.stable_args : Request.decodeArgs.Stable .obj := by
  intro m t args h m'
  obtain ⟨v, hv, hargs⟩ := bind_eq_ok_iff.1 h
  cases v <;> cases hargs
  exact bind_eq_ok_iff.2 ⟨_, stable_value m t _ hv m', rfl⟩

theorem Request.stable : Request.decode.Stable Request.encode := by
  apply Reads.Stable.record
  · intro w r h m
    simp only [Reads.gives_seq, Reads.gives_map] at h ⊢
    obtain ⟨operation, hoperation, risk, hrisk, args, hargs, sequence,
      hsequence, fingerprint, hfingerprint, digest, hdigest, rfl⟩ := h
    exact ⟨operation, OperationId.stable.required hoperation rfl, risk,
      RiskClass.stable.required hrisk rfl, args,
      stable_args.required hargs rfl, sequence,
      (stable_natural _).required hsequence rfl, fingerprint,
      stable_text.required hfingerprint rfl, digest,
      stable_text.required hdigest rfl, rfl⟩
  · intro r
    rfl

/-! ## Responses -/

theorem ResponseStatus.stable :
    ResponseStatus.decode.Stable ResponseStatus.encode :=
  stable_label fun s => by cases s <;> rfl

theorem ResponseErrorKind.stable :
    ResponseErrorKind.decode.Stable ResponseErrorKind.encode :=
  stable_label fun k => by cases k <;> rfl

theorem ResponseError.stable :
    ResponseError.decode.Stable ResponseError.encode := by
  apply Reads.Stable.record
  · intro w e h m
    simp only [Reads.gives_seq, Reads.gives_map] at h ⊢
    obtain ⟨kind, hkind, failure, hfailure, message, hmessage, rfl⟩ := h
    exact ⟨kind, ResponseErrorKind.stable.required hkind rfl, failure,
      FailureKind.stable.optional nofun hfailure (by simp), message,
      stable_text.required hmessage rfl, rfl⟩
  · rintro ⟨_, _ | _, _⟩ <;> rfl

theorem Response.stable : Response.decode.Stable Response.encode := by
  apply Reads.Stable.record
  · intro w r h m
    simp only [Reads.gives_seq, Reads.gives_map] at h ⊢
    obtain ⟨sequence, hsequence, fingerprint, hfingerprint, status, hstatus,
      data, hdata, raw, hraw, error, herror, rfl⟩ := h
    exact ⟨sequence, (stable_natural _).required hsequence (by simp),
      fingerprint, stable_text.required hfingerprint (by simp), status,
      ResponseStatus.stable.required hstatus (by simp), data,
      stable_value.required hdata rfl, raw,
      stable_value.required hraw (by simp), error,
      ResponseError.stable.optional nofun herror (by simp), rfl⟩
  · rintro ⟨_, _, _, _, _, _ | _⟩ <;> rfl

/-! ## Receipts -/

theorem GateAction.stable : GateAction.decode.Stable GateAction.encode :=
  stable_label fun a => by cases a <;> rfl

theorem GateReason.stable : GateReason.decode.Stable GateReason.encode :=
  stable_label fun r => by cases r <;> rfl

theorem Decision.stable : Decision.decode.Stable Decision.encode := by
  apply Reads.Stable.record
  · intro w d h m
    simp only [Reads.gives_seq, Reads.gives_map] at h ⊢
    obtain ⟨action, haction, reason, hreason, rfl⟩ := h
    exact ⟨action, GateAction.stable.required haction rfl, reason,
      GateReason.stable.required hreason rfl, rfl⟩
  · intro d
    rfl

theorem Timestamp.stable : Timestamp.decode.Stable Timestamp.encode := by
  intro m t time h m'
  obtain ⟨s, beside, m'', c, hmem, hread⟩ := exists_of_kindAndContent h
  simp only [List.mem_cons, Prod.mk.injEq, List.not_mem_nil, or_false] at hmem
  have hne : "kind" ≠ "value" := by decide
  rcases hmem with ⟨rfl, rfl⟩ | ⟨rfl, rfl⟩
  · obtain ⟨t', ht⟩ := exists_of_something hread
    obtain ⟨millis, hmillis, rfl⟩ := map_eq_ok_iff.1 ht
    apply (kindAndContent_of_lookup hne rfl).trans
    exact map_eq_ok_iff.2 ⟨millis, stable_integer _ _ _ _ _ hmillis m', rfl⟩
  · obtain ⟨t', ht⟩ := exists_of_something hread
    obtain ⟨count, hcount, rfl⟩ := map_eq_ok_iff.1 ht
    apply (kindAndContent_of_lookup hne rfl).trans
    exact map_eq_ok_iff.2 ⟨count, stable_natural _ _ _ _ hcount m', rfl⟩

theorem Receipt.stable : Receipt.decode.Stable Receipt.encode := by
  apply Reads.Stable.record
  · intro w r h m
    simp only [Reads.gives_seq, Reads.gives_map] at h ⊢
    obtain ⟨sequence, hsequence, fingerprint, hfingerprint, service, hservice,
      operation, hoperation, risk, hrisk, decision, hdecision, status, hstatus,
      args, hargs, result, hresult, timestamp, htimestamp, rfl⟩ := h
    exact ⟨sequence, (stable_natural _).required hsequence rfl, fingerprint,
      stable_text.required hfingerprint rfl, service,
      stable_text.required hservice rfl, operation,
      stable_text.required hoperation rfl, risk,
      RiskClass.stable.required hrisk rfl, decision,
      Decision.stable.required hdecision rfl, status,
      ResponseStatus.stable.required hstatus rfl, args,
      stable_value.required hargs rfl, result,
      stable_value.required hresult rfl, timestamp,
      Timestamp.stable.required htimestamp rfl, rfl⟩
  · intro r
    rfl

end CallGate
