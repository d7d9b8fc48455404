import CallGate.Proofs.Call.Identity
import CallGate.Proofs.Call.ReadBack
import CallGate.Session.Sink

/-!
# What the form of a receipt determines

The bytes of what is written about a receipt determine the session and every
field of the receipt, its arguments and its result up to numbers that are
written the same.
-/

namespace CallGate

open Json

theorem Text.integerText_injective {i j : ℤ}
    (h : integerText i = integerText j) : i = j := by
  have hne (m n : ℕ) : decimal m ≠ '-' :: decimal n := by
    intro heq
    have hdigit := digits_decimal m '-' (heq ▸ List.mem_cons_self)
    cases hdigit
  rw [integerText, integerText] at h
  by_cases hi : i < 0
  · by_cases hj : j < 0
    · rw [if_pos hi, if_pos hj, List.cons.injEq] at h
      have habs := decimal_injective h.2
      omega
    · rw [if_pos hi, if_neg hj] at h
      exact absurd h.symm (hne _ _)
  · by_cases hj : j < 0
    · rw [if_neg hi, if_pos hj] at h
      exact absurd h (hne _ _)
    · rw [if_neg hi, if_neg hj] at h
      have habs := decimal_injective h
      omega

namespace Json

theorem alike_ofInt_iff {i j : ℤ} : (ofInt i).Alike (ofInt j) ↔ i = j := by
  constructor
  · rintro ⟨⟩
    rename_i h
    exact Text.integerText_injective h
  · rintro rfl
    exact .num rfl

theorem alike_ofNat_iff {m n : ℕ} : (ofNat m).Alike (ofNat n) ↔ m = n :=
  alike_ofInt_iff.trans Int.natCast_inj

theorem isValid_ofInt {i : ℤ} (h : Number.InRange i) : (ofInt i).IsValid := by
  rw [ofInt, IsValid]
  exact h

theorem isValid_ofNat {n : ℕ} (h : n < 2 ^ 64) : (ofNat n).IsValid := by
  apply isValid_ofInt
  rw [Number.InRange]
  omega

end Json

/-- Two kinds of which each is read from its label have different labels. -/
theorem Decoder.label_injective {α : Type} {decode : Decoder α}
    {label : α → String}
    (h : ∀ a m, decode m (.str (label a)) = .ok a) {a b : α}
    (hlabel : label a = label b) : a = b := by
  have ha := h a default
  rw [hlabel, h b default] at ha
  exact (Except.ok.inj ha).symm

theorem Decision.alike_encode_iff {d e : Decision} :
    d.encode.Alike e.encode ↔ d = e := by
  rw [encode, encode]
  simp only [GateAction.encode, GateReason.encode, alike_obj_iff,
    MemberAlike, alike_str_iff, List.forall₂_cons, List.forall₂_nil_left_iff,
    true_and, and_true]
  cases d
  cases e
  rw [mk.injEq]
  refine and_congr ⟨?_, congrArg _⟩ ⟨?_, congrArg _⟩
  · exact Decoder.label_injective GateAction.decode_label
  · exact Decoder.label_injective GateReason.decode_label

theorem Decision.isValid_encode (d : Decision) : d.encode.IsValid := by
  have hnames : ["action", "reason"].Pairwise
      fun a b => compare a b = .lt := by decide +kernel
  rw [encode, Json.IsValid]
  exact ⟨Entries.ascending_iff_names.2 hnames, trivial, trivial, trivial⟩

theorem Timestamp.isValid_encode {t : Timestamp} (h : t.InRange) :
    t.encode.IsValid := by
  have hnames : ["kind", "value"].Pairwise
      fun a b => compare a b = .lt := by decide +kernel
  cases t with
  | unixMillis n =>
      rw [encode, Json.IsValid]
      exact ⟨Entries.ascending_iff_names.2 hnames, trivial,
        isValid_ofInt ⟨h.1, h.2.trans (by decide)⟩, trivial⟩
  | logical n =>
      rw [encode, Json.IsValid]
      exact ⟨Entries.ascending_iff_names.2 hnames, trivial, isValid_ofNat h,
        trivial⟩

theorem Timestamp.alike_encode_iff {t u : Timestamp} :
    t.encode.Alike u.encode ↔ t = u := by
  have hkinds : "unix_millis" ≠ "logical" := by decide
  cases t <;> cases u <;>
    simp [encode, alike_obj_iff, MemberAlike, alike_str_iff, alike_ofInt_iff,
      alike_ofNat_iff, hkinds, hkinds.symm]

namespace Receipt

/-- Receipts that differ at most in numbers, of their arguments and of their
results, that are written the same. -/
structure Alike (r r' : Receipt) : Prop where
  rest : { r with
    redactedArgs := r'.redactedArgs
    redactedResult := r'.redactedResult } = r'
  args : r.redactedArgs.Alike r'.redactedArgs
  result : r.redactedResult.Alike r'.redactedResult

theorem alike_encode_iff {r r' : Receipt} :
    r.encode.Alike r'.encode ↔ r.Alike r' := by
  have hfields : r.encode.Alike r'.encode ↔
      r.decision = r'.decision ∧ r.fingerprint = r'.fingerprint ∧
        r.operation = r'.operation ∧ r.risk.label = r'.risk.label ∧
        r.redactedArgs.Alike r'.redactedArgs ∧
        r.redactedResult.Alike r'.redactedResult ∧
        r.status.label = r'.status.label ∧ r.sequence = r'.sequence ∧
        r.service = r'.service ∧ r.timestamp = r'.timestamp := by
    simp only [encode, RiskClass.encode, ResponseStatus.encode, alike_obj_iff,
      MemberAlike, alike_str_iff, alike_ofNat_iff, Decision.alike_encode_iff,
      Timestamp.alike_encode_iff, List.forall₂_cons,
      List.forall₂_nil_left_iff, true_and, and_true]
  rw [hfields]
  constructor
  · rintro ⟨hdecision, hfingerprint, hoperation, hrisk, hargs, hresult,
      hstatus, hsequence, hservice, htimestamp⟩
    refine ⟨?_, hargs, hresult⟩
    have hrisk' := Decoder.label_injective RiskClass.decode_label hrisk
    have hstatus' := Decoder.label_injective ResponseStatus.decode_label
      hstatus
    cases r
    cases r'
    cases hdecision
    cases hfingerprint
    cases hoperation
    cases hrisk'
    cases hstatus'
    cases hsequence
    cases hservice
    cases htimestamp
    rfl
  · rintro ⟨hrest, hargs, hresult⟩
    rw [← hrest]
    exact ⟨rfl, rfl, rfl, rfl, hargs, hresult, rfl, rfl, rfl, rfl⟩

theorem isValid_encode {r : Receipt} (h : r.IsValid) :
    r.encode.IsValid := by
  have hnames : ["decision", "fingerprint", "operation", "operation_class",
      "redacted_args", "redacted_result", "result_status", "sequence",
      "service", "timestamp"].Pairwise
        fun a b => compare a b = .lt := by decide +kernel
  rw [encode, Json.IsValid]
  exact ⟨Entries.ascending_iff_names.2 hnames, r.decision.isValid_encode,
    trivial, trivial, trivial, h.args, h.result, trivial,
    isValid_ofNat h.sequence, trivial, Timestamp.isValid_encode h.timestamp,
    trivial⟩

end Receipt

theorem isValid_receiptBody {sent : SentReceipt} (h : sent.2.IsValid) :
    (receiptBody sent).IsValid := by
  have hnames : ["receipt", "session_id"].Pairwise
      fun a b => compare a b = .lt := by decide +kernel
  rw [receiptBody, Json.IsValid]
  exact ⟨Entries.ascending_iff_names.2 hnames, Receipt.isValid_encode h,
    trivial, trivial⟩

/-- The bytes that are written about a receipt determine the session and the
receipt. -/
theorem canonicalBytes_receiptBody_eq_iff {sent sent' : SentReceipt}
    (h : sent.2.IsValid) (h' : sent'.2.IsValid) :
    (receiptBody sent).canonicalBytes = (receiptBody sent').canonicalBytes ↔
      sent.1 = sent'.1 ∧ sent.2.Alike sent'.2 := by
  rw [canonicalBytes_eq_iff (isValid_receiptBody h) (isValid_receiptBody h')]
  simp only [receiptBody, alike_obj_iff, MemberAlike, alike_str_iff,
    Receipt.alike_encode_iff, List.forall₂_cons, List.forall₂_nil_left_iff,
    true_and, and_true]
  exact And.comm

end CallGate
