import CallGate.Call.Receipt
import CallGate.Proofs.Document.Record
import CallGate.Proofs.Json.Settled

/-!
# Receipts and outcomes read from their canonical forms

What a receipt or an outcome is read back as: itself, with the values that it
carries settled.  It is refused when one of them is too deep, since it stands
inside the object of the receipt or the outcome.
-/

namespace CallGate

open Json

namespace Json

/-- The value can stand inside one object. -/
def Fits (v : Json) : Prop := v.depth < maxDepth

instance (v : Json) : Decidable v.Fits := inferInstanceAs (Decidable (_ < _))

theorem value?_eq_some_iff {v w : Json} {t : Tree} (h : ReadsBack 1 v t) :
    t.value? = some w ↔ v.Fits ∧ v.settled = w := by
  have hone : 1 ≤ maxDepth := by decide
  rw [h.2 hone, settledAt?, Fits]
  split
  · rename_i hle
    have hlt : v.depth < maxDepth := by omega
    simp [hlt]
  · rename_i hle
    have hlt : ¬v.depth < maxDepth := by omega
    simp [hlt]

end Json

/-! ## Parts of receipts -/

theorem RiskClass.decode_label (c : RiskClass) (m : Medium) :
    RiskClass.decode m (.str c.label) = .ok c := by
  cases c <;> rfl

theorem ResponseStatus.decode_label (s : ResponseStatus) (m : Medium) :
    ResponseStatus.decode m (.str s.label) = .ok s := by
  cases s <;> rfl

theorem GateAction.decode_label (a : GateAction) (m : Medium) :
    GateAction.decode m (.str a.label) = .ok a := by
  cases a <;> rfl

theorem GateReason.decode_label (r : GateReason) (m : Medium) :
    GateReason.decode m (.str r.label) = .ok r := by
  cases r <;> rfl

theorem FailureKind.decode_label (k : FailureKind) (m : Medium) :
    FailureKind.decode m (.str k.label) = .ok k := by
  cases k <;> rfl

theorem Decoder.word64_eq_ok {n : ℕ} (hn : n < 2 ^ 64) (m : Medium) :
    Decoder.word64 m (.num (.int n)) = .ok n :=
  Decoder.natural_eq_ok hn m

theorem Decoder.signed64_eq_ok {i : ℤ} (hlow : -2 ^ 63 ≤ i) (hhigh : i < 2 ^ 63)
    (m : Medium) : Decoder.signed64 m (.num (.int i)) = .ok i := by
  have hbound : -((Nat.pow 2 63 : ℕ) : ℤ) ≤ i ∧ i < (Nat.pow 2 63 : ℕ) := by
    rw [Nat.pow_eq]
    omega
  rw [Decoder.signed64, Decoder.integer]
  exact if_pos hbound

theorem readsAs_int {depth : ℕ} {i : ℤ} (hi : Number.InRange i) :
    ReadsAs depth (Json.ofInt i).canonical (.num (.int i)) := by
  have hvalid : (Number.int i).IsValid := hi
  exact readsAs_number hvalid

theorem readsAs_nat {depth n : ℕ} (hn : n < 2 ^ 64) :
    ReadsAs depth (Json.ofNat n).canonical (.num (.int n)) := by
  apply readsAs_int
  rw [Number.InRange]
  omega

namespace Decision

/-- The members of the tree of a decision. -/
def trees (d : Decision) : List (String × Tree) :=
  [("action", .str d.action.label), ("reason", .str d.reason.label)]

theorem readsAs_encode (d : Decision) :
    ReadsAs 1 d.encode.canonical (.obj (spelledMembers d.trees)) := by
  apply readsAs_obj_of_sorted
  · change (["action", "reason"].map quoted).Pairwise fun a b => ¬b < a
    decide
  · exact .cons ⟨rfl, readsAs_quoted _⟩ (.cons ⟨rfl, readsAs_quoted _⟩ .nil)

theorem decode_trees (d : Decision) (m : Medium) :
    Decision.decode m (.obj (spelledMembers d.trees)) = .ok d := by
  have hdistinct : Reads.Distinct d.trees := by
    change ["action", "reason"].Nodup
    decide
  have haction := Reads.required_of_read "action" hdistinct
    (by simp [trees]) (GateAction.decode_label d.action m)
  have hreason := Reads.required_of_read "reason" hdistinct
    (by simp [trees]) (GateReason.decode_label d.reason m)
  rw [Decision.decode, Reads.record_eq_ok_iff hdistinct (by simp [trees])]
  simp only [Reads.seq_eq_ok_iff, Reads.map_eq_ok_iff, haction, hreason]
  exact ⟨_, _, ⟨_, rfl, rfl⟩, rfl, rfl⟩

end Decision

namespace Timestamp

/-- The timestamp is within 64 bits. -/
def InRange : Timestamp → Prop
  | .unixMillis n => -2 ^ 63 ≤ n ∧ n < 2 ^ 63
  | .logical n => n < 2 ^ 64

/-- The members of the tree of a timestamp. -/
def trees : Timestamp → List (String × Tree)
  | .unixMillis n =>
    [("kind", .str "unix_millis"), ("value", .num (.int n))]
  | .logical n => [("kind", .str "logical"), ("value", .num (.int n))]

theorem readsAs_encode {t : Timestamp} (ht : t.InRange) :
    ReadsAs 1 t.encode.canonical (.obj (spelledMembers t.trees)) := by
  have hsorted : (["kind", "value"].map quoted).Pairwise fun a b => ¬b < a := by
    decide
  cases t with
  | unixMillis n =>
      obtain ⟨hlow, hhigh⟩ := ht
      have hn : Number.InRange n := ⟨hlow, by omega⟩
      rw [encode]
      apply readsAs_obj_of_sorted
      · exact hsorted
      · exact .cons ⟨rfl, readsAs_quoted _⟩ (.cons ⟨rfl, readsAs_int hn⟩ .nil)
  | logical n =>
      rw [encode]
      apply readsAs_obj_of_sorted
      · exact hsorted
      · exact .cons ⟨rfl, readsAs_quoted _⟩ (.cons ⟨rfl, readsAs_nat ht⟩ .nil)

theorem decode_trees {t : Timestamp} (ht : t.InRange) (m : Medium) :
    Timestamp.decode m (.obj (spelledMembers t.trees)) = .ok t := by
  have hne : "kind" ≠ "value" := by decide
  cases t with
  | unixMillis n =>
      obtain ⟨hlow, hhigh⟩ := ht
      apply (Decoder.kindAndContent_of_lookup hne rfl).trans
      exact Decoder.map_eq_ok_iff.2
        ⟨n, Decoder.signed64_eq_ok hlow hhigh m, rfl⟩
  | logical n =>
      apply (Decoder.kindAndContent_of_lookup hne rfl).trans
      exact Decoder.map_eq_ok_iff.2 ⟨n, Decoder.word64_eq_ok ht m, rfl⟩

end Timestamp

/-! ## Receipts -/

namespace Receipt

/-- The numbers of the receipt are within 64 bits, and its values are valid. -/
structure IsValid (r : Receipt) : Prop where
  sequence : r.sequence < 2 ^ 64
  args : r.redactedArgs.IsValid
  result : r.redactedResult.IsValid
  timestamp : r.timestamp.InRange

/-- The values of the receipt can stand inside it. -/
def Fits (r : Receipt) : Prop := r.redactedArgs.Fits ∧ r.redactedResult.Fits

instance (r : Receipt) : Decidable r.Fits := inferInstanceAs (Decidable (_ ∧ _))

/-- The receipt with its values settled. -/
def settled (r : Receipt) : Receipt :=
  { r with
    redactedArgs := r.redactedArgs.settled
    redactedResult := r.redactedResult.settled }

/-- The members of the tree of a receipt, given those of its values. -/
def trees (r : Receipt) (args result : Tree) : List (String × Tree) :=
  [("decision", .obj (spelledMembers r.decision.trees)),
    ("fingerprint", .str r.fingerprint), ("operation", .str r.operation),
    ("operation_class", .str r.risk.label), ("redacted_args", args),
    ("redacted_result", result), ("result_status", .str r.status.label),
    ("sequence", .num (.int r.sequence)), ("service", .str r.service),
    ("timestamp", .obj (spelledMembers r.timestamp.trees))]

variable {r : Receipt} {args result : Tree}

theorem distinct_trees : Reads.Distinct (r.trees args result) := by
  change ["decision", "fingerprint", "operation", "operation_class",
    "redacted_args", "redacted_result", "result_status", "sequence",
    "service", "timestamp"].Nodup
  decide

theorem readsAs_encode (h : r.IsValid)
    (hargs : ReadsAs 1 r.redactedArgs.canonical args)
    (hresult : ReadsAs 1 r.redactedResult.canonical result) :
    ReadsAs 0 r.encode.canonical
      (.obj (spelledMembers (r.trees args result))) := by
  apply readsAs_obj_of_sorted
  · change (["decision", "fingerprint", "operation", "operation_class",
      "redacted_args", "redacted_result", "result_status", "sequence",
      "service", "timestamp"].map quoted).Pairwise fun a b => ¬b < a
    decide
  · refine .cons ⟨rfl, r.decision.readsAs_encode⟩ ?_
    refine .cons ⟨rfl, readsAs_quoted _⟩ ?_
    refine .cons ⟨rfl, readsAs_quoted _⟩ ?_
    refine .cons ⟨rfl, readsAs_quoted _⟩ ?_
    refine .cons ⟨rfl, hargs⟩ ?_
    refine .cons ⟨rfl, hresult⟩ ?_
    refine .cons ⟨rfl, readsAs_quoted _⟩ ?_
    refine .cons ⟨rfl, readsAs_nat h.sequence⟩ ?_
    refine .cons ⟨rfl, readsAs_quoted _⟩ ?_
    exact .cons ⟨rfl, Timestamp.readsAs_encode h.timestamp⟩ .nil

theorem decode_trees_eq_ok_iff (h : r.IsValid) {m : Medium} {r' : Receipt} :
    Receipt.decode m (.obj (spelledMembers (r.trees args result))) = .ok r' ↔
      ∃ v w, args.value? = some v ∧ result.value? = some w ∧
        { r with redactedArgs := v, redactedResult := w } = r' := by
  have hdistinct : Reads.Distinct (r.trees args result) := distinct_trees
  have hsequence := Reads.required_of_read "sequence" hdistinct
    (by simp [trees]) (Decoder.word64_eq_ok h.sequence m)
  have hfingerprint := Reads.required_of_read "fingerprint" hdistinct
    (by simp [trees]) (Decoder.text_str (m := m) r.fingerprint)
  have hservice := Reads.required_of_read "service" hdistinct
    (by simp [trees]) (Decoder.text_str (m := m) r.service)
  have hoperation := Reads.required_of_read "operation" hdistinct
    (by simp [trees]) (Decoder.text_str (m := m) r.operation)
  have hrisk := Reads.required_of_read "operation_class" hdistinct
    (by simp [trees]) (r.risk.decode_label m)
  have hdecision := Reads.required_of_read "decision" hdistinct
    (by simp [trees]) (r.decision.decode_trees m)
  have hstatus := Reads.required_of_read "result_status" hdistinct
    (by simp [trees]) (r.status.decode_label m)
  have htimestamp := Reads.required_of_read "timestamp" hdistinct
    (by simp [trees]) (Timestamp.decode_trees h.timestamp m)
  have hargs := Reads.required_eq_ok_iff (m := m) (t := args)
    "redacted_args" Decoder.value hdistinct (by simp [trees])
  have hresult := Reads.required_eq_ok_iff (m := m) (t := result)
    "redacted_result" Decoder.value hdistinct (by simp [trees])
  rw [Receipt.decode, Reads.record_eq_ok_iff hdistinct (by simp [trees])]
  simp only [Reads.seq_eq_ok_iff, Reads.map_eq_ok_iff, hsequence, hfingerprint,
    hservice, hoperation, hrisk, hdecision, hstatus, htimestamp, hargs, hresult,
    Decoder.value_eq_ok_iff, ↓existsAndEq, true_and, and_true]
  constructor
  · rintro ⟨w, v, ⟨hv, hw⟩, rfl⟩
    exact ⟨v, w, hv, hw, rfl⟩
  · rintro ⟨v, w, hv, hw, rfl⟩
    exact ⟨w, v, ⟨hv, hw⟩, rfl⟩

end Receipt

/-- The value is read as something when it has room, and is refused when it
has not. -/
def Decoder.ReadsBack {α : Type} (decode : Decoder α) (v : Json) (room : Prop)
    (a : α) : Prop :=
  ∃ t, ReadsAs 0 v.canonical t ∧
    ∀ b, decode .json t = .ok b ↔ room ∧ a = b

/-- A receipt is read back with its values settled. -/
theorem Receipt.decode_readsBack {r : Receipt} (h : r.IsValid) :
    Receipt.decode.ReadsBack r.encode r.Fits r.settled := by
  obtain ⟨args, hargs⟩ := exists_readsBack h.args 1
  obtain ⟨result, hresult⟩ := exists_readsBack h.result 1
  refine ⟨_, readsAs_encode h hargs.1 hresult.1, ?_⟩
  intro r'
  rw [decode_trees_eq_ok_iff h]
  simp only [value?_eq_some_iff hargs, value?_eq_some_iff hresult]
  constructor
  · rintro ⟨v, w, ⟨hargsFits, rfl⟩, ⟨hresultFits, rfl⟩, rfl⟩
    exact ⟨⟨hargsFits, hresultFits⟩, rfl⟩
  · rintro ⟨⟨hargsFits, hresultFits⟩, rfl⟩
    exact ⟨_, _, ⟨hargsFits, rfl⟩, ⟨hresultFits, rfl⟩, rfl⟩

/-! ## Outcomes -/

namespace Payload

variable {data raw : Tree}

/-- The members of the tree of a payload. -/
def trees (data raw : Tree) : List (String × Tree) :=
  [("data", data), ("raw", raw)]

theorem distinct_trees : Reads.Distinct (trees data raw) := by
  change ["data", "raw"].Nodup
  decide

theorem decode_trees_eq_ok_iff {m : Medium} {p : Payload} :
    Payload.decode m (.obj (spelledMembers (trees data raw))) = .ok p ↔
      data.value? = some p.data ∧ raw.value? = some p.raw := by
  have hdistinct : Reads.Distinct (trees data raw) := distinct_trees
  have hdata := Reads.required_eq_ok_iff (m := m) (t := data) "data"
    Decoder.value hdistinct (by simp [trees])
  have hraw := Reads.required_eq_ok_iff (m := m) (t := raw) "raw"
    Decoder.value hdistinct (by simp [trees])
  rw [Payload.decode, Reads.record_eq_ok_iff hdistinct (by simp [trees])]
  simp only [Reads.seq_eq_ok_iff, Reads.map_eq_ok_iff, hdata, hraw,
    Decoder.value_eq_ok_iff]
  constructor
  · rintro ⟨_, w, ⟨v, hv, rfl⟩, hw, rfl⟩
    exact ⟨hv, hw⟩
  · rintro ⟨hv, hw⟩
    exact ⟨_, p.raw, ⟨p.data, hv, rfl⟩, hw, rfl⟩

theorem isLegible_trees :
    (Tree.obj (spelledMembers (trees data raw))).isLegible = true ↔
      data.isLegible = true ∧ raw.isLegible = true := by
  simp only [Tree.isLegible, Tree.value?, trees, spelledMembers, List.map_cons,
    List.map_nil, Tree.memberValues?.eq_def]
  cases data.value? <;> cases raw.value? <;> simp

end Payload

namespace Outcome

/-- The values of the outcome are valid. -/
def IsValid : Outcome → Prop
  | .ok p => p.data.IsValid ∧ p.raw.IsValid
  | .err _ => True

/-- The values of the outcome can stand inside it. -/
def Fits : Outcome → Prop
  | .ok p => p.data.Fits ∧ p.raw.Fits
  | .err _ => True

instance : (o : Outcome) → Decidable o.Fits
  | .ok _ => inferInstanceAs (Decidable (_ ∧ _))
  | .err _ => inferInstanceAs (Decidable True)

/-- The outcome with its values settled. -/
def settled : Outcome → Outcome
  | .ok p => .ok ⟨p.data.settled, p.raw.settled⟩
  | .err f => .err f

/-- The tree of a payload is read as an outcome. -/
theorem decode_payload_eq_ok_iff {data raw : Tree} {m : Medium} {o : Outcome} :
    Outcome.decode m (.obj (spelledMembers
        [("data", data), ("outcome", .str "ok"), ("raw", raw)])) = .ok o ↔
      ∃ v w, data.value? = some v ∧ raw.value? = some w ∧ .ok ⟨v, w⟩ = o := by
  have htagged : Outcome.decode m (.obj (spelledMembers
      [("data", data), ("outcome", .str "ok"), ("raw", raw)])) =
      if (Tree.obj (spelledMembers (Payload.trees data raw))).isLegible then
        (Payload.decode.map .ok) .aside
          (.obj (spelledMembers (Payload.trees data raw)))
      else .error .shape :=
    rfl
  rw [htagged]
  by_cases hlegible :
      (Tree.obj (spelledMembers (Payload.trees data raw))).isLegible = true
  · rw [if_pos hlegible, Decoder.map_eq_ok_iff]
    simp only [Payload.decode_trees_eq_ok_iff]
    constructor
    · rintro ⟨p, ⟨hv, hw⟩, rfl⟩
      exact ⟨p.data, p.raw, hv, hw, rfl⟩
    · rintro ⟨v, w, hv, hw, rfl⟩
      exact ⟨⟨v, w⟩, ⟨hv, hw⟩, rfl⟩
  · rw [if_neg hlegible]
    constructor
    · nofun
    · rintro ⟨v, w, hv, hw, rfl⟩
      refine absurd (Payload.isLegible_trees.2 ?_) hlegible
      rw [Tree.isLegible, hv, Tree.isLegible, hw]
      exact ⟨rfl, rfl⟩

/-- The tree of a failure is read as an outcome. -/
theorem decode_failure (f : AdapterFailure) (m : Medium) :
    Outcome.decode m (.obj (spelledMembers [("kind", .str f.kind.label),
      ("message", .str f.message),
      ("outcome", .str "err")])) = .ok (.err f) := by
  obtain ⟨kind, message⟩ := f
  cases kind <;> rfl

/-- An outcome is read back with its values settled. -/
theorem decode_readsBack {o : Outcome} (h : o.IsValid) :
    Outcome.decode.ReadsBack o.encode o.Fits o.settled := by
  cases o with
  | ok p =>
      obtain ⟨hvalid, hvalid'⟩ := h
      obtain ⟨data, hdata⟩ := exists_readsBack hvalid 1
      obtain ⟨raw, hraw⟩ := exists_readsBack hvalid' 1
      refine ⟨.obj (spelledMembers
        [("data", data), ("outcome", .str "ok"), ("raw", raw)]), ?_, ?_⟩
      · rw [encode]
        apply readsAs_obj_of_sorted
        · change (["data", "outcome", "raw"].map quoted).Pairwise
            fun a b => ¬b < a
          decide
        · refine .cons ⟨rfl, hdata.1⟩ ?_
          refine .cons ⟨rfl, readsAs_quoted _⟩ ?_
          exact .cons ⟨rfl, hraw.1⟩ .nil
      intro o'
      rw [decode_payload_eq_ok_iff]
      simp only [value?_eq_some_iff hdata, value?_eq_some_iff hraw]
      constructor
      · rintro ⟨v, w, ⟨hfits, rfl⟩, ⟨hfits', rfl⟩, rfl⟩
        exact ⟨⟨hfits, hfits'⟩, rfl⟩
      · rintro ⟨⟨hfits, hfits'⟩, rfl⟩
        exact ⟨_, _, ⟨hfits, rfl⟩, ⟨hfits', rfl⟩, rfl⟩
  | err f =>
      refine ⟨.obj (spelledMembers [("kind", .str f.kind.label),
        ("message", .str f.message), ("outcome", .str "err")]), ?_, ?_⟩
      · rw [encode]
        apply readsAs_obj_of_sorted
        · change (["kind", "message", "outcome"].map quoted).Pairwise
            fun a b => ¬b < a
          decide
        · refine .cons ⟨rfl, readsAs_quoted _⟩ ?_
          refine .cons ⟨rfl, readsAs_quoted _⟩ ?_
          exact .cons ⟨rfl, readsAs_quoted _⟩ .nil
      · intro o'
        rw [decode_failure, Except.ok.injEq]
        simp [Fits, settled]

end Outcome

end CallGate
