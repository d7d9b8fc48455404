import CallGate.Proofs.Session.Runs

/-!
# The books of a session

A dispatch that is not taken up leaves no trace.  Every other dispatch uses one
sequence number and adds one receipt to the log, whether or not the sink takes
the receipt.  So the log is numbered and stamped without gaps after any run,
the sink has no part in the state, and a sink in memory holds the log but for
the receipts that it refused.
-/

namespace CallGate

/-- What a sink in memory holds. -/
def ReceiptSink.held? : ReceiptSink → Option (List SentReceipt)
  | .memory held _ _ _ => some held
  | .none | .file _ | .archive _ => Option.none

/-- A sink in memory holds what was sent to it unless it refused. -/
theorem ReceiptSink.held?_send (sink : ReceiptSink) (sent : SentReceipt) :
    (sink.send sent).sink.held? = sink.held?.map fun held =>
      if (sink.send sent).refusal.isNone then held ++ [sent] else held := by
  cases sink with
  | none => rfl
  | memory held attempts refusal flushRefusal =>
      rw [send]
      cases refusal attempts <;> rfl
  | file waiting =>
      rw [send, buffer]
      split <;> split <;> rfl
  | archive a =>
      rw [send]
      cases a.append sent.1 sent.2 <;> rfl

theorem ReceiptSink.held?_flush (sink : ReceiptSink) :
    sink.flush.sink.held? = sink.held? := by
  cases sink <;> rfl

namespace SessionSetup

variable {s : SessionSetup} {st : SessionState} {operation : OperationId}
  {args : Json} {t : Taken} {spec : OperationSpec} {members : Arguments}
  {e : Execution}

theorem TakesUp.state_receipts
    (h : s.TakesUp operation args st t spec members e) :
    t.state.receipts = st.receipts ++ [t.receipt] := by
  rw [h.state_eq]

/-- The numbers and the stamps of a log are the ones that were given and read
so far, in order. -/
structure InStep (st : SessionState) : Prop where
  sequences : st.receipts.map (·.sequence) = List.range' 1 st.sequence
  timestamps : st.receipts.map (·.timestamp) =
    (List.range' 1 st.sequence).map .logical
  clock : st.clock = .logical st.sequence

theorem inStep_start (config : SessionConfig) (snapshot : Json) :
    InStep (.start config snapshot (.logical 0)) where
  sequences := rfl
  timestamps := rfl
  clock := rfl

theorem InStep.take (h : InStep st) (ht : s.take operation args st = .ok t) :
    InStep t.state := by
  obtain ⟨spec, members, e, htakes⟩ := take_eq_ok ht
  have hsequence : t.receipt.sequence = 1 + st.sequence := by
    rw [htakes.receipt_eq, receiptOf, htakes.request_sequence, Nat.add_comm]
  have htimestamp : t.receipt.timestamp = .logical (1 + st.sequence) := by
    rw [htakes.receipt_eq, h.clock, Nat.add_comm]
    rfl
  constructor
  · rw [htakes.state_receipts, htakes.state_sequence, List.map_append,
      h.sequences, List.range'_1_concat, List.map_singleton, hsequence]
  · rw [htakes.state_receipts, htakes.state_sequence, List.map_append,
      h.timestamps, List.range'_1_concat, List.map_append,
      List.map_singleton, List.map_singleton, htimestamp]
  · rw [htakes.state_sequence, htakes.state_eq, h.clock]
    rfl

theorem InStep.act (h : InStep st) (action : SessionAction) :
    InStep (s.act st action) := by
  rcases act_cases s st action with hst | ⟨_, _, t, _, ht, hst⟩ | ⟨_, hst⟩
  · rw [hst]
    exact h
  · rw [hst]
    exact h.take ht
  · rw [hst]
    exact ⟨h.sequences, h.timestamps, h.clock⟩

theorem InStep.run (h : InStep st) (actions : List SessionAction) :
    InStep (s.run st actions) := by
  induction actions generalizing st with
  | nil => exact h
  | cons action rest ih => exact ih (h.act action)

end SessionSetup

namespace Session

/-- What a caller gets from a dispatch. -/
abbrev Answer := Except DispatchError Dispatch

/-- The answer is to a call that was taken up. -/
def Answer.tookUp : Answer → Bool
  | .ok _ | .error (.persistence _) => true
  | .error (.call _) => false

/-- The answer says that the receipt was refused. -/
def Answer.refused : Answer → Bool
  | .error (.persistence _) => true
  | .ok _ | .error (.call _) => false

/-- The answer to an action, when it is a call. -/
def answer? (session : Session) : SessionAction → Option Answer
  | .call operation args => some (session.dispatch operation args).1
  | .close => none

/-- The answers to the calls of a run, in order. -/
def answers (session : Session) : List SessionAction → List Answer
  | [] => []
  | action :: rest =>
    (session.answer? action).toList ++ (session.act action).answers rest

/-- What a dispatch may come to: it is not taken up and the session is what it
was, or it uses one number and adds one receipt. -/
inductive Accounted (session : Session) : Answer × Session → Prop where
  | untaken (e : CallError) : Accounted session (.error (.call e), session)
  | refused (e : SinkError) (receipt : Receipt) {after : Session}
      (hsequence : after.state.sequence = session.state.sequence + 1)
      (hreceipts :
        after.state.receipts = session.state.receipts ++ [receipt]) :
      Accounted session (.error (.persistence e), after)
  | answered (d : Dispatch) {after : Session}
      (hsequence : after.state.sequence = session.state.sequence + 1)
      (hreceipts :
        after.state.receipts = session.state.receipts ++ [d.receipt]) :
      Accounted session (.ok d, after)

/-- An entry of the books: a receipt and the answer to its call. -/
abbrev Entry := Receipt × Answer

/-- What a sink in memory gets to hold of some entries. -/
def sentOf (id : String) (entries : List Entry) : List SentReceipt :=
  (entries.filter fun entry => !Answer.refused entry.2).map
    fun entry => (id, entry.1)

/-- The entries account for what happened between two sessions. -/
structure Balances (before : Session) (given : List Answer) (after : Session)
    (entries : List Entry) : Prop where
  setup_eq : after.setup = before.setup
  receipts_eq :
    after.state.receipts = before.state.receipts ++ entries.map (·.1)
  answers_eq : given.filter Answer.tookUp = entries.map (·.2)
  receipt_eq : ∀ entry ∈ entries, ∀ d, entry.2 = .ok d → d.receipt = entry.1
  held_eq : after.sink.held? =
    before.sink.held?.map (· ++ sentOf before.id entries)

variable {session next last : Session}

theorem Balances.refl (session : Session) : Balances session [] session [] where
  setup_eq := rfl
  receipts_eq := (List.append_nil _).symm
  answers_eq := rfl
  receipt_eq := by simp
  held_eq := by simp [sentOf]

theorem Balances.trans {given given' : List Answer}
    {entries entries' : List Entry} (h : Balances session given next entries)
    (h' : Balances next given' last entries') :
    Balances session (given ++ given') last (entries ++ entries') where
  setup_eq := h'.setup_eq.trans h.setup_eq
  receipts_eq := by
    rw [h'.receipts_eq, h.receipts_eq, List.append_assoc, ← List.map_append]
  answers_eq := by
    rw [List.filter_append, h.answers_eq, h'.answers_eq, ← List.map_append]
  receipt_eq := by
    intro entry hentry
    rcases List.mem_append.1 hentry with hmem | hmem
    · exact h.receipt_eq entry hmem
    · exact h'.receipt_eq entry hmem
  held_eq := by
    have hid : next.id = session.id := by rw [id, id, h.setup_eq]
    rw [h'.held_eq, h.held_eq, hid, Option.map_map]
    simp [sentOf, Function.comp_def]

/-- A dispatch that is taken up makes one entry. -/
theorem balances_of_take {operation : OperationId} {args : Json} {t : Taken}
    (ht : session.setup.take operation args session.state = .ok t) :
    Balances session [(session.dispatch operation args).1]
      (session.dispatch operation args).2
      [(t.receipt, (session.dispatch operation args).1)] := by
  obtain ⟨spec, members, e, htakes⟩ := SessionSetup.take_eq_ok ht
  have hheld := session.sink.held?_send (session.id, t.receipt)
  rw [dispatch, ht]
  dsimp only
  cases hrefusal : (session.sink.send (session.id, t.receipt)).refusal with
  | some refusal =>
      rw [hrefusal] at hheld
      refine ⟨rfl, htakes.state_receipts, rfl, ?_, ?_⟩
      · simp
      · exact hheld.trans (by simp [sentOf, Answer.refused])
  | none =>
      rw [hrefusal] at hheld
      refine ⟨rfl, htakes.state_receipts, rfl, ?_, hheld⟩
      intro entry hentry d hd
      obtain rfl := List.mem_singleton.1 hentry
      cases hd
      rfl

theorem exists_balances_act (session : Session) (action : SessionAction) :
    ∃ entries, Balances session (session.answer? action).toList
      (session.act action) entries := by
  cases action with
  | call operation args =>
      cases ht : session.setup.take operation args session.state with
      | error e =>
          refine ⟨[], ?_⟩
          rw [answer?, act, dispatch, ht]
          exact { Balances.refl session with answers_eq := rfl }
      | ok t => exact ⟨_, balances_of_take ht⟩
  | close =>
      obtain ⟨hsetup, hstate⟩ := act_eq session .close
      have hheld : (session.act .close).sink.held? = session.sink.held? := by
        rw [act, close]
        dsimp only
        split <;> exact session.sink.held?_flush
      refine ⟨[], hsetup, ?_, rfl, by simp, ?_⟩
      · rw [hstate, SessionSetup.act, SessionSetup.close]
        split <;> simp
      · simp [hheld, sentOf]

theorem exists_balances_run (session : Session)
    (actions : List SessionAction) :
    ∃ entries, Balances session (session.answers actions)
      (session.run actions) entries := by
  induction actions generalizing session with
  | nil => exact ⟨[], .refl session⟩
  | cons action rest ih =>
      obtain ⟨entries, hentries⟩ := exists_balances_act session action
      obtain ⟨later, hlater⟩ := ih (session.act action)
      exact ⟨entries ++ later, hentries.trans hlater⟩

theorem accounted_dispatch (session : Session) (operation : OperationId)
    (args : Json) :
    session.Accounted (session.dispatch operation args) := by
  cases ht : session.setup.take operation args session.state with
  | error e =>
      rw [dispatch, ht]
      exact .untaken e
  | ok t =>
      obtain ⟨spec, members, e, htakes⟩ := SessionSetup.take_eq_ok ht
      rw [dispatch, ht]
      dsimp only
      split
      · exact .refused _ t.receipt htakes.state_sequence htakes.state_receipts
      · exact .answered _ htakes.state_sequence htakes.state_receipts

/-- After any run of a session with its own logical clock, whatever its sink
refuses, the receipts are numbered and stamped from one to the session's
sequence number.  They stay what they are, and each belongs to one call that
was taken up; the state is that of a session without a sink; and a sink in
memory got all receipts but those whose call was answered by a refusal. -/
theorem run_start_accounts (setup : SessionSetup) (snapshot : Json)
    (sink : ReceiptSink) (actions : List SessionAction) :
    let begun := start setup snapshot (.logical 0) sink
    let session := begun.run actions
    let taken := (begun.answers actions).filter Answer.tookUp
    let entries := session.state.receipts.zip taken
    (∀ operation args,
      session.Accounted (session.dispatch operation args)) ∧
    session.state.receipts.map (·.sequence) =
      List.range' 1 session.state.sequence ∧
    session.state.receipts.map (·.timestamp) =
      (List.range' 1 session.state.sequence).map .logical ∧
    (∀ more,
      session.state.receipts <+: (session.run more).state.receipts) ∧
    session.state =
      ((start setup snapshot (.logical 0) .none).run actions).state ∧
    taken.length = session.state.receipts.length ∧
    (∀ entry ∈ entries, ∀ d, entry.2 = .ok d → d.receipt = entry.1) ∧
    session.sink.held? =
      sink.held?.map (· ++ sentOf setup.config.id entries) := by
  intro begun session taken entries
  have hstate : session.state =
      setup.run (.start setup.config snapshot (.logical 0)) actions :=
    (run_eq begun actions).2
  have hinStep : SessionSetup.InStep session.state := by
    rw [hstate]
    exact (SessionSetup.inStep_start setup.config snapshot).run actions
  obtain ⟨books, hbooks⟩ := exists_balances_run begun actions
  have hreceipts : session.state.receipts = books.map (·.1) :=
    hbooks.receipts_eq
  have htaken : taken = books.map (·.2) := hbooks.answers_eq
  have hentries : entries = books := by
    show session.state.receipts.zip taken = books
    rw [hreceipts, htaken, List.zip_map', List.map_id']
  refine ⟨session.accounted_dispatch, hinStep.sequences, hinStep.timestamps,
    ?_, ?_, ?_, ?_, ?_⟩
  · intro more
    obtain ⟨later, hlater⟩ := exists_balances_run session more
    exact ⟨_, hlater.receipts_eq.symm⟩
  · rw [hstate]
    exact (run_eq (start setup snapshot (.logical 0) .none) actions).2.symm
  · rw [htaken, hreceipts, List.length_map, List.length_map]
  · rw [hentries]
    exact hbooks.receipt_eq
  · rw [hentries]
    exact hbooks.held_eq

end Session

end CallGate
