import CallGate.Proofs.Backend.Office
import CallGate.Proofs.Session.Takings

/-!
# What was written

With the office behind the adapters, the world of a session is made by the
calls of the session.  A call adds a record exactly when it is a write that
went through in simulation or live; whatever else becomes of a call, the world
stays as it was.  So a read shows what the answers to the earlier calls say
was written, and nothing else.
-/

namespace CallGate

/-- The call was executed by a simulator, be it behind the live adapter. -/
def Taken.SimulatedBehind (guard : LiveGuard) (t : Taken) : Prop :=
  t.executed.mode = some .sim ∨
    t.executed.mode = some .live ∧
      guard.refusal? t.request.operation t.request.risk = none

namespace Taking

variable {s : SessionSetup} {x : Taking} {xs : List Taking}
  {service : String}

/-- The call is a write to a service that went through, in simulation or
live. -/
structure WritesTo (service : String) (x : Taking) : Prop where
  service_eq : x.taken.request.operation.service = service
  write : x.taken.request.risk.isWrite = true
  executed : x.taken.executed.mode = some .sim ∨
    x.taken.executed.mode = some .live
  status_ok : x.taken.executed.response.status = .ok

instance (service : String) (x : Taking) : Decidable (x.WritesTo service) :=
  decidable_of_iff
    (x.taken.request.operation.service = service ∧
      x.taken.request.risk.isWrite = true ∧
      (x.taken.executed.mode = some .sim ∨
        x.taken.executed.mode = some .live) ∧
      x.taken.executed.response.status = .ok)
    ⟨fun h => ⟨h.1, h.2.1, h.2.2.1, h.2.2.2⟩,
      fun h => ⟨h.service_eq, h.write, h.executed, h.status_ok⟩⟩

/-- The id that the response gives. -/
def answeredId (x : Taking) : Json :=
  (x.taken.executed.response.data.get? "id").getD .null

/-- What a write is remembered as: the id that the caller was given, the
operation, and the arguments as they were sent. -/
def written (x : Taking) : Json :=
  .obj [("args", .obj x.taken.request.args), ("id", x.answeredId),
    ("operation", .str x.taken.request.operation.name)]

/-- What the calls wrote for a service, in order. -/
def writtenFor (service : String) (xs : List Taking) : List Json :=
  (xs.filter (WritesTo service)).map written

theorem writtenFor_append_of_writesTo (h : x.WritesTo service)
    (xs : List Taking) :
    writtenFor service (xs ++ [x]) = writtenFor service xs ++ [x.written] := by
  rw [writtenFor, writtenFor, List.filter_append, List.map_append,
    List.filter_cons_of_pos (by simpa using h)]
  rfl

theorem writtenFor_append_of_not (h : ¬x.WritesTo service)
    (xs : List Taking) :
    writtenFor service (xs ++ [x]) = writtenFor service xs := by
  rw [writtenFor, writtenFor, List.filter_append,
    List.filter_cons_of_neg (by simpa using h), List.filter_nil,
    List.append_nil]

/-! ## One call -/

/-- A simulator executed the call. -/
def Simulated (s : SessionSetup) (x : Taking) : Prop :=
  (∃ mode, x.taken.executed.mode = some mode) ∧
    s.adapters.Simulates x.taken.request

theorem Valid.simulated_of_behind (h : x.Valid s)
    (hbehind : x.taken.SimulatedBehind s.config.guard) : x.Simulated s := by
  rcases hbehind with hsim | ⟨hlive, hrefusal⟩
  · exact ⟨⟨_, hsim⟩, Or.inl (h.servedIn hsim).mode_eq.symm⟩
  · exact ⟨⟨_, hlive⟩, Or.inr ⟨(h.servedIn hlive).mode_eq.symm, hrefusal⟩⟩

/-- A call that is simulated goes through, and the office answers it. -/
theorem Valid.of_simulated (h : x.Valid s)
    (hoffice : s.adapters.ServedByOffice) (hsimulated : x.Simulated s) :
    x.taken.executed.response.status = .ok ∧
      x.taken.executed.response.data =
        Office.answer s.config.seed x.taken.request x.found.world ∧
      x.taken.state.world =
        Office.after s.config.seed x.taken.request x.found.world := by
  obtain ⟨⟨mode, hmode⟩, hsimulates⟩ := hsimulated
  have hserved := h.servedIn hmode
  obtain ⟨raw, hraw⟩ :=
    Adapters.exists_execute_of_simulates hoffice hsimulates s.config.seed
  rw [hserved.response_eq, hserved.world_eq, served, hraw]
  exact ⟨rfl, rfl, rfl⟩

/-- A call that is not simulated leaves the world as it is, and it does not go
through in simulation or live. -/
theorem Valid.of_not_simulated (h : x.Valid s)
    (hoffice : s.adapters.ServedByOffice) (hnot : ¬x.Simulated s) :
    x.taken.state.world = x.found.world ∧
      ∀ service, ¬x.WritesTo service := by
  rcases Option.eq_none_or_eq_some x.taken.executed.mode with
    hmode | ⟨mode, hmode⟩
  · refine ⟨(h.unserved hmode).2.1, ?_⟩
    intro service hwrites
    rcases hwrites.executed with hother | hother
    · exact nomatch hmode.symm.trans hother
    · exact nomatch hmode.symm.trans hother
  · have hserved := h.servedIn hmode
    rcases Adapters.execute_cases hoffice s.config.seed x.taken.request with
      ⟨outcome, hsame, hwhy⟩ | ⟨hsimulates, -⟩
    · refine ⟨by rw [hserved.world_eq, served, hsame], ?_⟩
      intro service hwrites
      rcases hwhy with hreplay | ⟨-, reason, -, rfl⟩
      · rw [hserved.mode_eq, hreplay] at hmode
        rcases hwrites.executed with hother | hother
        · exact nomatch hmode.symm.trans hother
        · exact nomatch hmode.symm.trans hother
      · have hok := hwrites.status_ok
        rw [hserved.response_eq, served, hsame] at hok
        exact nomatch hok
    · exact absurd ⟨⟨mode, hmode⟩, hsimulates⟩ hnot

theorem Valid.writesTo_iff (h : x.Valid s)
    (hoffice : s.adapters.ServedByOffice) (hsimulated : x.Simulated s) :
    x.WritesTo service ↔
      x.taken.request.operation.service = service ∧
        x.taken.request.risk.isWrite = true := by
  constructor
  · intro hwrites
    exact ⟨hwrites.service_eq, hwrites.write⟩
  · rintro ⟨hservice, hwrite⟩
    refine ⟨hservice, hwrite, ?_, (h.of_simulated hoffice hsimulated).1⟩
    obtain ⟨⟨mode, hmode⟩, hsimulates⟩ := hsimulated
    rw [hmode, (h.servedIn hmode).mode_eq]
    exact hsimulates.imp (congrArg some) fun hlive => congrArg some hlive.1

/-- What a call adds to the records of a service. -/
theorem Valid.recordsOf_eq (h : x.Valid s)
    (hoffice : s.adapters.ServedByOffice)
    (hknown : x.found.world.recordsOf service = writtenFor service xs) :
    x.taken.state.world.recordsOf service =
      writtenFor service (xs ++ [x]) := by
  by_cases hsimulated : x.Simulated s
  · obtain ⟨-, hdata, hworld⟩ := h.of_simulated hoffice hsimulated
    have hiff : x.WritesTo service ↔ _ := h.writesTo_iff hoffice hsimulated
    rw [hworld, Office.after]
    by_cases hwrite : x.taken.request.risk.isWrite = true
    · rw [if_pos hwrite]
      by_cases hservice : x.taken.request.operation.service = service
      · rw [writtenFor_append_of_writesTo (hiff.2 ⟨hservice, hwrite⟩),
          ← hservice, World.recordsOf_append_self, hservice, hknown, written,
          answeredId, hdata, Office.answer, if_pos hwrite]
        rfl
      · rw [writtenFor_append_of_not fun hw => hservice (hiff.1 hw).1,
          World.recordsOf_append_of_ne (Ne.symm hservice), hknown]
    · rw [if_neg hwrite,
        writtenFor_append_of_not fun hw => hwrite (hiff.1 hw).2, hknown]
  · obtain ⟨hworld, hwrites⟩ := h.of_not_simulated hoffice hsimulated
    rw [hworld, writtenFor_append_of_not (hwrites service), hknown]

/-- The snapshot never changes. -/
theorem Valid.snapshot_eq (h : x.Valid s)
    (hoffice : s.adapters.ServedByOffice) :
    x.taken.state.world.snapshot = x.found.world.snapshot := by
  by_cases hsimulated : x.Simulated s
  · rw [(h.of_simulated hoffice hsimulated).2.2, Office.snapshot_after]
  · rw [(h.of_not_simulated hoffice hsimulated).1]

/-- The answer to a write that went through has an id. -/
theorem Valid.exists_id (h : x.Valid s)
    (hoffice : s.adapters.ServedByOffice) (hwrites : x.WritesTo service) :
    ∃ id : String,
      x.taken.executed.response.data.get? "id" = some (.str id) := by
  by_cases hsimulated : x.Simulated s
  · rw [(h.of_simulated hoffice hsimulated).2.1, Office.answer,
      if_pos hwrites.write]
    exact ⟨_, rfl⟩
  · exact absurd hwrites ((h.of_not_simulated hoffice hsimulated).2 service)

end Taking

namespace SessionSetup

variable {s : SessionSetup}

/-- The world after a run from the start. -/
theorem world_run (hoffice : s.adapters.ServedByOffice) (snapshot : Json)
    (clock : Clock) (actions : List SessionAction) :
    let first := SessionState.start s.config snapshot clock
    (s.run first actions).world.snapshot = snapshot ∧
      ∀ service, (s.run first actions).world.recordsOf service =
        Taking.writtenFor service (s.takings first actions) := by
  intro first
  refine invariant_run
    (fun st xs => st.world.snapshot = snapshot ∧
      ∀ service, st.world.recordsOf service = Taking.writtenFor service xs)
    (fun _ _ _ _ h => h) ?_ ⟨rfl, fun _ => rfl⟩ actions
  rintro x xs hx ⟨hsnapshot, hrecords⟩
  exact ⟨(hx.snapshot_eq hoffice).trans hsnapshot,
    fun service => hx.recordsOf_eq hoffice (hrecords service)⟩

end SessionSetup

namespace Session

/-- In every session with the office simulator the snapshot stays what it was
at the start, and the records of a service are those of the writes to it that
went through in simulation or live, in the order of their numbers.  A read that
is executed shows exactly these, and a write that is executed is told its place
among them. -/
theorem reads_show_accepted_writes (config : SessionConfig)
    (registry : Registry) (recorded : Fixtures) (snapshot : Json)
    (clock : Clock) (sink : ReceiptSink) (actions : List SessionAction) :
    let setup : SessionSetup :=
      { config := config, registry := registry, recorded := recorded }
    let first := (start setup snapshot clock sink).state
    let last := ((start setup snapshot clock sink).run actions).state
    let earlier := setup.takings first actions
    earlier.map (·.taken.request.sequence) =
        List.range' 1 earlier.length ∧
      (∀ service, ∀ x ∈ earlier, x.WritesTo service →
        ∃ id : String,
          x.taken.executed.response.data.get? "id" = some (.str id)) ∧
      last.world.snapshot = snapshot ∧
      (∀ service,
        last.world.recordsOf service = Taking.writtenFor service earlier) ∧
      ∀ operation args t, setup.take operation args last = .ok t →
        t.SimulatedBehind config.guard →
        let records :=
          Taking.writtenFor t.request.operation.service earlier
        let response := t.executed.response
        response.status = .ok ∧
          (t.request.risk.isWrite = false →
            response.data.get? "records" = some (.arr records) ∧
              response.data.get? "count" =
                some (.ofNat records.length)) ∧
          (t.request.risk.isWrite = true →
            (∃ id : String, response.data.get? "id" = some (.str id)) ∧
              response.data.get? "record_count" =
                some (.ofNat (records.length + 1))) := by
  intro setup first last earlier
  have hoffice : setup.adapters.ServedByOffice := ⟨rfl, rfl⟩
  have hlast : last = setup.run first actions :=
    (run_eq (start setup snapshot clock sink) actions).2
  have hworld : last.world.snapshot = snapshot ∧ ∀ service,
      last.world.recordsOf service = Taking.writtenFor service earlier := by
    rw [hlast]
    exact SessionSetup.world_run hoffice snapshot clock actions
  refine ⟨setup.sequences_takings first actions, ?_, hworld.1, hworld.2, ?_⟩
  · intro service x hx hwrites
    exact (SessionSetup.valid_of_mem_takings hx).exists_id hoffice hwrites
  · intro operation args t ht hbehind records response
    let x : Taking := ⟨last, operation, args, t⟩
    have hx : x.Valid setup := ht
    obtain ⟨hok, hdata, -⟩ :=
      hx.of_simulated hoffice (hx.simulated_of_behind hbehind)
    have hrecords : last.world.recordsOf t.request.operation.service =
        records := hworld.2 _
    have hanswer : response.data =
        Office.answer setup.config.seed t.request last.world := hdata
    refine ⟨hok, fun hread => ?_, fun hwrite => ?_⟩
    · rw [hanswer, Office.answer, hread, if_neg Bool.false_ne_true,
        Office.readAnswer, hrecords]
      exact ⟨rfl, rfl⟩
    · rw [hanswer, Office.answer, if_pos hwrite, Office.writeAnswer, hrecords]
      exact ⟨⟨_, rfl⟩, rfl⟩

/-- A policy lets all mail be sent, the session is live for mail, and the guard
lets risky writes through.  Mail is sent twice, and then all mail is listed:
both are there. -/
theorem sent_mail_is_listed :
    let mailList : OperationId := ⟨"mail", "list"⟩
    let config : SessionConfig :=
      { policy := { preGranted := KeySet.ofList [mailSend] }
        modes := .uniform .live
        guard := { allowWriteRisky := true } }
    let registry : Registry :=
      ⟨mailRegistry.specs.insert mailList (.viaAdapter mailList .read)⟩
    let setup : SessionSetup := { config := config, registry := registry }
    let session := start setup .null (.logical 0) .none
    let actions : List SessionAction :=
      [.call mailSend .null, .call mailSend .null]
    let earlier := setup.takings session.state actions
    ∃ t, setup.take mailList .null (session.run actions).state = .ok t ∧
      (Taking.writtenFor "mail" earlier).length = 2 ∧
      t.executed.response.data.get? "records" =
        some (.arr (Taking.writtenFor "mail" earlier)) := by
  intro mailList config registry setup session actions earlier
  have htaken : (setup.take mailList .null
      (session.run actions).state).toOption.any (fun t =>
        t.executed.mode = some .live ∧
          setup.config.guard.refusal? t.request.operation t.request.risk =
            none ∧
          t.request.risk = .read ∧
          t.request.operation.service = "mail") = true := by
    decide +kernel
  obtain ⟨t, ht, hp⟩ := exists_ok_of_any htaken
  obtain ⟨hmode, hrefusal, hread, hservice⟩ := of_decide_eq_true hp
  have hlength : (Taking.writtenFor "mail" earlier).length = 2 := by
    decide +kernel
  have hrun := reads_show_accepted_writes config registry KeyMap.empty .null
    (.logical 0) .none actions
  obtain ⟨-, -, -, -, hnext⟩ := hrun
  obtain ⟨-, hrecords, -⟩ :=
    hnext mailList .null t ht (Or.inr ⟨hmode, hrefusal⟩)
  rw [hservice] at hrecords
  exact ⟨t, ht, hlength, (hrecords (by rw [hread]; rfl)).1⟩

end Session

end CallGate
