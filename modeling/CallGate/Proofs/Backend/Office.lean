import CallGate.Backend.Adapters
import CallGate.Proofs.KeyMap

/-!
# What the office serves

The office simulator serves a call from two parts of the world, the snapshot
and the records of the call's own service, and all that it does is to add a
record of a write to the latter.  Behind the live adapter it does the same,
unless the guard refuses the call, and a call that is replayed or refused
leaves the world as it is.
-/

namespace CallGate

namespace World

variable {w w' : World} {service other : String}

@[simp] theorem recordsOf_append_self (w : World) (service : String)
    (record : Json) :
    (w.append service record).recordsOf service =
      w.recordsOf service ++ [record] := by
  rw [recordsOf, append]
  dsimp only
  rw [KeyMap.get?_insert_self]
  rfl

theorem recordsOf_append_of_ne (hne : other ≠ service) (w : World)
    (record : Json) :
    (w.append service record).recordsOf other = w.recordsOf other := by
  rw [recordsOf, append]
  dsimp only
  rw [KeyMap.get?_insert_of_ne _ hne]
  rfl

/-- Worlds in which a service finds the same. -/
structure AlikeFor (service : String) (w w' : World) : Prop where
  snapshot : w'.snapshot = w.snapshot
  recordsOf : w'.recordsOf service = w.recordsOf service

theorem AlikeFor.refl (service : String) (w : World) : AlikeFor service w w :=
  ⟨rfl, rfl⟩

theorem AlikeFor.symm (h : AlikeFor service w w') : AlikeFor service w' w :=
  ⟨h.snapshot.symm, h.recordsOf.symm⟩

theorem AlikeFor.trans {w'' : World} (h : AlikeFor service w w')
    (h' : AlikeFor service w' w'') : AlikeFor service w w'' :=
  ⟨h'.snapshot.trans h.snapshot, h'.recordsOf.trans h.recordsOf⟩

end World

namespace Office

variable {w w' : World} {seed : Nat} {r : Request} {service : String}

/-- The id of the record that a write leaves. -/
def idOf (seed : Nat) (r : Request) : String :=
  recordId r.operation.service (callNumbers seed r).next.1

/-- What the office answers to a call. -/
def answer (seed : Nat) (r : Request) (w : World) : Json :=
  if r.risk.isWrite then
    writeAnswer (idOf seed r) ((w.recordsOf r.operation.service).length + 1) r
  else readAnswer w r

/-- The world after a call. -/
def after (seed : Nat) (r : Request) (w : World) : World :=
  if r.risk.isWrite then
    w.append r.operation.service (record (idOf seed r) r)
  else w

/-- What the office does with a call: it always answers, and which numbers it
leaves does not depend on the world. -/
theorem simulate_eq (seed : Nat) (r : Request) :
    ∃ numbers, ∀ w, simulate r (callNumbers seed r) w =
      ⟨.ok (answer seed r w), numbers, after seed r w⟩ := by
  by_cases hwrite : r.risk.isWrite = true
  · refine ⟨(callNumbers seed r).next.2, fun w => ?_⟩
    rw [simulate, if_pos hwrite, answer, if_pos hwrite, after,
      if_pos hwrite]
    dsimp only
    rw [World.recordsOf_append_self, List.length_append,
      List.length_singleton, ← idOf]
  · refine ⟨callNumbers seed r, fun w => ?_⟩
    rw [simulate, if_neg hwrite, answer, if_neg hwrite, after,
      if_neg hwrite]

theorem answer_congr (h : World.AlikeFor r.operation.service w w') :
    answer seed r w' = answer seed r w := by
  rw [answer, answer, readAnswer, readAnswer, view, view, World.section?,
    World.section?, h.snapshot, h.recordsOf]

@[simp] theorem snapshot_after (seed : Nat) (r : Request) (w : World) :
    (after seed r w).snapshot = w.snapshot := by
  rw [after]
  split <;> rfl

theorem alikeFor_after (h : World.AlikeFor r.operation.service w w') :
    World.AlikeFor r.operation.service (after seed r w)
      (after seed r w') := by
  by_cases hwrite : r.risk.isWrite = true
  · rw [after, after, if_pos hwrite, if_pos hwrite]
    refine ⟨h.snapshot, ?_⟩
    rw [World.recordsOf_append_self, World.recordsOf_append_self,
      h.recordsOf]
  · rw [after, after, if_neg hwrite, if_neg hwrite]
    exact h

/-- A call leaves the records of other services as they are. -/
theorem alikeFor_after_of_ne (hne : service ≠ r.operation.service)
    (seed : Nat) (w : World) :
    World.AlikeFor service w (after seed r w) := by
  by_cases hwrite : r.risk.isWrite = true
  · rw [after, if_pos hwrite]
    exact ⟨rfl, World.recordsOf_append_of_ne hne w _⟩
  · rw [after, if_neg hwrite]
    exact .refl service w

end Office

namespace Adapters

variable {a : Adapters} {seed : Nat} {r : Request} {w w' : World}
  {service : String}

/-- All that is simulated is simulated by the office. -/
structure ServedByOffice (a : Adapters) : Prop where
  simulators_eq : a.simulators = .office
  backend_eq : a.backend = none

/-- The call is executed by a simulator, be it behind the live adapter. -/
def Simulates (a : Adapters) (r : Request) : Prop :=
  a.modeOf r = .sim ∨
    a.modeOf r = .live ∧ a.guard.refusal? r.operation r.risk = none

/-- Marking a payload keeps its data. -/
theorem markLive_eq (p : Payload) :
    markLive p = ⟨p.data, (markLive p).raw⟩ := by
  rw [markLive]
  split <;> rfl

theorem serve_office (seed : Nat) (r : Request) :
    ∃ raw : Json → Json, ∀ w, Simulators.office.serve seed r w =
      (.ok ⟨Office.answer seed r w, raw (Office.answer seed r w)⟩,
        Office.after seed r w) := by
  obtain ⟨numbers, hsimulate⟩ := Office.simulate_eq seed r
  refine ⟨Simulators.rawAnswer r numbers.latency.1, fun w => ?_⟩
  have hoffice : Simulators.office.get? r.operation.service =
      some Office.simulate := rfl
  rw [Simulators.serve, hoffice]
  dsimp only
  rw [hsimulate]

/-- A call has an outcome that does not depend on the world and leaves it as
it is, or it is simulated and the office answers. -/
theorem execute_cases (h : a.ServedByOffice) (seed : Nat) (r : Request) :
    (∃ outcome, (∀ w, a.execute seed r w = (outcome, w)) ∧
      (a.modeOf r = .replay ∨
        a.modeOf r = .live ∧
          ∃ reason, a.guard.refusal? r.operation r.risk = some reason ∧
            outcome = .err ⟨.liveBlocked, reason⟩)) ∨
      (a.Simulates r ∧ ∃ raw : Json → Json, ∀ w, a.execute seed r w =
        (.ok ⟨Office.answer seed r w, raw (Office.answer seed r w)⟩,
          Office.after seed r w)) := by
  obtain ⟨raw, hserve⟩ := serve_office seed r
  rw [← h.simulators_eq] at hserve
  cases hmode : a.modeOf r with
  | replay =>
      refine Or.inl ⟨a.executeReplay r, fun w => ?_, Or.inl rfl⟩
      rw [execute, hmode]
  | sim =>
      refine Or.inr ⟨Or.inl hmode, raw, fun w => ?_⟩
      rw [execute, hmode]
      dsimp only
      rw [executeSim, hserve]
  | live =>
      cases hrefusal : a.guard.refusal? r.operation r.risk with
      | some reason =>
          refine Or.inl ⟨.err ⟨.liveBlocked, reason⟩, fun w => ?_,
            Or.inr ⟨rfl, reason, rfl, rfl⟩⟩
          rw [execute, hmode]
          dsimp only
          rw [executeLive, hrefusal]
      | none =>
          refine Or.inr ⟨Or.inr ⟨hmode, hrefusal⟩,
            fun data => (markLive ⟨data, raw data⟩).raw, fun w => ?_⟩
          rw [execute, hmode]
          dsimp only
          rw [executeLive, hrefusal, h.backend_eq]
          dsimp only [Option.getD_none]
          rw [simulatedBackend, hserve,
            ← markLive_eq ⟨Office.answer seed r w, _⟩]
          rfl

/-- A call that is simulated goes through. -/
theorem exists_execute_of_simulates (h : a.ServedByOffice)
    (hsimulates : a.Simulates r) (seed : Nat) :
    ∃ raw : Json → Json, ∀ w, a.execute seed r w =
      (.ok ⟨Office.answer seed r w, raw (Office.answer seed r w)⟩,
        Office.after seed r w) := by
  rcases execute_cases h seed r with ⟨outcome, -, hwhy⟩ | ⟨-, hraw⟩
  · rcases hwhy with hreplay | ⟨hlive, reason, hreason, -⟩
    · rcases hsimulates with hsim | ⟨hlive, -⟩
      · rw [hsim] at hreplay
        cases hreplay
      · rw [hlive] at hreplay
        cases hreplay
    · rcases hsimulates with hsim | ⟨-, hnone⟩
      · rw [hsim] at hlive
        cases hlive
      · rw [hnone] at hreason
        cases hreason
  · exact hraw

/-- What comes of a call depends on what its service finds in the world, and
what the service finds afterwards does, too. -/
theorem execute_congr (h : a.ServedByOffice) (seed : Nat)
    (halike : World.AlikeFor r.operation.service w w') :
    (a.execute seed r w').1 = (a.execute seed r w).1 ∧
      World.AlikeFor r.operation.service (a.execute seed r w).2
        (a.execute seed r w').2 := by
  rcases execute_cases h seed r with ⟨outcome, hsame, -⟩ | ⟨-, raw, hraw⟩
  · rw [hsame, hsame]
    exact ⟨rfl, halike⟩
  · rw [hraw, hraw, Office.answer_congr halike]
    exact ⟨rfl, Office.alikeFor_after halike⟩

/-- A call changes nothing for another service. -/
theorem alikeFor_execute_of_ne (h : a.ServedByOffice)
    (hne : service ≠ r.operation.service) (seed : Nat) (w : World) :
    World.AlikeFor service w (a.execute seed r w).2 := by
  rcases execute_cases h seed r with ⟨outcome, hsame, -⟩ | ⟨-, raw, hraw⟩
  · rw [hsame]
    exact .refl service w
  · rw [hraw]
    exact Office.alikeFor_after_of_ne hne seed w

end Adapters

end CallGate
