import CallGate.Workflow.Cycle
import Mathlib.Data.Finset.Card
import Mathlib.Data.List.Chain
import Mathlib.Logic.Relation

/-!
# Walks find the cycles

The search for a cycle walks from each place in turn and never goes over a
place twice.  It finds a cycle of which all places satisfy a condition exactly
when there is one: from a place on such a cycle the walk stays on the cycle,
so it cannot end in any other way than by closing it.
-/

namespace CallGate.Cycle

/-- A place satisfies the condition, and another one follows it. -/
def Onward (next : Nat → Option Nat) (p : Nat → Bool) (i j : Nat) : Prop :=
  p i = true ∧ next i = some j

/-- The place lies on a cycle of which all places satisfy the condition. -/
def OnCycle (next : Nat → Option Nat) (p : Nat → Bool) (i : Nat) : Prop :=
  Relation.TransGen (Onward next p) i i

/-- The places follow each other, and then the last one comes. -/
def Leads (next : Nat → Option Nat) (places : List Nat) (i : Nat) : Prop :=
  List.IsChain (fun a b => next a = some b) (places ++ [i])

section Cycles

variable {next : Nat → Option Nat} {p : Nat → Bool} {i j x : Nat}
  {places : List Nat}

theorem OnCycle.exists_next (h : OnCycle next p i) :
    p i = true ∧ ∃ j, next i = some j ∧ OnCycle next p j := by
  obtain ⟨j, ⟨hp, hj⟩, hback⟩ := Relation.TransGen.head'_iff.1 h
  have hround : OnCycle next p j := Relation.TransGen.tail' hback ⟨hp, hj⟩
  exact ⟨hp, j, hj, hround⟩

/-- What follows a place on a cycle is on the cycle. -/
theorem OnCycle.of_next (h : OnCycle next p i) (hj : next i = some j) :
    OnCycle next p j := by
  obtain ⟨-, k, hk, hround⟩ := h.exists_next
  rw [hj] at hk
  cases hk
  exact hround

theorem leads_nil (next : Nat → Option Nat) (i : Nat) : Leads next [] i :=
  List.isChain_singleton i

theorem leads_cons_nil : Leads next [x] i ↔ next x = some i := by
  simp [Leads]

theorem leads_cons_cons {y : Nat} :
    Leads next (x :: y :: places) i ↔
      next x = some y ∧ Leads next (y :: places) i := by
  simp [Leads]

theorem Leads.concat (h : Leads next places i) (hj : next i = some j) :
    Leads next (places ++ [i]) j := by
  apply List.IsChain.append h (List.isChain_singleton j)
  intro a ha b hb
  rw [List.getLast?_concat, Option.mem_some_iff] at ha
  rw [List.head?_cons, Option.mem_some_iff] at hb
  subst ha hb
  exact hj

/-- A walk ends in the same place when it starts later. -/
theorem Leads.drop {before : List Nat} (h : Leads next (before ++ places) i) :
    Leads next places i := by
  rw [Leads, List.append_assoc] at h
  exact h.right_of_append

/-- A walk from a place on a cycle stays on the cycle. -/
theorem Leads.onCycle (h : Leads next (x :: places) i)
    (hround : OnCycle next p x) :
    ∀ y ∈ x :: places ++ [i], OnCycle next p y := by
  induction places generalizing x with
  | nil =>
      intro y hy
      rcases List.mem_cons.1 hy with rfl | hlast
      · exact hround
      · rw [List.mem_singleton.1 hlast]
        exact hround.of_next (leads_cons_nil.1 h)
  | cons z rest ih =>
      obtain ⟨hnext, hrest⟩ := leads_cons_cons.1 h
      intro y hy
      rcases List.mem_cons.1 hy with rfl | hmore
      · exact hround
      · exact ih hrest (hround.of_next hnext) y hmore

/-- A walk that ends where no cycle is went over no cycle. -/
theorem Leads.not_onCycle (h : Leads next places i)
    (hi : ¬OnCycle next p i) : ∀ x ∈ places, ¬OnCycle next p x := by
  intro x hx hround
  obtain ⟨before, after, rfl⟩ := List.append_of_mem hx
  apply hi
  apply h.drop.onCycle hround
  simp

/-- A walk over places that satisfy the condition closes a cycle when it comes
back to its start. -/
theorem Leads.transGen (h : Leads next (x :: places) i)
    (hall : ∀ y ∈ x :: places, p y = true) :
    Relation.TransGen (Onward next p) x i := by
  induction places generalizing x with
  | nil => exact .single ⟨hall x List.mem_cons_self, leads_cons_nil.1 h⟩
  | cons y rest ih =>
      obtain ⟨hnext, hrest⟩ := leads_cons_cons.1 h
      have hfirst : Onward next p x y := ⟨hall x List.mem_cons_self, hnext⟩
      apply Relation.TransGen.head hfirst
      apply ih hrest
      intro z hz
      exact hall z (List.mem_cons_of_mem x hz)

end Cycles

/-! ## What a walk tells -/

/-- Places that are all different and below a bound are no more than the
bound. -/
theorem length_le_of_nodup {places : List Nat} {count : Nat}
    (hnodup : places.Nodup) (hlt : ∀ x ∈ places, x < count) :
    places.length ≤ count := by
  have hsubset : places ⊆ List.range count := by
    intro x hx
    exact List.mem_range.2 (hlt x hx)
  have hle := (List.subperm_of_subset hnodup hsubset).length_le
  rwa [List.length_range] at hle

/-- What a walk from a place tells: that the place and those that it went over
lie on no cycle, or that its own cycle is one. -/
inductive Tells (next : Nat → Option Nat) (p : Nat → Bool) (i : Nat) :
    Walk → Prop where
  | clear (w : Walk) (hcycle : ∀ c, w.cycle = some c → c.all p = false)
      (hstart : ¬OnCycle next p i) (hplaces : ∀ x ∈ w.places,
        ¬OnCycle next p x) : Tells next p i w
  | found (places c : List Nat) (x : Nat) (hall : c.all p = true)
      (hround : OnCycle next p x) : Tells next p i ⟨places, some c⟩

theorem Tells.of_next {next : Nat → Option Nat} {p : Nat → Bool}
    {i j : Nat} {w : Walk} (h : Tells next p j w) (hj : next i = some j) :
    Tells next p i w := by
  cases h with
  | clear _ hcycle hstart hplaces =>
      refine .clear w hcycle (fun hround => ?_) hplaces
      exact hstart (hround.of_next hj)
  | found places c x hall hround => exact .found places c x hall hround

/-- The cycle starts where the walk comes back to. -/
theorem dropWhile_ne_append {before after : List Nat} {i : Nat}
    (h : i ∉ before) :
    (before ++ i :: after).dropWhile (· ≠ i) = i :: after := by
  rw [List.dropWhile_append_of_pos]
  · simp
  · intro x hx
    have hne : x ≠ i := fun heq => h (heq ▸ hx)
    simpa using hne

/-- A walk that comes back to a place tells whether its cycle is one that is
looked for. -/
theorem tells_of_again {next : Nat → Option Nat} {p : Nat → Bool}
    {places : List Nat} {i : Nat} (hleads : Leads next places i)
    (hi : i ∈ places) :
    Tells next p i ⟨places, some (places.dropWhile (· ≠ i))⟩ := by
  obtain ⟨before, after, rfl, hbefore⟩ := List.eq_append_cons_of_mem hi
  have hround : Leads next (i :: after) i := hleads.drop
  rw [dropWhile_ne_append hbefore]
  by_cases hall : (i :: after).all p = true
  · have hp : ∀ y ∈ i :: after, p y = true := List.all_eq_true.1 hall
    exact .found _ _ i hall (hround.transGen hp)
  · have hclear : ¬OnCycle next p i := by
      intro hi
      apply hall
      rw [List.all_eq_true]
      intro y hy
      have hy' : y ∈ i :: after ++ [i] := List.mem_append_left _ hy
      exact (hround.onCycle hi y hy').exists_next.1
    refine .clear _ ?_ hclear (hleads.not_onCycle hclear)
    intro c hc
    cases hc
    simpa using hall

section Search

variable {next : Nat → Option Nat} {p : Nat → Bool} {count : Nat}
  {settled : List Nat}

theorem walk_tells (hsettled : ∀ x ∈ settled, ¬OnCycle next p x)
    (hnext : ∀ i j, next i = some j → j < count) {fuel i : Nat}
    {places : List Nat} (hleads : Leads next places i)
    (hnodup : places.Nodup) (hplaces : ∀ x ∈ places, x < count)
    (hi : i < count) (hfuel : count < fuel + places.length) :
    Tells next p i (walk next settled fuel places i) := by
  induction fuel generalizing places i with
  | zero =>
      have hlength := length_le_of_nodup hnodup hplaces
      omega
  | succ fuel ih =>
      rw [walk]
      split
      · rename_i hdone
        have hclear : ¬OnCycle next p i :=
          hsettled i (List.contains_iff_mem.1 hdone)
        exact .clear ⟨_, none⟩ nofun hclear (hleads.not_onCycle hclear)
      · split
        · rename_i hagain
          exact tells_of_again hleads (List.contains_iff_mem.1 hagain)
        · rename_i hnew
          have hnew' : i ∉ places := by simpa using hnew
          have hnodup' : (places ++ [i]).Nodup :=
            List.concat_eq_append ▸ List.Nodup.concat hnew' hnodup
          have hplaces' : ∀ x ∈ places ++ [i], x < count := by
            intro x hx
            rcases List.mem_append.1 hx with hmem | hlast
            · exact hplaces x hmem
            · rw [List.mem_singleton.1 hlast]
              exact hi
          split
          · rename_i hend
            have hclear : ¬OnCycle next p i := by
              intro hround
              obtain ⟨-, j, hj, -⟩ := hround.exists_next
              rw [hend] at hj
              cases hj
            refine .clear ⟨_, none⟩ nofun hclear fun x hx => ?_
            rcases List.mem_append.1 hx with hmem | hlast
            · exact hleads.not_onCycle hclear x hmem
            · rw [List.mem_singleton.1 hlast]
              exact hclear
          · rename_i j hj
            have hfuel' : count < fuel + (places ++ [i]).length := by
              rw [List.length_append, List.length_singleton]
              omega
            have htells := ih (hleads.concat hj) hnodup' hplaces'
              (hnext i j hj) hfuel'
            exact htells.of_next hj

theorem findFrom_tells (hnext : ∀ i j, next i = some j → j < count)
    {starts : List Nat} (hstarts : ∀ i ∈ starts, i < count)
    (hsettled : ∀ x ∈ settled, ¬OnCycle next p x) :
    (findFrom next (·.all p) count settled starts = none ∧
        ∀ i ∈ starts, ¬OnCycle next p i) ∨
      (findFrom next (·.all p) count settled starts ≠ none ∧
        ∃ x, OnCycle next p x) := by
  induction starts generalizing settled with
  | nil => exact Or.inl ⟨rfl, nofun⟩
  | cons start rest ih =>
      have hlt : start < count := hstarts start List.mem_cons_self
      have hrest : ∀ i ∈ rest, i < count := by
        intro i hi
        exact hstarts i (List.mem_cons_of_mem start hi)
      have htells : Tells next p start
          (walk next settled (count + 1) [] start) :=
        walk_tells hsettled hnext (leads_nil next start) List.nodup_nil
          nofun hlt (by simp)
      rw [findFrom]
      generalize walk next settled (count + 1) [] start = w at htells
      cases htells with
      | clear _ hcycle hstart hplaces =>
          have hsettled' : ∀ x ∈ settled ++ w.places,
              ¬OnCycle next p x := by
            intro x hx
            rcases List.mem_append.1 hx with hold | hnew
            · exact hsettled x hold
            · exact hplaces x hnew
          have hmore : (findFrom next (·.all p) count (settled ++ w.places)
                rest = none ∧ ∀ i ∈ start :: rest, ¬OnCycle next p i) ∨
              (findFrom next (·.all p) count (settled ++ w.places)
                rest ≠ none ∧ ∃ x, OnCycle next p x) := by
            refine (ih hrest hsettled').imp_left ?_
            rintro ⟨hnone, hclear⟩
            refine ⟨hnone, fun i hi => ?_⟩
            rcases List.mem_cons.1 hi with rfl | hmem
            · exact hstart
            · exact hclear i hmem
          cases hc : w.cycle with
          | none => exact hmore
          | some c =>
              simp only [hcycle c hc]
              exact hmore
      | found places c x hall hround =>
          refine Or.inr ⟨?_, x, hround⟩
          simp [hall]

/-- The search finds nothing exactly when no place lies on a cycle of which
all places satisfy the condition. -/
theorem find?_eq_none_iff
    (hnext : ∀ i j, next i = some j → i < count ∧ j < count) :
    find? next count (·.all p) = none ↔ ∀ i, ¬OnCycle next p i := by
  have hlt : ∀ i j, next i = some j → j < count :=
    fun i j hj => (hnext i j hj).2
  have hstarts : ∀ i ∈ List.range count, i < count :=
    fun i hi => List.mem_range.1 hi
  have hsettled : ∀ x ∈ ([] : List Nat), ¬OnCycle next p x := nofun
  rcases findFrom_tells hlt hstarts hsettled
    with ⟨hnone, hclear⟩ | ⟨hfound, x, hround⟩
  · refine ⟨fun _ i hround => ?_, fun _ => hnone⟩
    obtain ⟨-, j, hj, -⟩ := hround.exists_next
    exact hclear i (List.mem_range.2 (hnext i j hj).1) hround
  · exact ⟨fun hnone => absurd hnone hfound, fun h => absurd hround (h x)⟩

end Search

end CallGate.Cycle
