import CallGate.Proofs.Workflow.Cycle
import Mathlib.Algebra.Order.BigOperators.Group.Finset
import Mathlib.Data.Finset.Max

/-!
# Trails through a graph without free cycles

A trail goes from place to place, each time to the one that follows.  Where no
cycle consists of free places only, a place that a trail comes back to has a
place that is not free on its way round, and always the same one.  So a bound
on how often a trail goes on from the places that are not free bounds how
often it comes to any place, and with it the length of the trail.
-/

namespace CallGate.Cycle

/-- Up to a number of places, each place of a trail is followed by the next
one. -/
def Trail (next : Nat → Option Nat) (x : Nat → Nat) (count : Nat) : Prop :=
  ∀ k, k + 1 < count → next (x k) = some (x (k + 1))

/-- The times before a given one at which a trail is at a place. -/
def visits (x : Nat → Nat) (count i : Nat) : Finset Nat :=
  (Finset.range count).filter fun k => x k = i

variable {next : Nat → Option Nat} {free : Nat → Bool} {x : Nat → Nat}
  {count i k most t u : Nat}

theorem mem_visits : k ∈ visits x count i ↔ k < count ∧ x k = i := by
  rw [visits, Finset.mem_filter, Finset.mem_range]

namespace Trail

/-- A trail goes the same way from the same place. -/
theorem same_way (h : Trail next x count) (hplace : x t = x u) {n : Nat}
    (ht : t + n < count) (hu : u + n < count) : x (t + n) = x (u + n) := by
  induction n with
  | zero => exact hplace
  | succ n ih =>
      have hsame : x (t + n) = x (u + n) := ih (by omega) (by omega)
      have hnext : next (x (t + n)) = some (x (t + n + 1)) := h _ ht
      have hnext' : next (x (u + n)) = some (x (u + n + 1)) := h _ hu
      rw [hsame, hnext'] at hnext
      exact (Option.some.inj hnext).symm

/-- A trail over free places is a way between its ends. -/
theorem transGen (h : Trail next x count) {n : Nat}
    (hcount : t + (n + 1) < count)
    (hfree : ∀ m ≤ n, free (x (t + m)) = true) :
    Relation.TransGen (Onward next free) (x t) (x (t + (n + 1))) := by
  have honward (m : Nat) (hm : m ≤ n) :
      Onward next free (x (t + m)) (x (t + m + 1)) :=
    ⟨hfree m hm, h (t + m) (by omega)⟩
  induction n with
  | zero => exact .single (honward 0 (Nat.le_refl 0))
  | succ n ih =>
      have hbefore : Relation.TransGen (Onward next free) (x t)
          (x (t + (n + 1))) := by
        apply ih (by omega)
        · intro m hm
          exact hfree m (Nat.le_succ_of_le hm)
        · intro m hm
          exact honward m (Nat.le_succ_of_le hm)
      exact hbefore.tail (honward (n + 1) (Nat.le_refl _))

/-- On its way round a trail comes to a place that is not free. -/
theorem exists_not_free (h : Trail next x count)
    (hacyclic : ∀ i, ¬OnCycle next free i) (htu : t < u) (hu : u < count)
    (hplace : x t = x u) : ∃ n, t + n < u ∧ free (x (t + n)) = false := by
  by_contra hall
  obtain ⟨n, rfl⟩ := Nat.exists_eq_add_of_lt htu
  have hfree : ∀ m ≤ n, free (x (t + m)) = true := by
    intro m hm
    by_contra hnot
    exact hall ⟨m, by omega, by simpa using hnot⟩
  apply hacyclic (x t)
  have hround := h.transGen (n := n) hu hfree
  rwa [← Nat.add_assoc, ← hplace] at hround

/-- A trail comes to a place no more often than it may come to the places that
are not free, the last place of the trail set aside.  Between two visits the
trail comes to one that is not free, as no cycle has only free places. -/
theorem card_visits_le (h : Trail next x count)
    (hacyclic : ∀ i, ¬OnCycle next free i) (hmost : 1 ≤ most)
    (hbounded : ∀ i, free i = false →
      (visits x (count - 1) i).card < most) :
    (visits x count i).card ≤ most := by
  by_cases hone : (visits x count i).card ≤ 1
  · exact Nat.le_trans hone hmost
  have hmany : 1 < (visits x count i).card := Nat.lt_of_not_le hone
  have hne : (visits x count i).Nonempty := Finset.card_pos.1 (by omega)
  let last := (visits x count i).max' hne
  have hlast : last ∈ visits x count i := Finset.max'_mem _ hne
  obtain ⟨hlt, hat⟩ := mem_visits.1 hlast
  have hbefore : ∀ t ∈ (visits x count i).erase last,
      t < last ∧ x t = x last := by
    intro t ht
    obtain ⟨hdiff, hmem⟩ := Finset.mem_erase.1 ht
    have hle : t ≤ last := Finset.le_max' _ t hmem
    exact ⟨by omega, (mem_visits.1 hmem).2.trans hat.symm⟩
  obtain ⟨first, hmem, hdiff⟩ := Finset.exists_mem_ne hmany last
  obtain ⟨hfirst, hfirstAt⟩ :=
    hbefore first (Finset.mem_erase.2 ⟨hdiff, hmem⟩)
  have hexists := h.exists_not_free hacyclic hfirst hlt hfirstAt
  let n := Nat.find hexists
  obtain ⟨hn, hnot⟩ : first + n < last ∧ free (x (first + n)) = false :=
    Nat.find_spec hexists
  have hpasses : ∀ t ∈ (visits x count i).erase last,
      t + n < last ∧ x (t + n) = x (first + n) := by
    intro t ht
    obtain ⟨htlast, htat⟩ := hbefore t ht
    have hsame : x t = x first := htat.trans hfirstAt.symm
    obtain ⟨m, hm, hmnot⟩ := h.exists_not_free hacyclic htlast hlt htat
    have hnm : n ≤ m := by
      by_contra hless
      have hway : x (t + m) = x (first + m) :=
        h.same_way hsame (by omega) (by omega)
      have hfound : first + m < last ∧ free (x (first + m)) = false :=
        ⟨by omega, hway ▸ hmnot⟩
      exact Nat.find_min hexists (Nat.lt_of_not_le hless) hfound
    exact ⟨by omega, h.same_way hsame (by omega) (by omega)⟩
  have hle : ((visits x count i).erase last).card ≤
      (visits x (count - 1) (x (first + n))).card := by
    apply Finset.card_le_card_of_injOn (· + n)
    · intro t ht
      obtain ⟨htlast, htat⟩ := hpasses t ht
      have hbelow : t + n < count - 1 := by omega
      exact mem_visits.2 ⟨hbelow, htat⟩
    · intro t _ u _ htu
      exact Nat.add_right_cancel htu
  have hfew := hbounded (x (first + n)) hnot
  rw [Finset.card_erase_of_mem hlast] at hle
  omega

/-- A trail has no more places than there are places to go to times the visits
of each. -/
theorem count_le (h : Trail next x count)
    (hacyclic : ∀ i, ¬OnCycle next free i) (hmost : 1 ≤ most)
    (hbounded : ∀ i, free i = false →
      (visits x (count - 1) i).card < most)
    {places : Nat} (hplaces : ∀ k < count, x k < places) :
    count ≤ places * most := by
  have himage : (Finset.range count).image x ⊆ Finset.range places := by
    intro i hi
    obtain ⟨k, hk, rfl⟩ := Finset.mem_image.1 hi
    exact Finset.mem_range.2 (hplaces k (Finset.mem_range.1 hk))
  have hvisits : ∀ i ∈ (Finset.range count).image x,
      ((Finset.range count).filter fun k => x k = i).card ≤ most :=
    fun _ _ => h.card_visits_le hacyclic hmost hbounded
  calc
    count = (Finset.range count).card := (Finset.card_range count).symm
    _ ≤ most * ((Finset.range count).image x).card :=
      Finset.card_le_mul_card_image _ most hvisits
    _ ≤ most * (Finset.range places).card :=
      Nat.mul_le_mul_left _ (Finset.card_le_card himage)
    _ = places * most := by rw [Finset.card_range, Nat.mul_comm]

end Trail

end CallGate.Cycle
