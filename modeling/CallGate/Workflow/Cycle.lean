/-!
# Cycles of a successor function

From each of finitely many places at most one place follows.  A walk follows
the places until it stops, meets a place that was settled by an earlier walk,
or closes a cycle.  The cycle is listed in the order of the walk, starting
where the walk entered it.
-/

namespace CallGate.Cycle

/-- How a walk ends: with the places that it went over and the cycle that it
closed, if any. -/
structure Walk where
  places : List Nat
  cycle : Option (List Nat)
  deriving DecidableEq, Inhabited

/-- Walks on from a place, given the places gone over and fuel for the places
to come. -/
def walk (next : Nat → Option Nat) (settled : List Nat) :
    Nat → List Nat → Nat → Walk
  | 0, places, _ => ⟨places, none⟩
  | fuel + 1, places, i =>
    if settled.contains i then ⟨places, none⟩
    else if places.contains i then ⟨places, some (places.dropWhile (· ≠ i))⟩
    else
      match next i with
      | none => ⟨places ++ [i], none⟩
      | some j => walk next settled fuel (places ++ [i]) j

/-- The first cycle that satisfies a condition, walks starting from the given
places in turn. -/
def findFrom (next : Nat → Option Nat) (bad : List Nat → Bool) (count : Nat) :
    List Nat → List Nat → Option (List Nat)
  | _, [] => none
  | settled, start :: rest =>
    let w := walk next settled (count + 1) [] start
    match w.cycle with
    | none => findFrom next bad count (settled ++ w.places) rest
    | some cycle =>
      if bad cycle then some cycle
      else findFrom next bad count (settled ++ w.places) rest

/-- The first cycle among the places below `count` that satisfies a
condition. -/
def find? (next : Nat → Option Nat) (count : Nat) (bad : List Nat → Bool) :
    Option (List Nat) :=
  findFrom next bad count [] (List.range count)

end CallGate.Cycle
