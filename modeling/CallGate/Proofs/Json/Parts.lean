import CallGate.Json.Value

/-!
# The parts of values

Values are taken apart by induction, an array into its items and an object
into its members, and their strings are the ones found on the way.
-/

namespace CallGate

namespace Json

/-- Induction on values: an array from its items and an object from its
members. -/
@[elab_as_elim]
theorem induct {motive : Json → Prop} (null : motive .null)
    (bool : ∀ b, motive (.bool b)) (num : ∀ n, motive (.num n))
    (str : ∀ s, motive (.str s))
    (arr : ∀ items, (∀ v ∈ items, motive v) → motive (.arr items))
    (obj : ∀ members : List (String × Json), (∀ m ∈ members, motive m.2) →
      motive (.obj members)) (v : Json) : motive v := by
  refine @Json.rec motive (fun items => ∀ v ∈ items, motive v)
    (fun members => ∀ m ∈ members, motive m.2) (fun m => motive m.2)
    null bool num str arr obj ?_ ?_ ?_ ?_ ?_ v
  · nofun
  · intro v items hv hitems
    exact List.forall_mem_cons.2 ⟨hv, hitems⟩
  · nofun
  · intro m members hm hmembers
    exact List.forall_mem_cons.2 ⟨hm, hmembers⟩
  · intro name v hv
    exact hv

/-- The text is one of the strings of the value. -/
inductive HasText : Json → String → Prop where
  | self (text : String) : HasText (.str text) text
  | item {items : List Json} {v : Json} {text : String} (hv : v ∈ items)
      (h : HasText v text) : HasText (.arr items) text
  | member {members : List (String × Json)} {m : String × Json}
      {text : String} (hm : m ∈ members) (h : HasText m.2 text) :
      HasText (.obj members) text

end Json

end CallGate
