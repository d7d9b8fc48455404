import CallGate.Operation.Id
import CallGate.Workflow.FailurePolicy
import Mathlib.Data.List.Basic
import Mathlib.Tactic.SplitIfs

/-!
# Written names of operations and failure policies

The name of an operation and what to do on failure are written as texts.
Blanks around them are dropped when they are read, and keywords are read in
either case; what is written for them is read as the same.
-/

namespace CallGate

namespace Text

variable {cs : List Char}

/-- Neither the first nor the last character is blank. -/
def Trimmed (cs : List Char) : Prop :=
  (∀ c ∈ cs.head?, isBlank c = false) ∧ ∀ c ∈ cs.getLast?, isBlank c = false

theorem head?_trimLeft (cs : List Char) :
    ∀ c ∈ (trimLeft cs).head?, isBlank c = false := by
  intro c hc
  have hfirst := List.head?_dropWhile_not isBlank cs
  rw [← trimLeft, Option.mem_def.1 hc] at hfirst
  exact hfirst

theorem trimLeft_eq_self (h : ∀ c ∈ cs.head?, isBlank c = false) :
    trimLeft cs = cs := by
  cases cs with
  | nil => rfl
  | cons c rest =>
      rw [trimLeft, List.dropWhile_cons_of_neg]
      rw [h c rfl]
      exact Bool.false_ne_true

theorem trimmed_trimChars (cs : List Char) : Trimmed (trimChars cs) := by
  constructor
  · intro c hc
    rw [trimChars, List.head?_reverse] at hc
    have hsuffix : trimLeft (trimLeft cs).reverse <:+ (trimLeft cs).reverse :=
      List.dropWhile_suffix isBlank
    obtain ⟨dropped, hdropped⟩ := hsuffix
    apply head?_trimLeft cs
    rw [← List.getLast?_reverse, ← hdropped, List.getLast?_append,
      Option.mem_def.1 hc]
    rfl
  · intro c hc
    rw [trimChars, List.getLast?_reverse] at hc
    exact head?_trimLeft _ c hc

theorem trimChars_of_trimmed (h : Trimmed cs) : trimChars cs = cs := by
  rw [trimChars, trimLeft_eq_self h.1, trimLeft_eq_self, List.reverse_reverse]
  rw [List.head?_reverse]
  exact h.2

end Text

namespace OperationId

theorem toList_display (id : OperationId) :
    id.display.toList = id.service.toList ++ '.' :: id.name.toList := by
  simp [display]

/-- The name of an operation that was read is read again. -/
theorem read_display {text : String} {id : OperationId}
    (h : read text = .ok id) : read id.display = .ok id := by
  rw [read] at h
  split at h
  · rename_i service name hcut
    split_ifs at h with hempty
    cases h
    have htext : (display ⟨.ofList service, .ofList name⟩).toList =
        Text.trimChars text.toList := by
      rw [(Text.cutAtFirst_eq_some_iff.1 hcut).1, toList_display,
        String.toList_ofList, String.toList_ofList]
    rw [read, htext,
      Text.trimChars_of_trimmed (Text.trimmed_trimChars text.toList), hcut]
    dsimp only
    rw [if_neg hempty]
  · cases h

end OperationId

namespace FailurePolicy

theorem toList_display_jump (target : List Char) :
    (display (.jump (.ofList target))).toList = jumpMark ++ target := by
  simp [display, jumpMark]

theorem trimmed_jump {target : List Char} (hne : target ≠ [])
    (h : Text.Trimmed target) : Text.Trimmed (jumpMark ++ target) := by
  constructor
  · intro c hc
    obtain rfl : 'j' = c := Option.some.inj hc
    decide
  · intro c hc
    rw [List.getLast?_append_of_ne_nil _ hne] at hc
    exact h.2 c hc

/-- A target without blanks around it that is not empty is read again. -/
theorem read_jump {target : List Char} (hne : target ≠ [])
    (h : Text.Trimmed target) :
    read (display (.jump (.ofList target))) = .ok (.jump (.ofList target)) := by
  have hkeyword {word : String} (hword : word.toList.head? ≠ some 'j') :
      String.ofList ((jumpMark ++ target).map Char.toLower) ≠ word := by
    rintro rfl
    rw [String.toList_ofList] at hword
    exact hword rfl
  have hafter : afterJump? (jumpMark ++ target) = some target := by
    rw [afterJump?, List.take_left, List.drop_left]
    exact if_pos (by decide)
  rw [read, toList_display_jump, Text.trimChars_of_trimmed (trimmed_jump hne h)]
  rw [if_neg, if_neg, hafter, Option.map_some, Text.trimChars_of_trimmed h]
  · cases target with
    | nil => exact absurd rfl hne
    | cons c rest => rfl
  · rw [Bool.or_eq_true, decide_eq_true_eq, decide_eq_true_eq, not_or]
    exact ⟨hkeyword (by decide), hkeyword (by decide)⟩
  · rw [Bool.or_eq_true, decide_eq_true_eq, decide_eq_true_eq, not_or]
    exact ⟨hkeyword (by decide), hkeyword (by decide)⟩

/-- What to do on failure, once it was read, is read again. -/
theorem read_display {text : String} {p : FailurePolicy}
    (h : read text = .ok p) : read p.display = .ok p := by
  rw [read] at h
  split_ifs at h
  · cases h
    rfl
  · cases h
    rfl
  · split at h
    · cases h
    · cases h
    · rename_i target hnone hafter
      cases h
      obtain ⟨rest, -, rfl⟩ := Option.map_eq_some_iff.1 hafter
      exact read_jump hnone (Text.trimmed_trimChars rest)

end FailurePolicy

end CallGate
