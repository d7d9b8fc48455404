import CallGate.Proofs.Text.Marks

/-!
# Lines of bytes

The byte of the newline stands for the newline and is part of the UTF-8 form
of no other character.  So a text that is put together from lines, each with a
newline at its end, has the same lines when its bytes are split.
-/

namespace CallGate.Text

/-- The byte of the newline. -/
def newlineByte : UInt8 := 0x0A

theorem utf8EncodeChar_newline :
    String.utf8EncodeChar '\n' = [newlineByte] := by decide

theorem eq_newline_of_mem_utf8EncodeChar {c : Char}
    (h : newlineByte ∈ String.utf8EncodeChar c) : c = '\n' := by
  have hascii : IsAscii '\n' := by decide
  exact hascii.eq_of_mem utf8EncodeChar_newline h

/-- A text without a newline has no newline among its bytes. -/
theorem newlineByte_not_mem_bytes {s : String} (h : '\n' ∉ s.toList) :
    newlineByte ∉ bytes s := by
  intro hmem
  obtain ⟨c, hc, hbyte⟩ := List.mem_flatMap.1 hmem
  exact h (eq_newline_of_mem_utf8EncodeChar hbyte ▸ hc)

/-- What is split at the marks that end some lines are these lines, and
nothing after the last mark. -/
theorem splitOn_ended {α : Type} [BEq α] [LawfulBEq α] {mark : α}
    {lines : List (List α)} (h : ∀ line ∈ lines, mark ∉ line) :
    (lines.flatMap fun line => line ++ [mark]).splitOn mark =
      lines ++ [[]] := by
  induction lines with
  | nil => rfl
  | cons line rest ih =>
      obtain ⟨hline, hrest⟩ := List.forall_mem_cons.1 h
      have hclean : ∀ x ∈ line, (x == mark) = false := by
        intro x hx
        rw [beq_eq_false_iff_ne]
        rintro rfl
        exact hline hx
      rw [List.flatMap_cons, List.append_assoc, List.singleton_append,
        List.splitOn, List.splitOnP_append_cons_of_forall_mem hclean mark
          (beq_self_eq_true mark)]
      rw [List.cons_append, ← ih hrest, List.splitOn]

/-- The bytes of a text that is put together from lines, split at the byte of
the newline. -/
theorem splitOn_bytes_ended {lines : List (List Char)}
    (h : ∀ line ∈ lines, '\n' ∉ line) :
    (bytes (String.ofList
        (lines.flatMap fun line => line ++ ['\n']))).splitOn newlineByte =
      (lines.map fun line => bytes (String.ofList line)) ++ [[]] := by
  have hbytes : bytes (String.ofList
        (lines.flatMap fun line => line ++ ['\n'])) =
      (lines.map fun line => bytes (String.ofList line)).flatMap
        fun line => line ++ [newlineByte] := by
    rw [List.flatMap_map, bytes, String.toList_ofList, List.flatMap_assoc]
    simp [bytes, utf8EncodeChar_newline]
  rw [hbytes]
  refine splitOn_ended fun line hline => ?_
  obtain ⟨text, htext, rfl⟩ := List.mem_map.1 hline
  refine newlineByte_not_mem_bytes ?_
  rw [String.toList_ofList]
  exact h text htext

end CallGate.Text
