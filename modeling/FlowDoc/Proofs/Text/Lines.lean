import FlowDoc.Document

/-!
# Lines

The lines of a text, with line feeds between them, are the text (`intercalate_linesOf`); none of them has a line feed in
it, so there is one more of them than the text has line feeds. A block of code has the lines of its literal, without one
line feed at the end of that (`ofLiteral_eq`).
-/

namespace FlowDoc

/-- What is joined as texts is joined as characters. -/
theorem Text.toList_intercalate_ofList (separator : String) (parts : List (List Char)) :
    (separator.intercalate (parts.map String.ofList)).toList = separator.toList.intercalate parts := by
  have back : String.toList ∘ String.ofList = id := funext fun _ => String.toList_ofList
  rw [String.toList_intercalate, List.map_map, back, List.map_id]

namespace Block

/-- The lines of a text with the line feeds between them. -/
theorem intercalate_linesOf (text : List Char) :
    "\n".intercalate ((linesOf text).map String.ofList) = String.ofList text := by
  rw [← String.toList_inj, Text.toList_intercalate_ofList]
  cases text with
  | nil => rfl
  | cons c cs => exact (List.intercalate_splitOn '\n').trans String.toList_ofList.symm

/-- Splitting a text one character further. -/
theorem splitOn_newline_cons (c : Char) (cs : List Char) :
    (c :: cs).splitOn '\n' =
      if c = '\n' then [] :: cs.splitOn '\n' else (cs.splitOn '\n').modifyHead (c :: ·) := by
  simp [List.splitOn_eq_splitOnP, List.splitOnP_cons_eq_if_modifyHead]

theorem newline_not_mem_splitOn {cs line : List Char} (h : line ∈ cs.splitOn '\n') : '\n' ∉ line := by
  induction cs generalizing line with
  | nil => simp_all
  | cons c cs ih =>
    rw [splitOn_newline_cons] at h
    split at h
    · rcases List.mem_cons.mp h with rfl | h
      · simp
      · exact ih h
    · next other =>
      cases hs : cs.splitOn '\n' with
      | nil => simp [hs] at h
      | cons l ls =>
        rw [hs] at h ih
        rcases List.mem_cons.mp h with rfl | h
        · simp [Ne.symm other, ih List.mem_cons_self]
        · exact ih (List.mem_cons_of_mem l h)

theorem length_splitOn_newline (cs : List Char) : (cs.splitOn '\n').length = cs.count '\n' + 1 := by
  induction cs with
  | nil => rfl
  | cons c cs ih =>
    rw [splitOn_newline_cons, List.count_cons]
    split
    · next same => simp [same, ih]
    · next other => simp [other, ih]

/-- No line has a line feed in it. -/
theorem newline_not_mem_linesOf {text line : List Char} (h : line ∈ linesOf text) : '\n' ∉ line := by
  cases text with
  | nil => cases h
  | cons c cs => exact newline_not_mem_splitOn h

/-- There is a line feed in front of every line but the first. -/
theorem length_tail_linesOf (text : List Char) : (linesOf text).tail.length = text.count '\n' := by
  cases text with
  | nil => rfl
  | cons c cs =>
    have split : linesOf (c :: cs) = (c :: cs).splitOn '\n' := rfl
    rw [split, List.length_tail, length_splitOn_newline, Nat.add_sub_cancel]

/-- The lines of a literal, of which one final line feed is dropped. -/
theorem ofLiteral_eq (literal : String) :
    ∃ text : String, (literal = text ++ "\n" ∨ literal = text ∧ literal.toList.getLast? ≠ some '\n') ∧
      ∀ info, ofLiteral info literal = codeBlock info ((linesOf text.toList).map String.ofList) := by
  by_cases ends : literal.toList.getLast? = some '\n'
  · obtain ⟨cs, hcs⟩ := List.getLast?_eq_some_iff.mp ends
    refine ⟨String.ofList cs, Or.inl ?_, fun info => by simp [ofLiteral, hcs]⟩
    rw [← String.toList_inj, hcs]
    simp
  · exact ⟨literal, Or.inr ⟨rfl, ends⟩, fun info => by simp [ofLiteral, ends]⟩

end Block

end FlowDoc
