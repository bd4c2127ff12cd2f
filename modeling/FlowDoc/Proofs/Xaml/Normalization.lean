import FlowDoc.Proofs.Text.Words
import FlowDoc.Proofs.Xaml.Space

/-!
# Collapsing and normalising

A writer collapses white space as Unicode has it, a reader of markup normalises only what markup calls white space.
Both join words with single spaces, so they agree on a text exactly if all its white space is markup's
(**`collapse_normalizes_iff`**). A no-break space is not: it ends a word for the writer and is a letter to the reader
(`noBreakSpace_collapsed`).
-/

namespace FlowDoc.Xaml

open Text (isSpace isMarkupSpace collapse joinWords joinBehind ink)

/-- Normalising a whole content joins its words; a text behind something keeps one space in front. -/
theorem normalizeChars_eq_join (cs : List Char) :
    normalizeChars true true cs = joinWords isMarkupSpace cs ∧
      normalizeChars true false cs = joinBehind isMarkupSpace cs := by
  induction cs with
  | nil => exact ⟨rfl, rfl⟩
  | cons c cs ih =>
    cases hc : isMarkupSpace c with
    | true =>
      rw [Text.joinWords_cons_of_space hc, Text.joinBehind_cons_of_space hc, Text.isEmpty_joinWords]
      cases blank : cs.all isMarkupSpace with
      | true =>
        have none : joinWords isMarkupSpace cs = [] := by
          simpa [blank] using Text.isEmpty_joinWords (p := isMarkupSpace) cs
        simp [normalizeChars, hc, ih.1, blank, none]
      | false => simp [normalizeChars, hc, ih.1, blank]
    | false =>
      rw [Text.joinWords_cons_of_letter hc, Text.joinBehind_cons_of_letter hc]
      simp [normalizeChars, hc, ih.2]

/-- What markup does not call white space stays. -/
theorem mem_normalizeChars {c : Char} (hc : isMarkupSpace c = false) {beforeEnd : Bool} :
    ∀ {afterSpace : Bool} {cs : List Char}, c ∈ cs → c ∈ normalizeChars beforeEnd afterSpace cs
  | afterSpace, d :: cs, h => by
    rw [normalizeChars]
    rcases List.mem_cons.mp h with rfl | h
    · simp [hc]
    · have later : ∀ after, c ∈ normalizeChars beforeEnd after cs := fun _ => mem_normalizeChars hc h
      split
      · exact List.mem_append_right _ (later true)
      · exact List.mem_cons_of_mem _ (later false)

/-- **Collapsing and normalising.** A collapsed text has the letters of the text, and of white space only spaces, where
white space is what Unicode calls so. It is the normalised text exactly if markup calls all of that white space. -/
theorem collapse_normalizes_iff (s : String) :
    ink (collapse s) = ink s ∧ (∀ c ∈ (collapse s).toList, isSpace c = true → c = ' ') ∧
      ((collapse s).toList = normalizeChars true true s.toList ↔
        ∀ c ∈ s.toList, isSpace c = true → isMarkupSpace c = true) := by
  have gap : Text.gapText .collapse true true s = collapse s := by
    apply String.toList_inj.mp
    rw [Text.collapse_eq]
    simp [Text.gapText]
  have letters := Text.ink_gapText .collapse true true s
  have spaces : ∀ c ∈ (collapse s).toList, isSpace c = true → c = ' ' := by
    intro c hc space
    rw [← gap] at hc
    exact Text.eq_space_of_mem_gapText space hc
  rw [gap] at letters
  refine ⟨letters, spaces, fun same c hc space => ?_, fun agree => ?_⟩
  · -- what markup keeps is no space, so it is not among what is collapsed
    by_contra other
    have letter : isMarkupSpace c = false := by simpa using other
    have kept : c ∈ normalizeChars true true s.toList := mem_normalizeChars letter hc
    rw [← same] at kept
    obtain rfl := spaces c kept space
    exact absurd letter (by decide)
  · have classes : ∀ c ∈ s.toList, isSpace c = isMarkupSpace c := by
      intro c hc
      cases hs : isSpace c with
      | true => rw [agree c hc hs]
      | false => rw [isMarkupSpace_of_isSpace hs]
    rw [Text.collapse_eq_joinWords, (normalizeChars_eq_join s.toList).1, joinWords, Text.words_congr classes, joinWords]

/-- A tab and a space are normalised to what they are collapsed to. -/
theorem collapse_normalizes_iff_tab :
    ' ' ∈ (collapse "a\t b").toList ∧ isSpace ' ' = true ∧ ink (collapse "a\t b") = ink "a\t b" ∧
      (collapse "a\t b").toList = normalizeChars true true "a\t b".toList := by
  obtain ⟨letters, -, agree⟩ := collapse_normalizes_iff "a\t b"
  exact ⟨by decide, by decide, letters, agree.mpr (by simp [isSpace, isMarkupSpace])⟩

/-- A no-break space between two letters becomes a space, and two of them one; a reader keeps both. -/
theorem noBreakSpace_collapsed :
    collapse "a\u00a0\u00a0b" = "a b" ∧
      normalizeChars true true "a\u00a0\u00a0b".toList = "a\u00a0\u00a0b".toList := by
  decide

end FlowDoc.Xaml
