import FlowDoc.Proofs.Text.Flow

/-!
# Ink

The ink of a text is what is left of it without its white space. Squeezing and trimming take away nothing else
(`ink_gapText`), so whatever a collection does with the white space of its flow, it holds the ink of the flow, in order
(**`ink_layout`**). Children are read by a function of their own.
-/

namespace FlowDoc.Text

/-- The characters of a text that are no white space. -/
def inkOf (cs : List Char) : List Char := cs.filter (!isSpace ·)

/-- The text without its white space. -/
def ink (s : String) : List Char := inkOf s.toList

@[simp] theorem ink_empty : ink "" = [] := rfl

@[simp] theorem ink_append (s t : String) : ink (s ++ t) = ink s ++ ink t := by simp [ink, inkOf]

theorem ink_ofList (cs : List Char) : ink (String.ofList cs) = inkOf cs := by simp [ink]

/-! ## What collapsing takes away -/

theorem inkOf_cons_of_isSpace {c : Char} (h : isSpace c = true) (cs : List Char) : inkOf (c :: cs) = inkOf cs := by
  simp [inkOf, h]

theorem inkOf_cons_of_not {c : Char} (h : isSpace c = false) (cs : List Char) : inkOf (c :: cs) = c :: inkOf cs := by
  simp [inkOf, h]

theorem inkOf_spaced (cs : List Char) : inkOf (spaced cs) = inkOf cs := by
  unfold spaced
  split
  · rfl
  · exact inkOf_cons_of_isSpace isSpace_space cs

theorem inkOf_squeeze (cs : List Char) : inkOf (squeeze cs) = inkOf cs := by
  induction cs with
  | nil => rfl
  | cons c cs ih =>
    cases hc : isSpace c with
    | true => rw [squeeze_cons_of_isSpace hc, inkOf_spaced, inkOf_cons_of_isSpace hc, ih]
    | false => rw [squeeze_cons_of_not hc, inkOf_cons_of_not hc, inkOf_cons_of_not hc, ih]

theorem inkOf_trimLeft (cs : List Char) : inkOf (trimLeft isSpace cs) = inkOf cs := by
  induction cs with
  | nil => rfl
  | cons c cs ih =>
    cases hc : isSpace c with
    | true =>
      have step : trimLeft isSpace (c :: cs) = trimLeft isSpace cs := by simp [trimLeft, hc]
      rw [step, ih, inkOf_cons_of_isSpace hc]
    | false => simp [trimLeft, hc]

theorem inkOf_reverse (cs : List Char) : inkOf cs.reverse = (inkOf cs).reverse := by simp [inkOf]

theorem inkOf_trimRight (cs : List Char) : inkOf (trimRight isSpace cs) = inkOf cs := by
  have left : inkOf (cs.reverse.dropWhile isSpace) = inkOf cs.reverse := inkOf_trimLeft cs.reverse
  rw [trimRight, inkOf_reverse, left, inkOf_reverse, List.reverse_reverse]

/-- A gap keeps its ink, wherever it stands. -/
theorem ink_gapText (mode : SpaceMode) (first last : Bool) (s : String) : ink (gapText mode first last s) = ink s := by
  cases mode with
  | preserve => rfl
  | collapse =>
    have trimmed : ∀ cs : List Char, inkOf (if first then trimLeft isSpace cs else cs) = inkOf cs := by
      intro cs
      cases first with
      | true => exact inkOf_trimLeft cs
      | false => rfl
    have squeezed : inkOf (if first then trimLeft isSpace (squeeze s.toList) else squeeze s.toList) = inkOf s.toList :=
      (trimmed _).trans (inkOf_squeeze _)
    rw [gapText, ink_ofList, ink]
    cases last with
    | true => exact (inkOf_trimRight _).trans squeezed
    | false => exact squeezed

/-! ## What collapsing leaves -/

theorem eq_space_of_mem_squeeze {c : Char} (hc : isSpace c = true) : ∀ {cs : List Char}, c ∈ squeeze cs → c = ' '
  | d :: cs, h => by
    cases hd : isSpace d with
    | true =>
      rw [squeeze_cons_of_isSpace hd, spaced] at h
      split at h
      · exact eq_space_of_mem_squeeze hc h
      · exact (List.mem_cons.mp h).elim id (eq_space_of_mem_squeeze hc)
    | false =>
      rw [squeeze_cons_of_not hd] at h
      rcases List.mem_cons.mp h with rfl | h
      · simp [hc] at hd
      · exact eq_space_of_mem_squeeze hc h

/-- The only white space in a collapsed gap is the space. -/
theorem eq_space_of_mem_gapText {c : Char} (hc : isSpace c = true) {first last : Bool} {s : String}
    (h : c ∈ (gapText .collapse first last s).toList) : c = ' ' := by
  have left : ∀ {cs : List Char}, c ∈ (if first then trimLeft isSpace cs else cs) → c ∈ cs := by
    intro cs h
    split at h
    · exact (List.dropWhile_sublist _).subset h
    · exact h
  have right : ∀ {cs : List Char}, c ∈ trimRight isSpace cs → c ∈ cs := by
    intro cs h
    exact List.mem_reverse.mp ((List.dropWhile_sublist _).subset (List.mem_reverse.mp h))
  have squeezed : c ∈ squeeze s.toList := by
    rw [gapText, String.toList_ofList] at h
    cases last with
    | true => exact left (right h)
    | false => exact left h
  exact eq_space_of_mem_squeeze hc squeezed

/-! ## Flows -/

section Reading

variable {ι : Type} (view : ι → String)

/-- An entry of a flow as text; a child as it is read. -/
def Flow.read : Flow ι → String
  | .text s => s
  | .child c => view c

/-- An entry of a collection as text. -/
def Laid.read : Laid ι → String
  | .piece p => p.text
  | .child c => view c

/-- All of a flow as text. -/
def flowText (flow : List (Flow ι)) : String := String.join (flow.map (·.read view))

/-- All that a collection holds as text. -/
def laidText (items : List (Laid ι)) : String := String.join (items.map (·.read view))

@[simp] theorem flowText_nil : flowText view [] = "" := rfl

@[simp] theorem flowText_cons (f : Flow ι) (fs : List (Flow ι)) :
    flowText view (f :: fs) = f.read view ++ flowText view fs := by
  simp [flowText]

@[simp] theorem flowText_append (fs gs : List (Flow ι)) :
    flowText view (fs ++ gs) = flowText view fs ++ flowText view gs := by
  simp [flowText]

theorem laidText_append (is js : List (Laid ι)) : laidText view (is ++ js) = laidText view is ++ laidText view js := by
  simp [laidText]

theorem laidText_child (c : ι) (is : List (Laid ι)) : laidText view (.child c :: is) = view c ++ laidText view is := by
  simp [laidText, Laid.read]

theorem laidText_gapPiece (mode : SpaceMode) (first last : Bool) (s : String) :
    laidText view (laidPieces (gapPiece mode first last s)) = gapText mode first last s := by
  generalize hg : gapText mode first last s = t
  by_cases he : t = ""
  · simp [laidText, laidPieces, gapPiece, hg, pieceOf, he]
  · cases mode <;> simp [laidText, laidPieces, gapPiece, hg, pieceOf, he, Laid.read, Piece.text]

theorem ink_layoutFrom (mode : SpaceMode) (first : Bool) (gap : String) (flow : List (Flow ι)) :
    ink (laidText view (layoutFrom mode first gap flow)) = ink gap ++ ink (flowText view flow) := by
  induction flow generalizing first gap with
  | nil =>
    rw [layoutFrom, laidText_gapPiece, ink_gapText]
    simp
  | cons f flow ih =>
    cases f with
    | text s =>
      rw [layoutFrom, ih]
      simp [Flow.read]
    | child c =>
      rw [layoutFrom, laidText_append, laidText_gapPiece, laidText_child]
      simp [ink_gapText, ih, Flow.read]

/-- **A collection holds the ink of its flow.** -/
theorem ink_layout (mode : SpaceMode) (flow : List (Flow ι)) :
    ink (laidText view (layout mode flow)) = ink (flowText view flow) := by
  rw [layout, ink_layoutFrom, ink_empty, List.nil_append]

end Reading

end FlowDoc.Text
