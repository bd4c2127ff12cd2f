import FlowDoc.Text.Buffer
import Mathlib.Data.List.Chain

/-!
# Text between children

What is written into a collection is a `Flow`: texts, and children that are no text. `layout` says what a flow becomes:
the texts between two children, or between a child and an edge, are one gap, and a gap is one piece or nothing. In a
gap that collapses, `squeeze` makes one space of every run of white space, and none is left at the edges of the
collection.

A buffer that is filled with the texts and taken at each child gives this layout (`Gathers`, with one lemma for each
thing that can come next: `Gathers.text`, `Gathers.child`, `Gathers.close`), and with a mark in the place of every
child a collapsed flow reads as `collapse` of the marked text (`join_marked_layout`).
-/

namespace FlowDoc.Text

/-- What is written into a collection, one thing after the other. -/
inductive Flow (ι : Type)
  | text (s : String)
  | child (c : ι)

/-- What a collection holds. -/
inductive Laid (ι : Type)
  | piece (p : Piece)
  | child (c : ι)

/-- A text with a space at its start, if there is none yet. -/
def spaced (cs : List Char) : List Char := if cs.head? = some ' ' then cs else ' ' :: cs

/-- A text with one space for every run of white space. -/
def squeeze : List Char → List Char
  | [] => []
  | c :: cs => if isSpace c then spaced (squeeze cs) else c :: squeeze cs

/-- The text of a gap; `first` and `last` say that the gap is at the start or at the end of its collection. -/
def gapText (mode : SpaceMode) (first last : Bool) (s : String) : String :=
  match mode with
  | .preserve => s
  | .collapse =>
    let cs := squeeze s.toList
    let cs := if first then trimLeft isSpace cs else cs
    String.ofList (if last then trimRight isSpace cs else cs)

/-- A text as a piece, if it is not empty. -/
def pieceOf (mode : SpaceMode) (s : String) : Option Piece :=
  if s.isEmpty then none
  else some (match mode with
    | .preserve => .verbatim s
    | .collapse => .value s)

/-- The piece that a gap becomes. -/
def gapPiece (mode : SpaceMode) (first last : Bool) (s : String) : Option Piece :=
  pieceOf mode (gapText mode first last s)

/-- A piece among what a collection holds. -/
def laidPieces {ι : Type} (p : Option Piece) : List (Laid ι) := p.toList.map .piece

/-- What becomes of a flow that comes after the text `gap` and, unless that is the first, after a child. -/
def layoutFrom {ι : Type} (mode : SpaceMode) (first : Bool) (gap : String) : List (Flow ι) → List (Laid ι)
  | [] => laidPieces (gapPiece mode first true gap)
  | .text s :: rest => layoutFrom mode first (gap ++ s) rest
  | .child c :: rest => laidPieces (gapPiece mode first false gap) ++ .child c :: layoutFrom mode false "" rest

/-- What a collection with a flow holds. -/
def layout {ι : Type} (mode : SpaceMode) (flow : List (Flow ι)) : List (Laid ι) := layoutFrom mode true "" flow

/-! ## Gaps -/

/-- A flow without what its children are. -/
def Flow.erase {ι : Type} : Flow ι → Flow Unit
  | .text s => .text s
  | .child _ => .child ()

/-- The text at the start of a flow, and each child with the text after it. -/
def gaps {ι : Type} : List (Flow ι) → String × List (ι × String)
  | [] => ("", [])
  | .text s :: rest => (s ++ (gaps rest).1, (gaps rest).2)
  | .child c :: rest => ("", (c, (gaps rest).1) :: (gaps rest).2)

theorem layoutFrom_preserve {ι : Type} (first : Bool) (gap : String) (flow : List (Flow ι)) :
    layoutFrom .preserve first gap flow = laidPieces (pieceOf .preserve (gap ++ (gaps flow).1)) ++
      (gaps flow).2.flatMap fun c => .child c.1 :: laidPieces (pieceOf .preserve c.2) := by
  induction flow generalizing first gap with
  | nil => simp [layoutFrom, gaps, gapPiece, gapText]
  | cons f flow ih =>
    cases f with
    | text s => simp only [layoutFrom, gaps, ih, String.append_assoc]
    | child c => simp [layoutFrom, gaps, ih, gapPiece, gapText]

/-- **Flows that are preserved.** Each gap is one verbatim piece, or nothing if it is empty. -/
theorem layout_preserve {ι : Type} (flow : List (Flow ι)) :
    layout .preserve flow = laidPieces (pieceOf .preserve (gaps flow).1) ++
      (gaps flow).2.flatMap fun c => .child c.1 :: laidPieces (pieceOf .preserve c.2) := by
  rw [layout, layoutFrom_preserve, String.empty_append]

theorem child_mem_of_layoutFrom {ι : Type} {mode : SpaceMode} {c : ι} : ∀ {flow : List (Flow ι)} {first : Bool}
    {gap : String}, Laid.child c ∈ layoutFrom mode first gap flow → Flow.child c ∈ flow
  | [], first, gap, h => by simp [layoutFrom, laidPieces] at h
  | .text s :: flow, first, gap, h => List.mem_cons_of_mem _ (child_mem_of_layoutFrom h)
  | .child d :: flow, first, gap, h => by
    have here : c = d ∨ Laid.child c ∈ layoutFrom mode false "" flow := by simpa [layoutFrom, laidPieces] using h
    rcases here with rfl | rest
    · exact List.mem_cons_self
    · exact List.mem_cons_of_mem _ (child_mem_of_layoutFrom rest)

/-- What is laid out as a child is a child of the flow. -/
theorem child_mem_of_layout {ι : Type} {mode : SpaceMode} {flow : List (Flow ι)} {c : ι}
    (h : Laid.child c ∈ layout mode flow) : Flow.child c ∈ flow :=
  child_mem_of_layoutFrom h

theorem text_ne_of_mem_layoutFrom {ι : Type} {mode : SpaceMode} {p : Piece} {first : Bool} {gap : String}
    {flow : List (Flow ι)} (h : Laid.piece p ∈ layoutFrom mode first gap flow) : p.text ≠ "" := by
  have piece : ∀ {f l t}, (Laid.piece p : Laid ι) ∈ laidPieces (gapPiece mode f l t) → p.text ≠ "" := by
    intro f l t hp
    obtain ⟨_, hp, same⟩ := List.mem_map.mp hp
    cases same
    simp only [Option.mem_toList, gapPiece, pieceOf] at hp
    split at hp
    · cases hp
    · next full =>
      cases hp
      cases mode <;> simpa [Piece.text, String.isEmpty_iff] using full
  induction flow generalizing first gap with
  | nil => exact piece h
  | cons f flow ih =>
    cases f with
    | text t => exact ih h
    | child c =>
      rw [layoutFrom, List.mem_append, List.mem_cons] at h
      rcases h with h | h | h
      · exact piece h
      · cases h
      · exact ih h

/-- No piece that is laid out is empty. -/
theorem text_ne_of_mem_layout {ι : Type} {mode : SpaceMode} {p : Piece} {flow : List (Flow ι)}
    (h : Laid.piece p ∈ layout mode flow) : p.text ≠ "" :=
  text_ne_of_mem_layoutFrom h

theorem layoutFrom_children {ι : Type} (mode : SpaceMode) (first : Bool) (cs : List ι) :
    layoutFrom mode first "" (cs.map .child) = cs.map .child := by
  have empty : ∀ first last, gapPiece mode first last "" = none := by
    intro first last
    cases mode <;> cases first <;> cases last <;> rfl
  induction cs generalizing first with
  | nil => simp [layoutFrom, empty, laidPieces]
  | cons c cs ih => simp [layoutFrom, empty, laidPieces, ih]

/-- Without text there are only the children. -/
theorem layout_children {ι : Type} (mode : SpaceMode) (cs : List ι) : layout mode (cs.map .child) = cs.map .child :=
  layoutFrom_children mode true cs

/-- Whether all children of a flow have a property. -/
def AllChildren {ι : Type} (P : ι → Prop) (flow : List (Flow ι)) : Prop := ∀ c, Flow.child c ∈ flow → P c

namespace AllChildren

variable {ι : Type} {P : ι → Prop} {flow flow' : List (Flow ι)}

theorem nil : AllChildren P [] := fun _ hc => absurd hc List.not_mem_nil

theorem append (h : AllChildren P flow) (h' : AllChildren P flow') : AllChildren P (flow ++ flow') :=
  fun c hc => (List.mem_append.mp hc).elim (h c) (h' c)

theorem text (s : String) : AllChildren P [.text s] := fun _ hc => by simp at hc

theorem child {c : ι} (h : P c) : AllChildren P [.child c] := by
  intro d hd
  obtain rfl : d = c := by simpa using hd
  exact h

end AllChildren

/-! ## Squeezed text -/

theorem isSpace_space : isSpace ' ' = true := by decide

theorem ne_space_of_not {c : Char} (h : isSpace c = false) : c ≠ ' ' := by
  rintro rfl
  simp [isSpace_space] at h

@[simp] theorem spaced_spaced (cs : List Char) : spaced (spaced cs) = spaced cs := by
  by_cases h : cs.head? = some ' ' <;> simp [spaced, h]

theorem trimLeft_spaced (cs : List Char) : trimLeft isSpace (spaced cs) = trimLeft isSpace cs := by
  by_cases h : cs.head? = some ' ' <;> simp [spaced, h, trimLeft, isSpace_space]

theorem spaced_append_cons {k : Char} (hk : isSpace k = false) (as bs : List Char) :
    spaced (as ++ k :: bs) = spaced as ++ k :: bs := by
  have hne := ne_space_of_not hk
  cases as with
  | nil => simp [spaced, hne]
  | cons a as => by_cases h : a = ' ' <;> simp [spaced, h]

theorem squeeze_cons_of_not {c : Char} (h : isSpace c = false) (cs : List Char) :
    squeeze (c :: cs) = c :: squeeze cs := by
  simp [squeeze, h]

theorem squeeze_cons_of_isSpace {c : Char} (h : isSpace c = true) (cs : List Char) :
    squeeze (c :: cs) = spaced (squeeze cs) := by
  simp [squeeze, h]

/-- A character that is no white space cuts a text in two. -/
theorem squeeze_append_cons {k : Char} (hk : isSpace k = false) (as bs : List Char) :
    squeeze (as ++ k :: bs) = squeeze as ++ k :: squeeze bs := by
  induction as with
  | nil => exact squeeze_cons_of_not hk bs
  | cons a as ih =>
    cases ha : isSpace a with
    | false => rw [List.cons_append, squeeze_cons_of_not ha, squeeze_cons_of_not ha, ih, List.cons_append]
    | true =>
      rw [List.cons_append, squeeze_cons_of_isSpace ha, squeeze_cons_of_isSpace ha, ih, spaced_append_cons hk]

theorem trimLeft_append_cons {p : Char → Bool} {k : Char} (hk : p k = false) (as bs : List Char) :
    trimLeft p (as ++ k :: bs) = trimLeft p as ++ k :: bs := by
  induction as with
  | nil => simp [trimLeft, hk]
  | cons a as ih =>
    simp only [trimLeft] at ih
    cases ha : p a <;> simp [trimLeft, ha, ih]

theorem trimRight_append_cons {p : Char → Bool} {k : Char} (hk : p k = false) (as bs : List Char) :
    trimRight p (as ++ k :: bs) = as ++ k :: trimRight p bs := by
  have := trimLeft_append_cons hk bs.reverse as.reverse
  simp only [trimLeft] at this
  simp [trimRight, this]

/-! ## A buffer in a gap -/

namespace Buffer

/-- An empty buffer of a mode at the start of a gap. What a buffer that preserves knows of its start is not looked at. -/
structure AtGap (b : Buffer) (mode : SpaceMode) (first : Bool) : Prop where
  text : b.text = ""
  spaceDue : b.spaceDue = false
  atStart : mode = .collapse → b.atStart = first
  mode : b.mode = mode

theorem atGap_empty (mode : SpaceMode) : (empty mode).AtGap mode true := ⟨rfl, rfl, fun _ => rfl, rfl⟩

/-- A collapsing buffer's text with the space that is due. -/
def dueText (b : Buffer) : List Char := b.text.toList ++ (if b.spaceDue then [' '] else [])

/-- The text of a collapsing buffer does not end in white space, and no space is due at its start. -/
structure IsTight (b : Buffer) : Prop where
  last : ∀ c ∈ b.text.toList.getLast?, isSpace c = false
  start : b.atStart = true → b.text = "" ∧ b.spaceDue = false

theorem IsTight.push {b : Buffer} (hm : b.mode = .collapse) (h : b.IsTight) (c : Char) : (b.push c).IsTight := by
  cases hc : isSpace c with
  | true =>
    cases hs : b.atStart with
    | true => simpa [Buffer.push, hm, hc, hs] using h
    | false => exact ⟨by simpa [Buffer.push, hm, hc, hs] using h.last, by simp [Buffer.push, hm, hc, hs]⟩
  | false =>
    refine ⟨?_, by simp [Buffer.push, hm, hc]⟩
    simp [Buffer.push, hm, hc]

/-- What text adds to a collapsing buffer: its squeezed form, without white space at the start of the collection, and
merged with a space that was due. -/
theorem dueText_pushes {b : Buffer} (hm : b.mode = .collapse) (h : b.IsTight) (cs : List Char) :
    (cs.foldl Buffer.push b).IsTight ∧ (cs.foldl Buffer.push b).dueText =
      b.text.toList ++
        (if b.atStart then trimLeft isSpace (squeeze cs)
         else if b.spaceDue then spaced (squeeze cs) else squeeze cs) := by
  induction cs generalizing b with
  | nil =>
    refine ⟨h, ?_⟩
    cases hs : b.atStart with
    | true => simp [dueText, (h.start hs).2, squeeze, trimLeft]
    | false => cases hd : b.spaceDue <;> simp [dueText, hd, squeeze, spaced]
  | cons c cs ih =>
    obtain ⟨tight, due⟩ := ih (b := b.push c) (by rw [push_mode, hm]) (h.push hm c)
    refine ⟨tight, ?_⟩
    rw [List.foldl_cons, due]
    cases hc : isSpace c with
    | true =>
      rw [squeeze_cons_of_isSpace hc]
      cases hs : b.atStart with
      | true => simp [Buffer.push, hm, hc, hs, trimLeft_spaced]
      | false => cases hd : b.spaceDue <;> simp [Buffer.push, hm, hc, hs]
    | false =>
      rw [squeeze_cons_of_not hc]
      cases hs : b.atStart with
      | true => simp [Buffer.push, hm, hc, h.start hs, trimLeft]
      | false =>
        have hne := ne_space_of_not hc
        cases hd : b.spaceDue <;> simp [Buffer.push, hm, hc, hd, spaced, hne]

theorem AtGap.isTight {b : Buffer} {mode : SpaceMode} {first : Bool} (h : b.AtGap mode first) : b.IsTight :=
  ⟨by simp [h.text], fun _ => ⟨h.text, h.spaceDue⟩⟩

/-- A buffer that preserves keeps every character. -/
theorem pushes_preserve {b : Buffer} (hm : b.mode = .preserve) (cs : List Char) :
    cs.foldl Buffer.push b = { b with text := String.ofList (b.text.toList ++ cs) } := by
  induction cs generalizing b with
  | nil => simp
  | cons c cs ih =>
    have step : b.push c = { b with text := b.text.push c } := by simp [Buffer.push, hm]
    rw [List.foldl_cons, step, ih (by exact hm)]
    simp

theorem trimRight_of_tight {cs : List Char} (h : ∀ c ∈ cs.getLast?, isSpace c = false) (due : Bool) :
    trimRight isSpace (cs ++ (if due then [' '] else [])) = cs := by
  have tight : trimRight isSpace cs = cs := by
    rcases List.eq_nil_or_concat cs with rfl | ⟨cs, c, rfl⟩
    · rfl
    · have hc : isSpace c = false := h c (by simp)
      simp [trimRight, hc]
  cases due with
  | false => simpa using tight
  | true => simpa [trimRight, isSpace_space] using tight

/-- **Taking a gap.** What is taken from a buffer that was filled in a gap is the piece of that gap. -/
theorem take_pushAll {b : Buffer} {mode : SpaceMode} {first : Bool} (h : b.AtGap mode first) (gap : String)
    (sibling : Bool) : ((b.pushAll gap).take sibling).1 = gapPiece mode first (!sibling) gap := by
  cases mode with
  | preserve =>
    have hp := pushes_preserve h.mode gap.toList
    rw [h.text] at hp
    simp [pushAll, hp, take, h.mode, gapPiece, gapText, pieceOf]
  | collapse =>
    obtain ⟨tight, due⟩ := dueText_pushes h.mode h.isTight gap.toList
    have hm : (b.pushAll gap).mode = .collapse := by rw [pushAll_mode, h.mode]
    rw [h.text, h.spaceDue, h.atStart rfl] at due
    change (b.pushAll gap).IsTight at tight
    change (b.pushAll gap).dueText = _ at due
    have taken : (if sibling && (b.pushAll gap).spaceDue then (b.pushAll gap).text.push ' ' else (b.pushAll gap).text)
        = gapText .collapse first (!sibling) gap := by
      apply String.toList_inj.mp
      have full : (if first then trimLeft isSpace (squeeze gap.toList) else squeeze gap.toList)
          = (b.pushAll gap).dueText := by rw [due]; simp
      cases sibling with
      | true =>
        simp only [gapText, full, Bool.true_and, Bool.not_true]
        cases hd : (b.pushAll gap).spaceDue <;> simp [dueText, hd]
      | false =>
        simp only [gapText, full, Bool.false_and, Bool.not_false, if_true, dueText]
        simp [trimRight_of_tight tight.last]
    simp only [take, hm, taken]
    rfl

/-- Taking before a child leaves the buffer at the start of the next gap. -/
theorem atGap_take {b : Buffer} {mode : SpaceMode} (hm : b.mode = mode) (hd : mode = .preserve → b.spaceDue = false) :
    (b.take true).2.AtGap mode false := by
  subst hm
  cases hm : b.mode with
  | collapse => constructor <;> simp [take, hm]
  | preserve => constructor <;> simp [take, hm, hd hm]

end Buffer

/-! ## Flows that come bit by bit -/

section Gathering

variable {ι : Type} {mode : SpaceMode}

/-- What a flow became so far: `items` are laid out, and the buffer holds the texts of the gap at its end. -/
def Gathers (mode : SpaceMode) (flow : List (Flow ι)) (items : List (Laid ι)) (b : Buffer) : Prop :=
  ∃ first gap start, Buffer.AtGap start mode first ∧ b = start.pushAll gap ∧
    ∀ more, layout mode (flow ++ more) = items ++ layoutFrom mode first gap more

theorem Gathers.nil (mode : SpaceMode) : Gathers mode ([] : List (Flow ι)) [] (Buffer.empty mode) :=
  ⟨true, "", _, Buffer.atGap_empty mode, by simp, fun _ => rfl⟩

theorem Gathers.mode_eq {flow : List (Flow ι)} {items : List (Laid ι)} {b : Buffer} (h : Gathers mode flow items b) :
    b.mode = mode := by
  obtain ⟨_, gap, start, hs, rfl, _⟩ := h
  rw [Buffer.pushAll_mode, hs.mode]

/-- A text goes into the buffer. -/
theorem Gathers.text {flow : List (Flow ι)} {items : List (Laid ι)} {b : Buffer} (h : Gathers mode flow items b)
    (s : String) : Gathers mode (flow ++ [.text s]) items (b.pushAll s) := by
  obtain ⟨first, gap, start, hs, rfl, hl⟩ := h
  refine ⟨first, gap ++ s, start, hs, (Buffer.pushAll_append _ _ _).symm, fun more => ?_⟩
  rw [List.append_assoc, hl]
  rfl

/-- A child ends the gap; what is in the buffer afterwards belongs to the next one. -/
theorem Gathers.child {flow : List (Flow ι)} {items : List (Laid ι)} {b b' : Buffer} (h : Gathers mode flow items b)
    (c : ι) (hb : b'.AtGap mode false) :
    Gathers mode (flow ++ [.child c]) (items ++ laidPieces (b.take true).1 ++ [.child c]) b' := by
  obtain ⟨first, gap, start, hs, rfl, hl⟩ := h
  refine ⟨false, "", b', hb, by simp, fun more => ?_⟩
  rw [List.append_assoc, hl, Buffer.take_pushAll hs]
  simp [layoutFrom]

/-- At the end the last gap is taken. -/
theorem Gathers.close {flow : List (Flow ι)} {items : List (Laid ι)} {b : Buffer} (h : Gathers mode flow items b) :
    layout mode flow = items ++ laidPieces (b.take false).1 := by
  obtain ⟨first, gap, start, hs, rfl, hl⟩ := h
  have := hl []
  rw [List.append_nil] at this
  rw [this, Buffer.take_pushAll hs]
  rfl

end Gathering

/-! ## Marks in place of children -/

section Marks

variable {ι : Type}

/-- A flow as text, with a mark for each child. -/
def Flow.marked (k : Char) : Flow ι → String
  | .text s => s
  | .child _ => String.ofList [k]

/-- What a collection holds as text, with a mark for each child. -/
def Laid.marked (k : Char) : Laid ι → String
  | .piece p => p.text
  | .child _ => String.ofList [k]

/-- Collapsing is squeezing, without white space at both ends. -/
theorem collapse_eq (s : String) :
    (collapse s).toList = trimRight isSpace (trimLeft isSpace (squeeze s.toList)) := by
  have h := Buffer.take_pushAll (Buffer.atGap_empty .collapse) s false
  unfold collapse
  rw [h]
  generalize hg : gapText .collapse true true s = t
  have ht : t.toList = trimRight isSpace (trimLeft isSpace (squeeze s.toList)) := by rw [← hg]; simp [gapText]
  rw [← ht]
  by_cases he : t = "" <;> simp [gapPiece, hg, pieceOf, he, Piece.text]

theorem toList_join_marked_laidPieces (k : Char) (first last : Bool) (s : String) :
    (String.join ((laidPieces (ι := ι) (gapPiece .collapse first last s)).map (·.marked k))).toList =
      (gapText .collapse first last s).toList := by
  generalize hg : gapText .collapse first last s = t
  by_cases he : t = "" <;> simp [laidPieces, gapPiece, hg, pieceOf, he, Laid.marked, Piece.text]

theorem toList_join_marked_layoutFrom {k : Char} (hk : isSpace k = false) (first : Bool) (gap : String)
    (flow : List (Flow ι)) :
    (String.join ((layoutFrom .collapse first gap flow).map (·.marked k))).toList =
      (gapText .collapse first true (gap ++ String.join (flow.map (·.marked k)))).toList := by
  induction flow generalizing first gap with
  | nil => simp only [layoutFrom, toList_join_marked_laidPieces]; simp
  | cons f flow ih =>
    cases f with
    | text s => simp only [layoutFrom, ih]; simp [Flow.marked, String.append_assoc]
    | child c =>
      -- the mark stands between what the gap and what the rest of the flow becomes
      simp only [layoutFrom, List.map_append, List.map_cons, String.join_append, String.join_cons,
        String.toList_append, toList_join_marked_laidPieces, ih]
      cases first <;>
        simp [gapText, Laid.marked, Flow.marked, squeeze_append_cons hk, trimLeft_append_cons hk,
          trimRight_append_cons hk]

/-- Nothing is verbatim in a collection that collapses. -/
theorem verbatim_not_mem_layoutFrom (s : String) (first : Bool) (gap : String) (flow : List (Flow ι)) :
    Laid.piece (.verbatim s) ∉ layoutFrom .collapse first gap flow := by
  have piece : ∀ f l t, (Laid.piece (.verbatim s) : Laid ι) ∉ laidPieces (gapPiece .collapse f l t) := by
    intro f l t
    cases h : (gapText .collapse f l t).isEmpty <;> simp [laidPieces, gapPiece, pieceOf, h]
  induction flow generalizing first gap with
  | nil => exact piece _ _ _
  | cons f flow ih =>
    cases f with
    | text t => exact ih _ _
    | child c =>
      rw [layoutFrom, List.mem_append, List.mem_cons]
      rintro (h | h | h)
      · exact piece _ _ _ h
      · cases h
      · exact ih _ _ h

theorem verbatim_not_mem_layout (s : String) (flow : List (Flow ι)) :
    Laid.piece (.verbatim s) ∉ layout .collapse flow := verbatim_not_mem_layoutFrom s true "" flow

/-- **Collapsed flows.** With the same mark for every child, what a collapsing collection holds reads as the collapsed
text of its flow. -/
theorem join_marked_layout {k : Char} (hk : isSpace k = false) (flow : List (Flow ι)) :
    String.join ((layout .collapse flow).map (·.marked k)) = collapse (String.join (flow.map (·.marked k))) := by
  apply String.toList_inj.mp
  rw [layout, toList_join_marked_layoutFrom hk, collapse_eq]
  simp [gapText]

end Marks

end FlowDoc.Text
