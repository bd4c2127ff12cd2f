import FlowDoc.Proofs.Text.Ink
import FlowDoc.Proofs.Text.Lines

/-!
# Words

The words of a text are what stands between its white space (`words`), whichever class of characters that is. Joined,
they have one space between them (`joinWords`), and where the text goes on behind something, one more in front if white
space stands there (`joinBehind`). One equation for each kind of first character says all of this that is needed.

Collapsing is joining the words that Unicode white space leaves (`collapse_eq_joinWords`), and a buffer that is fed bit
by bit, and taken before siblings in between, gives away what collapsing makes of the whole (**`feed_collapse`**).
-/

namespace FlowDoc.Text

/-! ## Splitting and joining -/

section Joining

/-- What stands between the characters of a class, in order. -/
def words (p : Char → Bool) (cs : List Char) : List (List Char) := (cs.splitOnP p).filter (!·.isEmpty)

/-- The words of a text with one space between them. -/
def joinWords (p : Char → Bool) (cs : List Char) : List Char := [' '].intercalate (words p cs)

/-- The words of a text that goes on behind something: a space comes first if the text starts with white space, and
nothing if it has no words. -/
def joinBehind (p : Char → Bool) (cs : List Char) : List Char :=
  if (joinWords p cs).isEmpty then [] else if cs.head?.any p then ' ' :: joinWords p cs else joinWords p cs

variable {p : Char → Bool}

@[simp] theorem words_nil : words p [] = [] := by simp [words]

theorem words_append_cons {c : Char} (hc : p c = true) (as bs : List Char) :
    words p (as ++ c :: bs) = words p as ++ words p bs := by
  rw [words, List.splitOnP_append_cons as bs hc, List.filter_append, words, words]

theorem words_cons_of_space {c : Char} (hc : p c = true) (cs : List Char) : words p (c :: cs) = words p cs :=
  words_append_cons hc [] cs

/-- Classes that agree on a text leave the same words of it. -/
theorem words_congr {q : Char → Bool} {cs : List Char} (h : ∀ c ∈ cs, p c = q c) : words p cs = words q cs := by
  have split : cs.splitOnP p = cs.splitOnP q := by
    induction cs with
    | nil => rfl
    | cons c cs ih =>
      obtain ⟨first, rest⟩ := List.forall_mem_cons.mp h
      rw [List.splitOnP_cons_eq_if_modifyHead, List.splitOnP_cons_eq_if_modifyHead, first, ih rest]
  rw [words, split, words]

/-- A text that does not start with white space starts with a word, which a letter in front of it makes longer. -/
theorem words_cons_letters {c d : Char} (hc : p c = false) (hd : p d = false) (cs : List Char) :
    ∃ w ws, words p (d :: cs) = (d :: w) :: ws ∧ words p (c :: d :: cs) = (c :: d :: w) :: ws := by
  obtain ⟨w, ws, split⟩ := List.exists_cons_of_ne_nil (List.splitOnP_ne_nil p cs)
  refine ⟨w, ws.filter (!·.isEmpty), ?_, ?_⟩
  · simp [words, List.splitOnP_cons_eq_if_modifyHead, hd, split]
  · simp [words, List.splitOnP_cons_eq_if_modifyHead, hc, hd, split]

theorem joinWords_cons_of_space {c : Char} (hc : p c = true) (cs : List Char) :
    joinWords p (c :: cs) = joinWords p cs := by
  rw [joinWords, words_cons_of_space hc, joinWords]

/-- Words are not empty, so if there are any something is joined. -/
theorem joinWords_eq_nil_iff {cs : List Char} : joinWords p cs = [] ↔ words p cs = [] := by
  constructor
  · intro h
    cases hw : words p cs with
    | nil => rfl
    | cons w ws =>
      have full : w ≠ [] := by
        have mem : w ∈ words p cs := by simp [hw]
        simpa using (List.mem_filter.mp mem).2
      obtain ⟨c, w, rfl⟩ := List.exists_cons_of_ne_nil full
      rw [joinWords, hw, List.intercalate_cons_cons_left] at h
      cases h
  · intro h
    rw [joinWords, h]
    rfl

/-- A letter stays, and the rest goes on behind it. -/
theorem joinWords_cons_of_letter {c : Char} (hc : p c = false) (cs : List Char) :
    joinWords p (c :: cs) = c :: joinBehind p cs := by
  have alone : words p [c] = [[c]] := by simp [words, List.splitOnP_cons_eq_if_modifyHead, hc]
  cases cs with
  | nil => simp [joinWords, alone, joinBehind]
  | cons d ds =>
    cases hd : p d with
    | false =>
      obtain ⟨w, ws, rest, whole⟩ := words_cons_letters hc hd ds
      simp [joinBehind, joinWords, rest, whole, hd]
    | true =>
      have split : words p (c :: d :: ds) = [c] :: words p ds := by
        have := words_append_cons hd [c] ds
        rwa [alone] at this
      have rest : joinWords p (d :: ds) = joinWords p ds := joinWords_cons_of_space hd ds
      rw [joinBehind, rest]
      cases hw : words p ds with
      | nil => simp [joinWords, split, hw]
      | cons w ws =>
        have some : joinWords p ds ≠ [] := fun none => by simp [joinWords_eq_nil_iff.mp none] at hw
        have joined : joinWords p (c :: d :: ds) = c :: ' ' :: joinWords p ds := by
          simp [joinWords, split, hw, List.intercalate_cons_cons]
        simp [joined, some, hd]

theorem joinBehind_cons_of_space {c : Char} (hc : p c = true) (cs : List Char) :
    joinBehind p (c :: cs) = if (joinWords p cs).isEmpty then [] else ' ' :: joinWords p cs := by
  simp [joinBehind, joinWords_cons_of_space hc, hc]

theorem joinBehind_cons_of_letter {c : Char} (hc : p c = false) (cs : List Char) :
    joinBehind p (c :: cs) = c :: joinBehind p cs := by
  have joined := joinWords_cons_of_letter hc cs
  rw [joinBehind, joined]
  simp [hc]

/-- Without white space at its start a text is joined the same way wherever it stands. -/
theorem joinBehind_eq_joinWords_iff {cs : List Char} :
    joinBehind p cs = joinWords p cs ↔ joinWords p cs = [] ∨ cs.head?.any p = false := by
  rw [joinBehind]
  cases hw : joinWords p cs with
  | nil => simp
  | cons c w => cases hs : cs.head?.any p <;> simp

/-- Only white space has no words. -/
theorem isEmpty_joinWords (cs : List Char) : (joinWords p cs).isEmpty = cs.all p := by
  induction cs with
  | nil => rfl
  | cons c cs ih =>
    cases hc : p c with
    | true => rw [joinWords_cons_of_space hc, ih, List.all_cons, hc, Bool.true_and]
    | false => rw [joinWords_cons_of_letter hc, List.all_cons, hc]; rfl

end Joining

/-! ## Collapsing is joining -/

theorem trimRight_cons (p : Char → Bool) (c : Char) (cs : List Char) :
    trimRight p (c :: cs) = if p c && (trimRight p cs).isEmpty then [] else c :: trimRight p cs := by
  rw [trimRight, trimRight, List.reverse_cons, List.dropWhile_append]
  cases h : cs.reverse.dropWhile p with
  | nil => cases hc : p c <;> simp [hc]
  | cons d ds => simp

/-- A squeezed text has at most one space at its start. -/
theorem spaced_squeeze (cs : List Char) : spaced (squeeze cs) = ' ' :: trimLeft isSpace (squeeze cs) := by
  induction cs with
  | nil => rfl
  | cons c cs ih =>
    cases hc : isSpace c with
    | true => rw [squeeze_cons_of_isSpace hc, spaced_spaced, trimLeft_spaced, ih]
    | false =>
      rw [squeeze_cons_of_not hc]
      simp [spaced, ne_space_of_not hc, trimLeft, hc]

/-- A squeezed text without white space at its end is the joined words of the text, behind a space if it starts with
white space; trimmed at its start too, it is the joined words. -/
theorem trimRight_squeeze (cs : List Char) :
    trimRight isSpace (trimLeft isSpace (squeeze cs)) = joinWords isSpace cs ∧
      trimRight isSpace (squeeze cs) = joinBehind isSpace cs := by
  induction cs with
  | nil => exact ⟨rfl, rfl⟩
  | cons c cs ih =>
    cases hc : isSpace c with
    | true =>
      rw [squeeze_cons_of_isSpace hc, trimLeft_spaced, joinWords_cons_of_space hc, joinBehind_cons_of_space hc,
        spaced_squeeze, trimRight_cons, ih.1]
      exact ⟨rfl, by simp [isSpace_space]⟩
    | false =>
      have first : trimLeft isSpace (c :: squeeze cs) = c :: squeeze cs := by simp [trimLeft, hc]
      rw [squeeze_cons_of_not hc, first, trimRight_cons, ih.2, joinWords_cons_of_letter hc,
        joinBehind_cons_of_letter hc]
      simp [hc]

/-- **Collapsing** joins the words of a text. -/
theorem collapse_eq_joinWords (s : String) : (collapse s).toList = joinWords isSpace s.toList := by
  rw [collapse_eq, (trimRight_squeeze s.toList).1]

/-- The text of a gap at the end of its collection and not at its start. -/
theorem gapText_last (s : String) : gapText .collapse false true s = String.ofList (joinBehind isSpace s.toList) := by
  simp [gapText, (trimRight_squeeze s.toList).2]

/-! ## Buffers that are fed bit by bit -/

/-- What a buffer can be asked while it gathers a run of text. -/
inductive Feed
  | text (s : String)
  | char (c : Char)
  /-- To give away what it holds, because a sibling follows. -/
  | sibling

namespace Feed

/-- A feed as an entry of a flow. -/
def flow : Feed → Flow Unit
  | text s => .text s
  | char c => .text (String.ofList [c])
  | sibling => .child ()

/-- A feed as text, with a mark for a sibling. -/
def marked (k : Char) : Feed → String
  | text s => s
  | char c => String.ofList [c]
  | sibling => String.ofList [k]

theorem marked_flow (k : Char) (f : Feed) : f.flow.marked k = f.marked k := by cases f <;> rfl

end Feed

/-- The text of what a buffer gives away, which may be nothing. -/
def pieceText (p : Option Piece) : String := (p.map Piece.text).getD ""

/-- All that a buffer gives away over its feeds, with a mark for each sibling, and what is left in it at the end. -/
def Buffer.feed (k : Char) (b : Buffer) : List Feed → String
  | [] => pieceText (b.take false).1
  | .text s :: feeds => (b.pushAll s).feed k feeds
  | .char c :: feeds => (b.push c).feed k feeds
  | .sibling :: feeds => pieceText (b.take true).1 ++ String.ofList [k] ++ (b.take true).2.feed k feeds

theorem join_marked_laidPieces {ι : Type} (k : Char) (p : Option Piece) :
    String.join ((laidPieces (ι := ι) p).map (·.marked k)) = pieceText p := by
  cases p <;> simp [laidPieces, pieceText, Laid.marked]

/-- What was laid out of a flow, and what the buffer still gives away, are the layout of the whole flow. -/
theorem Gathers.feed {k : Char} (feeds : List Feed) {flow : List (Flow Unit)} {items : List (Laid Unit)} {b : Buffer}
    (h : Gathers .collapse flow items b) :
    String.join (items.map (·.marked k)) ++ b.feed k feeds =
      String.join ((layout .collapse (flow ++ feeds.map Feed.flow)).map (·.marked k)) := by
  induction feeds generalizing flow items b with
  | nil => simp [Buffer.feed, h.close, join_marked_laidPieces]
  | cons f feeds ih =>
    have rest : ∀ g, flow ++ (g :: feeds).map Feed.flow = flow ++ [g.flow] ++ feeds.map Feed.flow := by simp
    rw [rest]
    cases f with
    | text s => exact ih (h.text s)
    | char c =>
      have pushed : b.push c = b.pushAll (String.ofList [c]) := by simp [Buffer.pushAll]
      rw [Buffer.feed, pushed]
      exact ih (h.text _)
    | sibling =>
      have gap : (b.take true).2.AtGap .collapse false :=
        Buffer.atGap_take h.mode_eq fun other => SpaceMode.noConfusion other
      have mark : String.join ([Laid.child ()].map (·.marked k)) = String.ofList [k] := by simp [Laid.marked]
      have after := ih (h.child () gap)
      rw [List.map_append, List.map_append, String.join_append, String.join_append, join_marked_laidPieces, mark]
        at after
      rw [Buffer.feed, ← String.append_assoc, ← String.append_assoc]
      exact after

/-- **Fed and whole text.** With the same mark for each sibling, what an empty buffer gives away over any feeds is what
collapsing makes of all that it was fed; and collapsing a text joins its words with single spaces. -/
theorem feed_collapse :
    (∀ k, isSpace k = false → ∀ feeds : List Feed,
      (Buffer.empty .collapse).feed k feeds = collapse (String.join (feeds.map (·.marked k)))) ∧
    ∀ s, collapse s = " ".intercalate ((words isSpace s.toList).map String.ofList) := by
  constructor
  · intro k hk feeds
    have fed := (Gathers.nil (ι := Unit) .collapse).feed (k := k) feeds
    have marks : (feeds.map Feed.flow).map (·.marked k) = feeds.map (·.marked k) := by
      simp [Function.comp_def, Feed.marked_flow]
    rw [List.map_nil, String.join_nil, String.empty_append, List.nil_append, join_marked_layout hk, marks] at fed
    exact fed
  · intro s
    apply String.toList_inj.mp
    rw [collapse_eq_joinWords, toList_intercalate_ofList]
    rfl

/-- White space that is split over two texts, a sibling and the end. -/
theorem feed_collapse_spread :
    isSpace '|' = false ∧
      (Buffer.empty .collapse).feed '|'
          [.char ' ', .text "a ", .text " b\n", .sibling, .text " ", .char 'c', .text " "] =
        collapse " a  b\n| c " :=
  ⟨by decide, feed_collapse.1 '|' (by decide) _⟩

end FlowDoc.Text
