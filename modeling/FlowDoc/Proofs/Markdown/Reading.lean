import FlowDoc.Proofs.Markdown.Shape
import Mathlib.Algebra.Group.Nat.Defs

/-!
# The shape of what is read

The syntax tree of every text is of the right shape (`isWellShaped_tree`). Its lists start where a marker says, and a
marker has at most nine digits; that this holds of all lists of a document of which some lines are read
(`OpenDocument.Fits`) is kept by every line, and the passes after the blocks keep the lists as they are.
-/

namespace FlowDoc.Markdown

/-! ## Numbers of lists -/

/-- Whether the number of a list may be written. -/
def StartFits (start : Option Nat) : Prop := ∀ n ∈ start, n ≤ largestStart

mutual

/-- Whether the numbers of all lists in a block may be written. -/
def Block.Fits {ι : Type} : Block ι → Prop
  | .quote blocks => BlocksFit blocks
  | .list start items => StartFits start ∧ ItemsFit items
  | _ => True

def BlocksFit {ι : Type} : List (Block ι) → Prop
  | [] => True
  | b :: bs => b.Fits ∧ BlocksFit bs

def ItemsFit {ι : Type} : List (Item (Block ι)) → Prop
  | [] => True
  | ⟨_, blocks⟩ :: items => BlocksFit blocks ∧ ItemsFit items

end

variable {ι κ : Type}

theorem blocksFit_iff {blocks : List (Block ι)} : BlocksFit blocks ↔ ∀ b ∈ blocks, b.Fits := by
  induction blocks with
  | nil => simp [BlocksFit]
  | cons b bs ih => simp [BlocksFit, ih]

theorem itemsFit_iff {items : List (Item (Block ι))} : ItemsFit items ↔ ∀ i ∈ items, BlocksFit i.blocks := by
  induction items with
  | nil => simp [ItemsFit]
  | cons i is ih => simp [ItemsFit, ih]

/-- Blocks in reverse. -/
theorem blocksFit_reverse {blocks : List (Block ι)} : BlocksFit blocks.reverse ↔ BlocksFit blocks := by
  simp only [blocksFit_iff, List.mem_reverse]

/-! ## Markers -/

/-- Digits say a number below the power of ten of their count. -/
theorem decimalNumber_lt {digits : List Char} (h : ∀ d ∈ digits, d.isDigit = true) :
    decimalNumber digits < 10 ^ digits.length := by
  suffices ∀ n m, n < 10 ^ m →
      digits.foldl (fun n d => 10 * n + (d.toNat - '0'.toNat)) n < 10 ^ (m + digits.length) by
    simpa [decimalNumber] using this 0 0 (by decide)
  induction digits with
  | nil => exact fun n m hn => hn
  | cons d ds ih =>
    intro n m hn
    have digit : d.toNat - '0'.toNat < 10 := by
      have : 48 ≤ d.toNat ∧ d.toNat ≤ 57 := by
        simpa [Char.isDigit, UInt32.le_iff_toNat_le] using h d List.mem_cons_self
      have zero : '0'.toNat = 48 := rfl
      omega
    have next := ih (fun d hd => h d (List.mem_cons_of_mem _ hd)) (10 * n + (d.toNat - '0'.toNat)) (m + 1)
      (by rw [Nat.pow_succ]; omega)
    rw [List.foldl_cons, List.length_cons, Nat.add_comm ds.length, ← Nat.add_assoc]
    exact next

theorem bullet?_eq_some {cs : List Char} {marker : ListMarker} {length : Nat}
    (h : readMarker?.bullet? cs = some (marker, length)) : marker.start = none := by
  unfold readMarker?.bullet? at h
  split at h
  · split at h
    · cases h
      rfl
    · cases h
  · cases h

theorem number?_eq_some {cs : List Char} {marker : ListMarker} {length : Nat}
    (h : readMarker?.number? cs = some (marker, length)) : ∃ digits : List Char,
      marker.start = some (decimalNumber digits) ∧ digits.length ≤ numberLimit ∧ ∀ d ∈ digits, d.isDigit = true := by
  unfold readMarker?.number? at h
  extract_lets digits at h
  split at h
  · split at h
    · cases h
      refine ⟨digits, rfl, List.length_take_le .., fun d hd => ?_⟩
      exact List.all_eq_true.mp List.all_takeWhile d (List.mem_of_mem_take hd)
    · cases h
  · cases h

/-- A marker is a bullet or a number. -/
theorem readMarker?_eq_some {inParagraph : Bool} {cs : List Char} {marker : ListMarker} {length : Nat}
    (h : readMarker? inParagraph cs = some (marker, length)) :
    readMarker?.bullet? cs = some (marker, length) ∨ readMarker?.number? cs = some (marker, length) := by
  simp only [readMarker?, Option.bind_eq_bind, Option.bind_eq_some_iff, Option.orElse_eq_orElse] at h
  obtain ⟨⟨marker', length'⟩, h, kept⟩ := h
  obtain ⟨rfl, rfl⟩ : marker' = marker ∧ length' = length := by
    split at kept
    · cases kept
    · split at kept
      · cases kept
      · cases kept
        exact ⟨rfl, rfl⟩
  cases hb : readMarker?.bullet? cs with
  | none => exact Or.inr (by simpa [hb] using h)
  | some found => exact Or.inl (by simpa [hb] using h)

/-- **Markers.** The number before an item may be written. -/
theorem startFits_marker {inParagraph : Bool} {cs : List Char} {marker : ListMarker} {length : Nat}
    (h : readMarker? inParagraph cs = some (marker, length)) : StartFits marker.start := by
  intro n hn
  rcases readMarker?_eq_some h with h | h
  · cases (bullet?_eq_some h).symm.trans hn
  · obtain ⟨digits, start, short, areDigits⟩ := number?_eq_some h
    cases start.symm.trans hn
    have below := decimalNumber_lt areDigits
    have power : 10 ^ digits.length ≤ 10 ^ numberLimit := Nat.pow_le_pow_right (by decide) short
    simp only [numberLimit, largestStart] at power ⊢
    omega

/-! ## Open blocks -/

structure OpenList.Fits (l : OpenList) : Prop where
  start : StartFits l.marker.start
  items : ∀ blocks ∈ l.items, BlocksFit blocks

def Frame.Fits : Frame → Prop
  | .quote blocks => BlocksFit blocks
  | .item list _ blocks => list.Fits ∧ BlocksFit blocks

def Tip.Fits : Tip → Prop
  | .list l => l.Fits
  | _ => True

/-- **The invariant of reading**: the numbers of all lists, closed or open, may be written. -/
structure OpenDocument.Fits (d : OpenDocument) : Prop where
  blocks : BlocksFit d.blocks
  frames : ∀ f ∈ d.frames, f.Fits
  tip : d.tip.Fits

theorem OpenList.Fits.close {l : OpenList} (h : l.Fits) : l.close.Fits :=
  ⟨h.start, itemsFit_iff.mpr fun i hi => by
    obtain ⟨blocks, hblocks, rfl⟩ := List.mem_map.mp hi
    exact h.items blocks (List.mem_reverse.mp hblocks)⟩

theorem Frame.Fits.add {f : Frame} (h : f.Fits) {b : RawBlock} (hb : b.Fits) : (f.add b).Fits := by
  cases f with
  | quote blocks => exact ⟨hb, h⟩
  | item list width blocks => exact ⟨h.1, hb, h.2⟩

namespace OpenDocument

variable {d : OpenDocument}

theorem Fits.closed (h : d.Fits) : Fits { d with tip := .closed } := ⟨h.blocks, h.frames, trivial⟩

theorem Fits.leaf (h : d.Fits) (l : Leaf) : Fits { d with tip := .leaf l } := ⟨h.blocks, h.frames, trivial⟩

theorem Fits.withReferences (h : d.Fits) (references : References) : Fits { d with references } :=
  ⟨h.blocks, h.frames, h.tip⟩

theorem Fits.add (h : d.Fits) {b : RawBlock} (hb : b.Fits) : (d.add b).Fits := by
  unfold OpenDocument.add
  split
  · next f frames hf =>
    have framesFit := h.frames
    rw [hf, List.forall_mem_cons] at framesFit
    exact ⟨h.blocks, List.forall_mem_cons.mpr ⟨framesFit.1.add hb, framesFit.2⟩, h.tip⟩
  · next hf => exact ⟨⟨hb, h.blocks⟩, by simp [hf], h.tip⟩

theorem Fits.closeLeaf (h : d.Fits) (l : Leaf) : (d.closeLeaf l).Fits := by
  cases l with
  | paragraph lines settled =>
    simp only [OpenDocument.closeLeaf]
    split
    · exact h.withReferences _
    · exact (h.withReferences _).add trivial
  | _ => exact h.add trivial

theorem Fits.closeTip (h : d.Fits) : d.closeTip.Fits := by
  unfold OpenDocument.closeTip
  split
  · exact h
  · next l hl =>
    have list : l.Fits := by simpa [hl, Tip.Fits] using h.tip
    exact h.closed.add list.close
  · exact h.closed.closeLeaf _

theorem Fits.closeFrame (h : d.Fits) : d.closeFrame.Fits := by
  have closed := h.closeTip
  simp only [OpenDocument.closeFrame]
  split
  · exact closed
  · next blocks frames hf =>
    have framesFit := closed.frames
    rw [hf, List.forall_mem_cons] at framesFit
    have inner : Fits { d.closeTip with frames } := ⟨closed.blocks, framesFit.2, closed.tip⟩
    exact inner.add (blocksFit_reverse.mpr framesFit.1)
  · next list width blocks frames hf =>
    have framesFit := closed.frames
    rw [hf, List.forall_mem_cons] at framesFit
    refine ⟨closed.blocks, framesFit.2, framesFit.1.1.start, List.forall_mem_cons.mpr ⟨?_, framesFit.1.1.items⟩⟩
    exact blocksFit_reverse.mpr framesFit.1.2

theorem Fits.closeFrames (h : d.Fits) (n : Nat) : (d.closeFrames n).Fits := by
  induction n generalizing d with
  | zero => exact h
  | succ n ih => exact ih h.closeFrame

/-- What is read is closed blocks. -/
theorem Fits.close (h : d.Fits) : BlocksFit d.close.1 :=
  blocksFit_reverse.mpr (h.closeFrames d.frames.length).closeTip.blocks

theorem Fits.push (h : d.Fits) {f : Frame} (hf : f.Fits) : (d.push f).Fits :=
  ⟨h.closeTip.blocks, List.forall_mem_cons.mpr ⟨hf, h.closeTip.frames⟩, h.closeTip.tip⟩

theorem Fits.pushItem (h : d.Fits) {marker : ListMarker} (hm : StartFits marker.start) (width : Nat) :
    (d.pushItem marker width).Fits := by
  have fresh : Frame.Fits (.item { marker } width []) := ⟨⟨hm, by simp⟩, trivial⟩
  unfold OpenDocument.pushItem
  split
  · next l hl =>
    have list : l.Fits := by simpa [hl, Tip.Fits] using h.tip
    split
    · exact ⟨h.blocks, List.forall_mem_cons.mpr ⟨⟨list, trivial⟩, h.frames⟩, trivial⟩
    · exact h.push fresh
  · exact h.push fresh

theorem Fits.beginLeaf (h : d.Fits) (l : Leaf) : (d.beginLeaf l).Fits := h.closeTip.leaf l

theorem Fits.addBlock (h : d.Fits) {b : RawBlock} (hb : b.Fits) : (d.addBlock b).Fits := h.closeTip.add hb

theorem Fits.addText (h : d.Fits) (c : Cursor) : (d.addText c).Fits := by
  unfold OpenDocument.addText
  split
  · exact h
  · split
    · exact h.leaf _
    · exact h.beginLeaf _

/-! ## Lines -/

theorem Fits.openHtml (h : d.Fits) (kind : HtmlKind) (c : Cursor) : (d.openHtml kind c).Fits := by
  unfold OpenDocument.openHtml
  split
  · exact (h.beginLeaf _).closeTip
  · exact h.beginLeaf _

theorem Fits.underline (h : d.Fits) (lines : List (List Char)) (level : Nat) (c : Cursor) :
    (d.underline lines level c).Fits := by
  have referred : Fits { d with references := (takeDefinitions d.references (textOf lines)).1 } :=
    h.withReferences _
  simp only [OpenDocument.underline]
  split
  · exact referred.leaf _
  · exact referred.closed.add trivial

theorem Fits.openTable? (h : d.Fits) (lines : List (List Char)) (c : Cursor) :
    ∀ d' ∈ d.openTable? lines c, d'.Fits := by
  intro d' hd'
  obtain ⟨alignments, -, made⟩ := Option.map_eq_some_iff.mp hd'
  extract_lets content header header' before d₁ d₂ at made
  subst made
  split
  · exact (h.leaf _).addText c
  · have begun : d₂.Fits := by
      unfold d₂
      split
      · exact h.closed
      · exact h.closed.add trivial
    exact begun.leaf _

/-- What a line begins keeps the invariant. -/
def Opening.Fits : Opening → Prop
  | .all d => d.Fits
  | .container d _ => d.Fits

theorem Fits.openItem? (h : d.Fits) (depth : Nat) (c : Cursor) : ∀ o ∈ d.openItem? depth c, o.Fits := by
  intro o ho
  simp only [OpenDocument.openItem?, Option.bind_eq_bind] at ho
  split at ho
  · cases ho
  · obtain ⟨⟨marker, length⟩, hm, ho⟩ := Option.bind_eq_some_iff.mp ho
    have start := startFits_marker hm
    split at ho <;> cases ho <;> exact h.pushItem start _

theorem Fits.openBlock? (h : d.Fits) (tables mayGoOn : Bool) (depth : Nat) (c : Cursor) :
    ∀ o ∈ d.openBlock? tables mayGoOn depth c, o.Fits := by
  intro o ho
  simp only [OpenDocument.openBlock?] at ho
  split at ho
  · split at ho <;> cases ho
    exact h.beginLeaf _
  split at ho
  · cases ho
    exact h.push trivial
  split at ho
  · cases ho
    exact h.addBlock trivial
  split at ho
  · cases ho
    exact h.beginLeaf _
  split at ho
  · cases ho
    exact h.openHtml _ _
  split at ho
  · cases ho
    exact h.underline _ _ _
  split at ho
  · cases ho
    exact h.addBlock trivial
  -- an item, or what goes on with a paragraph as a table
  rcases Option.or_eq_some_iff.mp ho with ho | ⟨-, ho⟩
  · exact h.openItem? depth c o ho
  split at ho
  · split at ho
    · obtain ⟨d', hd', rfl⟩ := Option.map_eq_some_iff.mp ho
      exact h.openTable? _ c d' hd'
    · cases ho
  · split at ho <;> cases ho
    exact h.leaf _
  · cases ho

theorem Fits.getD (h : d.Fits) {d? : Option OpenDocument} (hd : ∀ d' ∈ d?, d'.Fits) : (d?.getD d).Fits := by
  cases d? with
  | none => exact h
  | some d' => exact hd d' rfl

theorem Fits.openBlocks? (h : d.Fits) (tables : Bool) (fuel : Nat) (mayGoOn : Bool) (depth : Nat) (c : Cursor) :
    ∀ d' ∈ openBlocks? tables fuel d mayGoOn depth c, d'.Fits := by
  induction fuel generalizing d mayGoOn depth c with
  | zero => intro d' hd'; cases hd'
  | succ fuel ih =>
    intro d' hd'
    rw [OpenDocument.openBlocks?] at hd'
    split at hd'
    · cases hd'
    · next opened ho =>
      cases hd'
      exact h.openBlock? tables mayGoOn depth c _ ho
    · next inner c' ho =>
      have opened : inner.Fits := h.openBlock? tables mayGoOn depth c _ ho
      cases hd'
      exact (opened.addText c').getD (ih opened false (depth + 1) c')

/-- **One line.** -/
theorem Fits.takeLine (h : d.Fits) (tables : Bool) (line : Cursor) : (d.takeLine tables line).Fits := by
  have begun : ∀ {d : OpenDocument}, d.Fits → ∀ (fuel : Nat) (mayGoOn : Bool) (c : Cursor),
      ((OpenDocument.openBlocks? tables fuel d mayGoOn 0 c).getD (d.addText c)).Fits :=
    fun h fuel mayGoOn c => (h.addText c).getD (h.openBlocks? tables fuel mayGoOn 0 c)
  unfold OpenDocument.takeLine
  extract_lets holds
  obtain ⟨n, c⟩ := goOn holds d.frames.reverse line
  dsimp only
  split
  · -- some containers do not go on
    have outer : ∀ n, (d.closeFrames n).Fits := fun n => h.closeFrames n
    split
    · next d' hd' => exact (outer _).openBlocks? _ _ _ _ _ d' hd'
    · split
      · exact outer _
      · exact h.leaf _
    · exact (outer _).addText _
  · split
    · next l hl =>
      split
      · exact begun h.closeTip _ _ _
      · exact h.closeTip
      · exact begun h _ _ _
      · split
        · split
          · exact (h.leaf _).closeTip
          · exact h.leaf _
        · exact h.leaf _
    · exact begun h _ _ _

end OpenDocument

/-- **All lines.** -/
theorem blocksFit_readBlocks (tables : Bool) (cs : List Char) : BlocksFit (readBlocks tables cs).1 := by
  have run : ∀ (lines : List (List Char)) (d : OpenDocument), d.Fits →
      (lines.foldl (fun d line => d.takeLine tables { rest := line }) d).Fits := by
    intro lines
    induction lines with
    | nil => exact fun d h => h
    | cons line lines ih => exact fun d h => ih _ (h.takeLine tables _)
  exact (run _ {} ⟨trivial, by simp, trivial⟩).close

/-! ## The passes after the blocks -/

section Monads

variable {m : Type → Type} [Monad m] {α β : Type}

/-- That whatever a computation gives satisfies a property: it can be told with its proof. -/
def Yields (p : α → Prop) (x : m α) : Prop := ∃ y : m {a // p a}, Subtype.val <$> y = x

variable [LawfulMonad m] {p : α → Prop} {q : β → Prop}

theorem Yields.pure {a : α} (h : p a) : Yields p (Pure.pure a : m α) := ⟨Pure.pure ⟨a, h⟩, map_pure ..⟩

theorem Yields.bind {x : m α} {f : α → m β} (hx : Yields p x) (hf : ∀ a, p a → Yields q (f a)) :
    Yields q (x >>= f) := by
  obtain ⟨y, rfl⟩ := hx
  refine ⟨y >>= fun a => (hf a.1 a.2).choose, ?_⟩
  rw [map_bind, bind_map_left]
  exact congrArg (y >>= ·) (funext fun a => (hf a.1 a.2).choose_spec)

theorem Yields.map {x : m α} {g : α → β} (hx : Yields p x) (hg : ∀ a, p a → q (g a)) : Yields q (g <$> x) := by
  rw [map_eq_pure_bind]
  exact hx.bind fun a ha => .pure (hg a ha)

/-- Of what is built by a function whose results all satisfy it. -/
theorem Yields.of_map {g : α → β} (hg : ∀ a, q (g a)) (x : m α) : Yields q (g <$> x) :=
  Yields.map (p := fun _ => True) ⟨(fun a => ⟨a, trivial⟩) <$> x, by simp⟩ fun a _ => hg a

mutual

/-- **Reading the text of a block** leaves its lists as they are. -/
theorem yields_mapM (f : ι → m κ) : ∀ b : Block ι, b.Fits → Yields Block.Fits (b.mapM f)
  | .paragraph _, _ | .heading _ _, _ | .table _ _, _ => .of_map (fun _ => trivial) _
  | .code _ _, _ | .html _, _ | .thematicBreak, _ => .pure trivial
  | .quote blocks, h => (yields_mapListM f blocks h).map fun _ h => h
  | .list _ items, h => (yields_mapItemsM f items h.2).map fun _ h' => ⟨h.1, h'⟩

theorem yields_mapListM (f : ι → m κ) : ∀ blocks : List (Block ι), BlocksFit blocks →
    Yields BlocksFit (Block.mapListM f blocks)
  | [], _ => .pure trivial
  | b :: bs, h => (yields_mapM f b h.1).bind fun _ hb =>
    (yields_mapListM f bs h.2).bind fun _ hbs => .pure ⟨hb, hbs⟩

theorem yields_mapItemsM (f : ι → m κ) : ∀ items : List (Item (Block ι)), ItemsFit items →
    Yields ItemsFit (Block.mapItemsM f items)
  | [], _ => .pure trivial
  | ⟨_, blocks⟩ :: items, h => (yields_mapListM f blocks h.1).bind fun _ hb =>
    (yields_mapItemsM f items h.2).bind fun _ hi => .pure ⟨hb, hi⟩

end

end Monads

/-- What a computation with a state yields it gives from every state. -/
theorem Yields.run {α σ : Type} {p : α → Prop} {x : StateM σ α} (h : Yields p x) (s : σ) : p (x.run s).1 := by
  obtain ⟨y, rfl⟩ := h
  rw [StateT.run_map]
  exact (y.run s).1.2

theorem Yields.id {α : Type} {p : α → Prop} {x : Id α} (h : Yields p x) : p (Id.run x) := by
  obtain ⟨y, rfl⟩ := h
  exact y.2

/-- The blocks of a task are those of its item, but for the box. -/
theorem blocksFit_markTask {i : Item (Block (List Inline))} (h : BlocksFit i.blocks) :
    BlocksFit (markTask i).blocks := by
  unfold markTask
  split
  · split
    · exact ⟨trivial, h.2⟩
    · exact h
  · exact h

mutual

/-- **Tasks.** -/
theorem fits_markTasks : ∀ b : Block (List Inline), b.Fits → (markTasks b).Fits
  | .quote blocks, h => blocksFit_markTasksList blocks h
  | .list _ items, h => ⟨h.1, itemsFit_markTasksItems items h.2⟩
  | .paragraph _, _ | .heading _ _, _ | .code _ _, _ | .html _, _ | .thematicBreak, _ | .table _ _, _ => trivial

theorem blocksFit_markTasksList : ∀ blocks : List (Block (List Inline)), BlocksFit blocks →
    BlocksFit (markTasksList blocks)
  | [], _ => trivial
  | b :: bs, h => ⟨fits_markTasks b h.1, blocksFit_markTasksList bs h.2⟩

theorem itemsFit_markTasksItems : ∀ items : List (Item (Block (List Inline))), ItemsFit items →
    ItemsFit (markTasksItems items)
  | [], _ => trivial
  | ⟨_, blocks⟩ :: items, h =>
    ⟨blocksFit_markTask (blocksFit_markTasksList blocks h.1), itemsFit_markTasksItems items h.2⟩

end

/-- **Texts.** The numbers of all lists that are read may be written. -/
theorem blocksFit_parse (x : Extensions) (source : String) : BlocksFit (parse x source) := by
  unfold parse
  extract_lets cs allowance
  have fit := blocksFit_readBlocks x.tables cs
  generalize readBlocks x.tables cs = found at fit
  obtain ⟨blocks, references⟩ := found
  dsimp -zeta only
  extract_lets spans read marked
  have readFit : BlocksFit read := (yields_mapListM spans blocks fit).run allowance
  have markedFit : BlocksFit marked := by
    unfold marked
    split
    · exact blocksFit_markTasksList read readFit
    · exact readFit
  split
  · exact (yields_mapListM _ marked markedFit).id
  · exact markedFit

/-! ## Trees -/

/-- Nodes that hold whatever stands in them. -/
theorem isWellShaped_mk (kind : NodeKind) {children : List Node} (starts : kind.startFits = true)
    (held : ∀ child, kind.mayHold child = true) (h : allNodes isShapedAt children = true) :
    Node.isWellShaped (.mk kind children) = true :=
  isWellShaped_mk_iff.mpr ⟨⟨starts, List.all_eq_true.mpr fun _ _ => held _⟩, h⟩

mutual

theorem isWellShaped_inline : ∀ i : Inline, i.node.isWellShaped = true
  | .text _ | .softBreak | .hardBreak | .code _ | .html _ => rfl
  | .styled _ children => isWellShaped_mk _ rfl (fun _ => rfl) (areWellShaped_inlines children)
  | .link _ children => isWellShaped_mk _ rfl (fun _ => rfl) (areWellShaped_inlines children)
  | .image _ children => isWellShaped_mk _ rfl (fun _ => rfl) (areWellShaped_inlines children)

theorem areWellShaped_inlines : ∀ is : List Inline, allNodes isShapedAt (inlineNodes is) = true
  | [] => rfl
  | i :: is => allNodes_cons.mpr ⟨isWellShaped_inline i, areWellShaped_inlines is⟩

end

theorem isWellShaped_row (r : TableRow (List Inline)) : r.node.isWellShaped = true := by
  refine isWellShaped_mk _ rfl (fun _ => rfl) (allNodes_iff.mpr fun n hn => ?_)
  obtain ⟨content, -, rfl⟩ := List.mem_map.mp hn
  exact isWellShaped_mk _ rfl (fun _ => rfl) (areWellShaped_inlines content)

mutual

/-- **Blocks become nodes of the right shape** if the numbers of their lists may be written. -/
theorem isWellShaped_block : ∀ b : Block (List Inline), b.Fits → b.node.isWellShaped = true
  | .paragraph content, _ => isWellShaped_mk _ rfl (fun _ => rfl) (areWellShaped_inlines content)
  | .heading _ content, _ => isWellShaped_mk _ rfl (fun _ => rfl) (areWellShaped_inlines content)
  | .code _ _, _ | .html _, _ | .thematicBreak, _ => rfl
  | .quote blocks, h => isWellShaped_mk _ rfl (fun _ => rfl) (areWellShaped_blocks blocks h)
  | .list start items, h => by
    obtain ⟨held, shaped⟩ := areWellShaped_items items start h.2
    have starts : (NodeKind.list start).startFits = true := by
      cases start with
      | none => rfl
      | some n => exact decide_eq_true (h.1 n rfl)
    exact isWellShaped_mk_iff.mpr ⟨⟨starts, held⟩, shaped⟩
  | .table alignments rows, _ => by
    have held : (rows.map TableRow.node).all (fun n => (NodeKind.table alignments).mayHold n.kind) = true := by
      rw [List.all_map]
      exact List.all_eq_true.mpr fun r _ => rfl
    have shaped : allNodes isShapedAt (rows.map TableRow.node) = true := allNodes_iff.mpr fun n hn => by
      obtain ⟨r, -, rfl⟩ := List.mem_map.mp hn
      exact isWellShaped_row r
    exact isWellShaped_mk_iff.mpr ⟨⟨rfl, held⟩, shaped⟩

theorem areWellShaped_blocks : ∀ blocks : List (Block (List Inline)), BlocksFit blocks →
    allNodes isShapedAt (blockNodes blocks) = true
  | [], _ => rfl
  | b :: bs, h => allNodes_cons.mpr ⟨isWellShaped_block b h.1, areWellShaped_blocks bs h.2⟩

theorem areWellShaped_items : ∀ (items : List (Item (Block (List Inline)))) (start : Option Nat), ItemsFit items →
    (itemNodes items).all (fun n => (NodeKind.list start).mayHold n.kind) = true ∧
      allNodes isShapedAt (itemNodes items) = true
  | [], _, _ => ⟨rfl, rfl⟩
  | ⟨none, blocks⟩ :: items, start, h => by
    obtain ⟨held, shaped⟩ := areWellShaped_items items start h.2
    have item := isWellShaped_mk .item rfl (fun _ => rfl) (areWellShaped_blocks blocks h.1)
    exact ⟨by rw [itemNodes, List.all_cons, held]; rfl, allNodes_cons.mpr ⟨item, shaped⟩⟩
  | ⟨some done, blocks⟩ :: items, start, h => by
    obtain ⟨held, shaped⟩ := areWellShaped_items items start h.2
    have item := isWellShaped_mk (.task done) rfl (fun _ => rfl) (areWellShaped_blocks blocks h.1)
    exact ⟨by rw [itemNodes, List.all_cons, held]; rfl, allNodes_cons.mpr ⟨item, shaped⟩⟩

end

/-- **The tree of a text is of the right shape.** -/
theorem isWellShaped_tree (x : Extensions) (source : String) : (tree x source).isWellShaped = true :=
  isWellShaped_mk _ rfl (fun _ => rfl) (areWellShaped_blocks _ (blocksFit_parse x source))

end FlowDoc.Markdown
