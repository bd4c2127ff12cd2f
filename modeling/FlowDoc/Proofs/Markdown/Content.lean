import FlowDoc.Proofs.Markdown.Shape
import FlowDoc.Proofs.Text.Lines

/-!
# What a document keeps of a tree

A syntax tree and a document are compared by their atoms: the letters of their texts, code, markup, the targets of
links and images, and titles, in the order in which they stand. A document has no atom that its tree has not, and it
loses exactly what stands in a link that becomes an autolink besides the letters of its address: the title, and code,
markup and images around which the letters are read (`isIntactAt`, `exists_toDocument_kept`).
-/

namespace FlowDoc.Markdown

/-! ## Atoms -/

/-- What a tree or a document is made of. -/
inductive Atom
  | letter (c : Char)
  | code (s : String)
  | codeBlock (info text : String)
  | html (s : String)
  | htmlBlock (s : String)
  | link (url : String)
  | image (url : String)
  | title (s : String)
  deriving DecidableEq

def Atom.isLetter : Atom → Bool
  | letter _ => true
  | _ => false

/-- The atoms of a text. -/
def letters (s : String) : List Atom := s.toList.map .letter

/-- A title, unless it is empty. -/
def titleAtoms (s : String) : List Atom := if s.isEmpty then [] else [.title s]

/-- A text without the line feed that may end it. -/
def withoutFinalNewline (s : String) : String :=
  String.ofList (if s.toList.getLast? == some '\n' then s.toList.dropLast else s.toList)

/-- The atoms of a node itself. -/
def NodeKind.atoms : NodeKind → List Atom
  | text s => letters s
  | code s => [.code s]
  | codeBlock info literal => [.codeBlock info (withoutFinalNewline literal)]
  | html s => [.html s]
  | htmlBlock s => [.htmlBlock s]
  | link target => .link target.url :: titleAtoms target.title
  | image target => .image target.url :: titleAtoms target.title
  | _ => []

mutual

/-- **The atoms of a tree.** -/
def Node.atoms : Node → List Atom
  | .mk kind children => kind.atoms ++ nodesAtoms children

def nodesAtoms : List Node → List Atom
  | [] => []
  | n :: ns => n.atoms ++ nodesAtoms ns

end

mutual

/-- The atoms of an inline of a document. An autolink is a link that shows its address. -/
def inlineAtoms : FlowDoc.Inline → List Atom
  | .text s => letters s
  | .lineBreak _ | .task _ => []
  | .code s => [.code s]
  | .emphasis _ _ children => inlinesAtoms children
  | .delimiter literal children => letters literal ++ inlinesAtoms children
  | .link url title isImage children =>
    (if isImage then .image url else .link url) :: title.toList.map .title ++ inlinesAtoms children
  | .autolink url isEmail => .link (if isEmail then "mailto:" ++ url else url) :: letters url
  | .raw s => [.html s]
  | .custom _ children => inlinesAtoms children

def inlinesAtoms : List FlowDoc.Inline → List Atom
  | [] => []
  | i :: is => inlineAtoms i ++ inlinesAtoms is

end

mutual

/-- The atoms of a block of a document. -/
def blockAtoms : FlowDoc.Block → List Atom
  | .paragraph inlines | .heading _ inlines => inlinesAtoms inlines
  | .codeBlock info lines => [.codeBlock (info.getD "") ("\n".intercalate lines)]
  | .list _ _ items => itemsAtoms items
  | .quote blocks => blocksAtoms blocks
  | .thematicBreak => []
  | .table _ rows => rowsAtoms rows
  | .html literal => [.htmlBlock literal]
  | .custom _ blocks inlines => blocksAtoms blocks ++ inlinesAtoms inlines

/-- **The atoms of a document.** -/
def blocksAtoms : List FlowDoc.Block → List Atom
  | [] => []
  | b :: bs => blockAtoms b ++ blocksAtoms bs

def itemsAtoms : List (List FlowDoc.Block) → List Atom
  | [] => []
  | i :: is => blocksAtoms i ++ itemsAtoms is

def rowsAtoms : List (Row FlowDoc.Block) → List Atom
  | [] => []
  | ⟨_, cells⟩ :: rs => cellsAtoms cells ++ rowsAtoms rs

def cellsAtoms : List (Cell FlowDoc.Block) → List Atom
  | [] => []
  | ⟨_, _, _, blocks⟩ :: cs => blocksAtoms blocks ++ cellsAtoms cs

end

theorem inlinesAtoms_append (is js : List FlowDoc.Inline) :
    inlinesAtoms (is ++ js) = inlinesAtoms is ++ inlinesAtoms js := by
  induction is with
  | nil => rfl
  | cons i is ih => simp [inlinesAtoms, ih]

theorem blocksAtoms_append (bs cs : List FlowDoc.Block) :
    blocksAtoms (bs ++ cs) = blocksAtoms bs ++ blocksAtoms cs := by
  induction bs with
  | nil => rfl
  | cons b bs ih => simp [blocksAtoms, ih]

/-! ## The trees that are compared -/

namespace NodeKind

/-- The blocks that are read. -/
def isBlock : NodeKind → Bool
  | frontMatter | paragraph | heading _ | codeBlock _ _ | htmlBlock _ | thematicBreak | quote | list _ | table _ => true
  | _ => false

/-- The inlines that are read. -/
def isInline : NodeKind → Bool
  | text _ | softBreak | hardBreak | code _ | html _ | styled _ | link _ | image _ => true
  | _ => false

/-- What a node holds in a tree of nodes that are read. -/
def holds : NodeKind → NodeKind → Bool
  | document, k | quote, k | item, k | task _, k => k.isBlock
  | paragraph, k | heading _, k | cell, k | styled _, k | link _, k | image _, k => k.isInline
  | list _, item | list _, task _ | table _, row _ | row _, cell => true
  | _, _ => false

end NodeKind

/-- Whether the children of a node stand where they belong. -/
def isPlacedAt (kind : NodeKind) (children : List Node) : Bool := children.all (kind.holds ·.kind)

/-- Whether all nodes are of kinds that are read, each where it belongs. -/
def Node.isPlaced (n : Node) : Bool := n.all isPlacedAt

/-- Whether a link shows its own address. -/
def showsAddress (target : Target) (shown : String) : Bool := shown == target.url || isMailOf target.url shown

/-- **What is not lost** at a node: a link that shows its own address has no title, and holds nothing but letters. -/
def isIntactAt : NodeKind → List Node → Bool
  | .link target, children =>
    !showsAddress target (plainTexts children) || (target.title.isEmpty && (nodesAtoms children).all Atom.isLetter)
  | _, _ => true

/-- Whether nothing of a tree is lost. -/
def Node.isIntact (n : Node) : Bool := n.all isIntactAt

/-! ## Keeping atoms -/

/-- That the atoms that were found are among those that there were, in order, and all of them exactly under a
condition. -/
structure Kept (found there : List Atom) (intact : Bool) : Prop where
  sublist : found.Sublist there
  eq_iff : found = there ↔ intact = true

variable {found found' there there' : List Atom} {intact intact' : Bool}

theorem Kept.all (ps : List Atom) : Kept ps ps true := ⟨.refl ps, by simp⟩

theorem Kept.append (h : Kept found there intact) (h' : Kept found' there' intact') :
    Kept (found ++ found') (there ++ there') (intact && intact') where
  sublist := h.sublist.append h'.sublist
  eq_iff := by
    rw [Bool.and_eq_true, ← h.eq_iff, ← h'.eq_iff]
    constructor
    · -- neither part is longer than what it is found in, so neither is shorter
      intro same
      have short := h.sublist.length_le
      have short' := h'.sublist.length_le
      have total := congrArg List.length same
      simp only [List.length_append] at total
      exact ⟨h.sublist.eq_of_length (by omega), h'.sublist.eq_of_length (by omega)⟩
    · rintro ⟨rfl, rfl⟩
      rfl

/-- Atoms ahead of what is kept. -/
theorem Kept.behind (h : Kept found there intact) (ps : List Atom) : Kept (ps ++ found) (ps ++ there) intact := by
  simpa using (Kept.all ps).append h

/-! ## Links -/

theorem filter_isLetter_letters (s : String) : (letters s).filter Atom.isLetter = letters s :=
  List.filter_eq_self.mpr fun p hp => by
    obtain ⟨c, -, rfl⟩ := List.mem_map.mp hp
    rfl

theorem letters_append (s t : String) : letters (s ++ t) = letters s ++ letters t := by
  simp [letters, String.toList_append]

theorem filter_isLetter_titleAtoms (s : String) : (titleAtoms s).filter Atom.isLetter = [] := by
  rw [titleAtoms]
  split <;> rfl

/-- The letters of a node itself. -/
theorem filter_isLetter_atoms (kind : NodeKind) : kind.atoms.filter Atom.isLetter = letters kind.literal := by
  cases kind with
  | text s => exact filter_isLetter_letters s
  | link target => exact filter_isLetter_titleAtoms _
  | image target => exact filter_isLetter_titleAtoms _
  | _ => rfl

mutual

/-- The plain text of a node is made of its letters. -/
theorem filter_isLetter_node : ∀ n : Node, n.atoms.filter Atom.isLetter = letters n.plainText
  | .mk kind children => by
    rw [Node.atoms, Node.plainText, letters_append, List.filter_append, filter_isLetter_atoms,
      filter_isLetter_nodes children]

theorem filter_isLetter_nodes : ∀ ns : List Node, (nodesAtoms ns).filter Atom.isLetter = letters (plainTexts ns)
  | [] => rfl
  | n :: ns => by
    rw [nodesAtoms, plainTexts, letters_append, List.filter_append, filter_isLetter_node n, filter_isLetter_nodes ns]

end

mutual

/-- Among letters there is no link that could lose anything. -/
theorem isIntact_of_letters : ∀ n : Node, n.atoms.all Atom.isLetter = true → n.all isIntactAt = true
  | .mk kind children, h => by
    rw [Node.atoms, List.all_append, Bool.and_eq_true] at h
    refine all_mk.mpr ⟨?_, areIntact_of_letters children h.2⟩
    cases kind with
    | link target => cases h.1
    | _ => rfl

theorem areIntact_of_letters : ∀ ns : List Node, (nodesAtoms ns).all Atom.isLetter = true →
    allNodes isIntactAt ns = true
  | [], _ => rfl
  | n :: ns, h => by
    rw [nodesAtoms, List.all_append, Bool.and_eq_true] at h
    exact allNodes_cons.mpr ⟨isIntact_of_letters n h.1, areIntact_of_letters ns h.2⟩

end

/-- A title is kept by a link that is no autolink. -/
theorem map_title? (target : Target) : (title? target).toList.map Atom.title = titleAtoms target.title := by
  rw [title?, titleAtoms]
  split <;> rfl

/-- An autolink keeps the letters, which are its address. -/
theorem kept_autolink (target : Target) (children : List Node) (h : showsAddress target (plainTexts children) = true) :
    Kept (.link target.url :: letters (plainTexts children)) (Node.mk (.link target) children).atoms
      ((Node.mk (.link target) children).all isIntactAt) := by
  have title : Kept [] (titleAtoms target.title) target.title.isEmpty := by
    rw [titleAtoms]
    split
    · next empty => rw [empty]; exact Kept.all []
    · next some => exact ⟨List.nil_sublist _, by simp [some]⟩
  have inside : Kept (letters (plainTexts children)) (nodesAtoms children)
      ((nodesAtoms children).all Atom.isLetter) := by
    rw [← filter_isLetter_nodes]
    exact ⟨List.filter_sublist, by rw [List.filter_eq_self, List.all_eq_true]⟩
  have condition : (Node.mk (.link target) children).all isIntactAt =
      (target.title.isEmpty && (nodesAtoms children).all Atom.isLetter) := by
    rw [Node.all, isIntactAt, h, Bool.not_true, Bool.false_or]
    cases hl : (nodesAtoms children).all Atom.isLetter with
    | false => simp
    | true => rw [areIntact_of_letters children hl, Bool.and_true]
  rw [condition]
  exact (title.append inside).behind [.link target.url]

/-- **Links.** -/
theorem kept_linkNode (target : Target) {children : List Node} {inlines : List FlowDoc.Inline}
    (h : Kept (inlinesAtoms inlines) (nodesAtoms children) (allNodes isIntactAt children)) :
    Kept (inlineAtoms (linkNode target (plainTexts children) inlines)) (Node.mk (.link target) children).atoms
      ((Node.mk (.link target) children).all isIntactAt) := by
  rw [linkNode]
  split
  · next shown =>
    have same : plainTexts children = target.url := by simpa using shown
    have made : inlineAtoms (.autolink target.url false) = .link target.url :: letters (plainTexts children) := by
      rw [same]
      rfl
    rw [made]
    exact kept_autolink target children (by rw [showsAddress, shown, Bool.true_or])
  · split
    · next mail =>
      have same : target.url = "mailto:" ++ plainTexts children := by simpa [isMailOf] using mail
      have made : inlineAtoms (.autolink (plainTexts children) true) =
          .link target.url :: letters (plainTexts children) := by
        rw [same]
        rfl
      rw [made]
      exact kept_autolink target children (by rw [showsAddress, mail, Bool.or_true])
    · next hidden noMail =>
      have free : isIntactAt (.link target) children = true := by simp [isIntactAt, showsAddress, hidden, noMail]
      rw [Node.all, free, Bool.true_and]
      simp only [inlineAtoms, map_title?]
      exact h.behind (.link target.url :: titleAtoms target.title)

/-! ## Inlines -/

/-- A node that holds nothing has no children. -/
theorem eq_nil_of_isPlacedAt {kind : NodeKind} {children : List Node} (h : isPlacedAt kind children = true)
    (none : ∀ child, kind.holds child = false) : children = [] := by
  cases children with
  | nil => rfl
  | cons n ns => simp [isPlacedAt, none] at h

/-- The atoms of a node around what is in it. -/
theorem kept_around (kind : NodeKind) {children : List Node} (free : isIntactAt kind children = true)
    (h : Kept found (nodesAtoms children) (allNodes isIntactAt children)) :
    Kept (kind.atoms ++ found) (Node.mk kind children).atoms ((Node.mk kind children).all isIntactAt) := by
  rw [Node.all, free, Bool.true_and]
  exact h.behind kind.atoms

/-- The atoms of a node with nothing in it. -/
theorem kept_leaf (kind : NodeKind) (free : isIntactAt kind [] = true) :
    Kept kind.atoms (Node.mk kind []).atoms ((Node.mk kind []).all isIntactAt) := by
  have around := kept_around kind free (.all [])
  rwa [List.append_nil] at around

mutual

/-- **Inlines.** -/
theorem kept_toInline? : ∀ n : Node, n.kind.isInline = true → n.all isPlacedAt = true →
    Kept (inlinesAtoms n.toInline?.toList) n.atoms (n.all isIntactAt)
  | .mk kind children, inline, placed => by
    obtain ⟨held, inside⟩ := all_mk.mp placed
    have one : ∀ {i : FlowDoc.Inline} {there : List Atom} {intact : Bool}, Kept (inlineAtoms i) there intact →
        Kept (inlinesAtoms [i]) there intact := fun h => by simpa [inlinesAtoms] using h
    have leaf : (∀ child, kind.holds child = false) → children = [] := eq_nil_of_isPlacedAt held
    have inner : (∀ child, kind.holds child = child.isInline) →
        Kept (inlinesAtoms (toInlines children)) (nodesAtoms children) (allNodes isIntactAt children) := fun only =>
      kept_toInlines children (by simpa [isPlacedAt, only] using held) inside
    cases kind with
    | text s =>
      obtain rfl := leaf fun _ => rfl
      exact one (kept_leaf (.text s) rfl)
    | softBreak =>
      obtain rfl := leaf fun _ => rfl
      exact one (kept_leaf .softBreak rfl)
    | hardBreak =>
      obtain rfl := leaf fun _ => rfl
      exact one (kept_leaf .hardBreak rfl)
    | code s =>
      obtain rfl := leaf fun _ => rfl
      exact one (kept_leaf (.code s) rfl)
    | html s =>
      obtain rfl := leaf fun _ => rfl
      exact one (kept_leaf (.html s) rfl)
    | styled style => exact one (kept_around (.styled style) rfl (inner fun _ => rfl))
    | link target => exact one (kept_linkNode target (inner fun _ => rfl))
    | image target =>
      refine one ?_
      simp only [inlineAtoms, map_title?]
      exact kept_around (.image target) rfl (inner fun _ => rfl)
    | _ => cases inline

theorem kept_toInlines : ∀ ns : List Node, (∀ n ∈ ns, n.kind.isInline = true) → allNodes isPlacedAt ns = true →
    Kept (inlinesAtoms (toInlines ns)) (nodesAtoms ns) (allNodes isIntactAt ns)
  | [], _, _ => .all []
  | n :: ns, inlines, placed => by
    rw [List.forall_mem_cons] at inlines
    obtain ⟨first, rest⟩ := allNodes_cons.mp placed
    rw [toInlines, inlinesAtoms_append]
    exact (kept_toInline? n inlines.1 first).append (kept_toInlines ns inlines.2 rest)

end

/-! ## Blocks -/

/-- The atoms of a block of code. -/
theorem blockAtoms_ofLiteral (info literal : String) :
    blockAtoms (.ofLiteral (if info.isEmpty then none else some info) literal) =
      (NodeKind.codeBlock info literal).atoms := by
  have kept : (if info.isEmpty then none else some info).getD "" = info := by
    split
    · next empty => simpa using empty.symm
    · rfl
  simp only [FlowDoc.Block.ofLiteral, blockAtoms, FlowDoc.Block.intercalate_linesOf, kept]
  rfl

/-- The children of a node that holds inlines. -/
theorem kept_inlinesOf {kind : NodeKind} {children : List Node} (only : ∀ child, kind.holds child = child.isInline)
    (placed : (Node.mk kind children).all isPlacedAt = true) :
    Kept (inlinesAtoms (toInlines children)) (nodesAtoms children) (allNodes isIntactAt children) := by
  obtain ⟨held, inside⟩ := all_mk.mp placed
  exact kept_toInlines children (by simpa [isPlacedAt, only] using held) inside

/-- The blocks of a cell have the atoms of its inlines. -/
theorem blocksAtoms_cellBlocks (inlines : List FlowDoc.Inline) :
    blocksAtoms (cellBlocks inlines) = inlinesAtoms inlines := by
  rw [cellBlocks]
  split
  · next empty =>
    rw [List.isEmpty_iff.mp empty]
    rfl
  · simp [blocksAtoms, blockAtoms]

theorem kept_cells : ∀ (cells : List Node) (isHeader : Bool), isPlacedAt (.row isHeader) cells = true →
    allNodes isPlacedAt cells = true →
      Kept (cellsAtoms (cells.map fun cell => ({ blocks := cellBlocks (toInlines cell.children) } : Cell FlowDoc.Block)))
        (nodesAtoms cells) (allNodes isIntactAt cells)
  | [], _, _, _ => .all []
  | .mk kind children :: cells, isHeader, held, placed => by
    obtain ⟨isCell, held⟩ := Bool.and_eq_true_iff.mp held
    obtain ⟨first, rest⟩ := allNodes_cons.mp placed
    cases kind with
    | cell =>
      have inner : Kept (blocksAtoms (cellBlocks (toInlines children))) (Node.mk .cell children).atoms
          ((Node.mk .cell children).all isIntactAt) := by
        rw [blocksAtoms_cellBlocks]
        exact kept_around .cell rfl (kept_inlinesOf (fun _ => rfl) first)
      exact inner.append (kept_cells cells isHeader held rest)
    | _ => cases isCell

theorem kept_rows : ∀ (rows : List Node) (alignments : List (Option ColumnAlignment)),
    isPlacedAt (.table alignments) rows = true → allNodes isPlacedAt rows = true →
      ∃ made, rows.mapM Node.toRow = .ok made ∧ Kept (rowsAtoms made) (nodesAtoms rows) (allNodes isIntactAt rows)
  | [], _, _, _ => ⟨[], rfl, .all []⟩
  | .mk kind cells :: rows, alignments, held, placed => by
    obtain ⟨isRow, held⟩ := Bool.and_eq_true_iff.mp held
    obtain ⟨first, rest⟩ := allNodes_cons.mp placed
    obtain ⟨cellsHeld, inside⟩ := all_mk.mp first
    obtain ⟨made, hmade, kept⟩ := kept_rows rows alignments held rest
    cases kind with
    | row isHeader =>
      have inner := kept_around (.row isHeader) rfl (kept_cells cells isHeader cellsHeld inside)
      refine ⟨⟨isHeader, _⟩ :: made, ?_, inner.append kept⟩
      rw [List.mapM_cons, hmade]
      rfl
    | _ => cases isRow

/-- The marker of a task has no atoms. -/
theorem blocksAtoms_addMarker (checked : Bool) (blocks : List FlowDoc.Block) :
    blocksAtoms (addMarker checked blocks) = blocksAtoms blocks := by
  unfold addMarker
  split <;> simp [blocksAtoms, blockAtoms, inlinesAtoms, inlineAtoms]

mutual

/-- **Blocks.** -/
theorem kept_toBlock? : ∀ n : Node, n.kind.isBlock = true → n.all isPlacedAt = true →
    ∃ block?, n.toBlock? = .ok block? ∧ Kept (blocksAtoms block?.toList) n.atoms (n.all isIntactAt)
  | .mk kind children, block, placed => by
    obtain ⟨held, inside⟩ := all_mk.mp placed
    have one : ∀ {b : FlowDoc.Block} {there : List Atom} {intact : Bool}, Kept (blockAtoms b) there intact →
        Kept (blocksAtoms [b]) there intact := fun h => by simpa [blocksAtoms] using h
    have leaf : (∀ child, kind.holds child = false) → children = [] := eq_nil_of_isPlacedAt held
    cases kind with
    | frontMatter =>
      obtain rfl := leaf fun _ => rfl
      exact ⟨none, rfl, kept_leaf .frontMatter rfl⟩
    | paragraph => exact ⟨_, rfl, one (kept_around .paragraph rfl (kept_inlinesOf (fun _ => rfl) placed))⟩
    | heading level => exact ⟨_, rfl, one (kept_around (.heading level) rfl (kept_inlinesOf (fun _ => rfl) placed))⟩
    | codeBlock info literal =>
      obtain rfl := leaf fun _ => rfl
      refine ⟨_, rfl, one ?_⟩
      rw [blockAtoms_ofLiteral]
      exact kept_leaf (.codeBlock info literal) rfl
    | htmlBlock literal =>
      obtain rfl := leaf fun _ => rfl
      exact ⟨_, rfl, one (kept_leaf (.htmlBlock literal) rfl)⟩
    | thematicBreak =>
      obtain rfl := leaf fun _ => rfl
      exact ⟨_, rfl, one (kept_leaf .thematicBreak rfl)⟩
    | quote =>
      obtain ⟨blocks, made, kept⟩ := kept_toBlocks children (by simpa [isPlacedAt, NodeKind.holds] using held) inside
      exact ⟨some (.quote blocks), by rw [Node.toBlock?, made]; rfl, one (kept_around .quote rfl kept)⟩
    | list start =>
      obtain ⟨items, made, kept⟩ := kept_toItems children start held inside
      exact ⟨some (.list start.isSome (start.map (min · startLimit)) items), by rw [Node.toBlock?, made]; rfl,
        one (kept_around (.list start) rfl kept)⟩
    | table alignments =>
      obtain ⟨rows, made, kept⟩ := kept_rows children alignments held inside
      exact ⟨some (.table (alignments.map fun a => ⟨Binary64.zero, a⟩) rows), by rw [Node.toBlock?, made]; rfl,
        one (kept_around (.table alignments) rfl kept)⟩
    | _ => cases block

theorem kept_toBlocks : ∀ ns : List Node, (∀ n ∈ ns, n.kind.isBlock = true) → allNodes isPlacedAt ns = true →
    ∃ blocks, toBlocks ns = .ok blocks ∧ Kept (blocksAtoms blocks) (nodesAtoms ns) (allNodes isIntactAt ns)
  | [], _, _ => ⟨[], rfl, .all []⟩
  | n :: ns, areBlocks, placed => by
    obtain ⟨block, areBlocks⟩ := List.forall_mem_cons.mp areBlocks
    obtain ⟨first, rest⟩ := allNodes_cons.mp placed
    obtain ⟨block?, made, kept⟩ := kept_toBlock? n block first
    obtain ⟨blocks, made', kept'⟩ := kept_toBlocks ns areBlocks rest
    refine ⟨block?.toList ++ blocks, by rw [toBlocks, made, made']; rfl, ?_⟩
    rw [blocksAtoms_append]
    exact kept.append kept'

theorem kept_toItem : ∀ (n : Node) (start : Option Nat), (NodeKind.list start).holds n.kind = true →
    n.all isPlacedAt = true →
      ∃ blocks, n.toItem = .ok blocks ∧ Kept (blocksAtoms blocks) n.atoms (n.all isIntactAt)
  | .mk kind children, start, item, placed => by
    obtain ⟨held, inside⟩ := all_mk.mp placed
    cases kind with
    | item =>
      obtain ⟨blocks, made, kept⟩ := kept_toBlocks children (by simpa [isPlacedAt, NodeKind.holds] using held) inside
      exact ⟨blocks, made, kept_around .item rfl kept⟩
    | task checked =>
      obtain ⟨blocks, made, kept⟩ := kept_toBlocks children (by simpa [isPlacedAt, NodeKind.holds] using held) inside
      refine ⟨addMarker checked blocks, by rw [Node.toItem, made]; rfl, ?_⟩
      rw [blocksAtoms_addMarker]
      exact kept_around (.task checked) rfl kept
    | _ => cases item

theorem kept_toItems : ∀ (ns : List Node) (start : Option Nat), isPlacedAt (.list start) ns = true →
    allNodes isPlacedAt ns = true →
      ∃ items, toItems ns = .ok items ∧ Kept (itemsAtoms items) (nodesAtoms ns) (allNodes isIntactAt ns)
  | [], _, _, _ => ⟨[], rfl, .all []⟩
  | n :: ns, start, held, placed => by
    obtain ⟨item, held⟩ := Bool.and_eq_true_iff.mp held
    obtain ⟨first, rest⟩ := allNodes_cons.mp placed
    obtain ⟨blocks, made, kept⟩ := kept_toItem n start item first
    obtain ⟨items, made', kept'⟩ := kept_toItems ns start held rest
    exact ⟨blocks :: items, by rw [toItems, made, made']; rfl, kept.append kept'⟩

end

/-- **What a document keeps.** A tree of nodes that are read, each where it belongs, becomes a document. The atoms of
the document are among those of the tree, in order; and they are all of them exactly if every link that shows its own
address has no title and holds nothing but letters. -/
theorem exists_toDocument_kept (blocks : List Node) (h : (Node.mk .document blocks).isPlaced = true) :
    ∃ d, (Node.mk .document blocks).toDocument = .ok d ∧
      (blocksAtoms d).Sublist (Node.mk .document blocks).atoms ∧
      (blocksAtoms d = (Node.mk .document blocks).atoms ↔ (Node.mk .document blocks).isIntact = true) := by
  obtain ⟨held, inside⟩ := all_mk.mp h
  obtain ⟨d, made, kept⟩ := kept_toBlocks blocks (by simpa [isPlacedAt, NodeKind.holds] using held) inside
  have whole := kept_around .document rfl kept
  exact ⟨d, made, whole.sublist, whole.eq_iff⟩

/-- A link around an image, with a title and code, that shows some other address than its own. -/
theorem exists_toDocument_kept_link : ∃ d,
    Node.toDocument (.mk .document [.mk (.list none) [.mk (.task true) [.mk .paragraph [.mk (.link ⟨"u", "t"⟩)
      [.mk (.text "a") [], .mk (.code "c") [], .mk (.image ⟨"i", ""⟩) []]]]]]) = .ok d ∧
    blocksAtoms d = [.link "u", .title "t", .letter 'a', .code "c", .image "i"] := by
  obtain ⟨d, made, -, kept⟩ := exists_toDocument_kept [.mk (.list none) [.mk (.task true) [.mk .paragraph
    [.mk (.link ⟨"u", "t"⟩) [.mk (.text "a") [], .mk (.code "c") [], .mk (.image ⟨"i", ""⟩) []]]]]] (by decide)
  exact ⟨d, made, kept.mpr (by decide)⟩

/-- The tree of a link that shows its own address, around code and with a title. -/
def titledAddress : Node :=
  .mk .document [.mk .paragraph [.mk (.link ⟨"a", "t"⟩) [.mk (.text "a") [], .mk (.code "b") []]]]

/-- The title and the code are lost. -/
theorem titledAddress_loses : titledAddress.isPlaced = true ∧ titledAddress.isIntact = false ∧
    titledAddress.atoms = [.link "a", .title "t", .letter 'a', .code "b"] ∧
    titledAddress.toDocument = .ok [.paragraph [.autolink "a" false]] ∧
    blocksAtoms [.paragraph [.autolink "a" false]] = [.link "a", .letter 'a'] :=
  ⟨rfl, rfl, rfl, rfl, rfl⟩

end FlowDoc.Markdown
