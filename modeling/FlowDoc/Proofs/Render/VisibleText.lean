import FlowDoc.Proofs.Render.Simulation
import FlowDoc.Proofs.Text.Ink

/-!
# The text of a rendered document

What a reader of a document sees as text is defined by recursion on it (`visibleBlocks`): texts, code, literal
delimiters, bare addresses and raw markup that is written as text, in order, and nothing of what stands for an image.
The text of the graph is the same but for white space (**`documentGraph_ink`**): styles, targets, tool tips and columns
are members that are not read, and what is read goes through `layout`, which keeps the ink.
-/

namespace FlowDoc.Render

open Xaml
open Text (Flow Laid Piece layout ink flowText laidText)

/-! ## What is seen -/

mutual

/-- The visible text of an inline. -/
def visibleInline (raw : RawMarkup) : Inline → String
  | .text s => s
  | .lineBreak _ => ""
  | .code s => s
  | .emphasis _ _ children => visibleInlines raw children
  | .delimiter literal children => literal ++ visibleInlines raw children
  | .link _ _ isImage children => if isImage then "" else visibleInlines raw children
  | .autolink url _ => url
  | .raw s => if raw = .text then s else ""
  | .task _ => ""
  | .custom _ children => visibleInlines raw children

def visibleInlines (raw : RawMarkup) : List Inline → String
  | [] => ""
  | i :: is => visibleInline raw i ++ visibleInlines raw is

end

mutual

/-- The visible text of a block. -/
def visibleBlock (raw : RawMarkup) : Block → String
  | .paragraph inlines => visibleInlines raw inlines
  | .heading _ inlines => visibleInlines raw inlines
  | .codeBlock _ lines => String.join lines
  | .list _ _ items => visibleItems raw items
  | .quote blocks => visibleBlocks raw blocks
  | .thematicBreak => ""
  | .table _ rows => visibleRows raw rows
  | .html literal => if raw = .text then literal else ""
  | .custom _ blocks inlines => visibleBlocks raw blocks ++ visibleInlines raw inlines

def visibleBlocks (raw : RawMarkup) : List Block → String
  | [] => ""
  | b :: bs => visibleBlock raw b ++ visibleBlocks raw bs

def visibleItems (raw : RawMarkup) : List (List Block) → String
  | [] => ""
  | i :: is => visibleBlocks raw i ++ visibleItems raw is

def visibleRows (raw : RawMarkup) : List (Row Block) → String
  | [] => ""
  | r :: rs => visibleRow raw r ++ visibleRows raw rs

def visibleRow (raw : RawMarkup) : Row Block → String
  | ⟨_, cells⟩ => visibleCells raw cells

def visibleCells (raw : RawMarkup) : List (Cell Block) → String
  | [] => ""
  | c :: cs => visibleCell raw c ++ visibleCells raw cs

def visibleCell (raw : RawMarkup) : Cell Block → String
  | ⟨_, _, _, blocks⟩ => visibleBlocks raw blocks

end

/-! ## What is read of a phrase -/

/-- The text of the object that a phrase describes. -/
def objectText (o : ObjectPhrase) : String := o.object.text

/-- The text of several objects. -/
def objectsText (objects : List ObjectPhrase) : String := String.join (objects.map objectText)

/-- The text of items. -/
def itemsText (items : List ItemPhrase) : String := nodesText (itemsNodes items)

/-- The text that the members of an object of a type add to it. -/
def phraseText (type : ElementType) (members : List MemberPhrase) : String := membersText (membersNodes type members)

/-- Whether a member adds its items to the text of an object of a type. -/
def isRead (type : ElementType) (m : Member) : Bool :=
  m.kind == .property && (Builder.isContentOf m type || m.name == "Text")

@[simp] theorem objectText_mk (type : ElementType) (members : List MemberPhrase) :
    objectText (.mk type members) = phraseText type members := by
  simp [objectText, ObjectPhrase.object, Object.text, phraseText]

@[simp] theorem objectsText_nil : objectsText [] = "" := rfl

@[simp] theorem objectsText_cons (o : ObjectPhrase) (os : List ObjectPhrase) :
    objectsText (o :: os) = objectText o ++ objectsText os := by
  simp [objectsText]

@[simp] theorem objectsText_append (os ps : List ObjectPhrase) :
    objectsText (os ++ ps) = objectsText os ++ objectsText ps := by
  simp [objectsText]

@[simp] theorem itemsText_nil : itemsText [] = "" := rfl

@[simp] theorem itemsText_cons (i : ItemPhrase) (is : List ItemPhrase) :
    itemsText (i :: is) = i.node.text ++ itemsText is := by
  simp [itemsText, itemsNodes, nodesText]

@[simp] theorem itemsText_append (is js : List ItemPhrase) : itemsText (is ++ js) = itemsText is ++ itemsText js := by
  induction is with
  | nil => simp
  | cons i is ih => simp [ih, String.append_assoc]

@[simp] theorem phraseText_nil (type : ElementType) : phraseText type [] = "" := rfl

@[simp] theorem phraseText_append (type : ElementType) (ms ns : List MemberPhrase) :
    phraseText type (ms ++ ns) = phraseText type ms ++ phraseText type ns := by
  induction ms with
  | nil => simp [phraseText, membersNodes, membersText]
  | cons m ms ih =>
    simp only [phraseText] at ih
    simp [phraseText, membersNodes, membersText, ih, String.append_assoc]

theorem phraseText_singleton (type : ElementType) (m : Member) (collection : Bool) (items : List ItemPhrase) :
    phraseText type [.mk m collection items] = if isRead type m then itemsText items else "" := by
  simp [phraseText, membersNodes, membersText, MemberPhrase.node, MemberNode.text, MemberNode.isText, isRead, itemsText,
    MemberNode.kind, MemberNode.isContent, MemberNode.name]

/-- A member that is not read adds nothing. -/
theorem phraseText_itemMember {type : ElementType} {member? : Option Member} (h : member?.any (isRead type) = false)
    (i : ItemPhrase) : phraseText type (itemMember member? i) = "" := by
  cases member? with
  | none => rfl
  | some m =>
    have unread : isRead type m = false := h
    simp [itemMember, phraseText_singleton, unread]

theorem phraseText_valueMember (type : ElementType) (name : String)
    (h : (type.member? name).any (isRead type) = false) (v : Scalar) : phraseText type (valueMember type name v) = "" :=
  phraseText_itemMember h _

theorem phraseText_valueMember? (type : ElementType) (name : String)
    (h : (type.member? name).any (isRead type) = false) (v : Option Scalar) :
    phraseText type (valueMember? type name v) = "" := by
  cases v with
  | none => rfl
  | some v => exact phraseText_valueMember type name h v

/-- No style is read. -/
@[simp] theorem phraseText_styleMember (theme : Style.Theme) (type : ElementType) (r : Style.Role) :
    phraseText type (styleMember theme type r) = "" := by
  refine phraseText_itemMember ?_ _
  cases type <;> decide

theorem phraseText_collect (type : ElementType) (m : Member) (items : List ItemPhrase) :
    phraseText type (MemberPhrase.collect m items) = if isRead type m then itemsText items else "" := by
  cases items with
  | nil => simp [MemberPhrase.collect]
  | cons i is => exact phraseText_singleton type m true (i :: is)

/-- Content is read. -/
theorem phraseText_content (type : ElementType) (h : type.content?.any (isRead type) = true) (items : List ItemPhrase) :
    phraseText type (contentMember type items) = itemsText items := by
  cases hc : type.content? with
  | none => rw [hc] at h; cases h
  | some m =>
    have read : isRead type m = true := by simpa [hc] using h
    simp [contentMember, hc, phraseText_collect, read]

theorem itemsText_objectItems (objects : List ObjectPhrase) :
    itemsText (objectItems objects) = objectsText objects := by
  induction objects with
  | nil => rfl
  | cons o os ih =>
    have rest : itemsText (os.map ItemPhrase.object) = objectsText os := ih
    simp [objectItems, rest, ItemPhrase.node, Node.text, objectText]

/-- A piece reads as its text, be it a value or a run. -/
theorem text_ofPiece (p : Piece) : (ItemPhrase.ofPiece p).node.text = p.text := by
  cases p with
  | value s => simp [ItemPhrase.ofPiece, ItemPhrase.node, Node.text, Scalar.display, Piece.text]
  | verbatim s =>
    simp [ItemPhrase.ofPiece, ItemPhrase.node, Node.text, ObjectPhrase.object, Object.text, membersNodes, membersText,
      MemberPhrase.node, MemberNode.text, MemberNode.isText, MemberNode.kind, MemberNode.isContent, MemberNode.name,
      runText, itemsNodes, nodesText, Scalar.display, Piece.text]

theorem itemsText_runOf (s : String) : itemsText (runOf s) = s := by
  by_cases hs : s = ""
  · simp [runOf, hs]
  · have run : runOf s = [ItemPhrase.ofPiece (.verbatim s)] := by simp [runOf, hs, ItemPhrase.ofPiece]
    simp [run, text_ofPiece, Piece.text]

theorem itemsText_ofLaid (items : List (Laid ObjectPhrase)) :
    itemsText (items.map .ofLaid) = laidText objectText items := by
  induction items with
  | nil => rfl
  | cons l items ih =>
    have first : (ItemPhrase.ofLaid l).node.text = l.read objectText := by
      cases l with
      | piece p => exact text_ofPiece p
      | child o => simp [ItemPhrase.ofLaid, ItemPhrase.node, Node.text, Laid.read, objectText]
    simp [ih, first, laidText]

/-- Collapsed items have the ink of their flow. -/
theorem ink_collapsedItems (flow : List (Flow ObjectPhrase)) :
    ink (itemsText (collapsedItems flow)) = ink (flowText objectText flow) := by
  rw [collapsedItems, itemsText_ofLaid, Text.ink_layout]

/-! ## Inlines -/

/-- A link reads as what is in it. -/
theorem objectText_linkObject (theme : Style.Theme) (target : String) (title : Option String)
    (items : List ItemPhrase) : objectText (linkObject theme target title items) = itemsText items := by
  have uri := phraseText_valueMember .hyperlink "NavigateUri" (by decide) (.uri target)
  have tip := phraseText_valueMember .hyperlink "ToolTip" (by decide) (.text (title.getD target))
  simp [linkObject, uri, tip, phraseText_content .hyperlink (by decide)]

/-- Nothing is read of an image. -/
theorem objectText_imageObject (theme : Style.Theme) (target : String) (title : Option String) :
    objectText (imageObject theme target title) = "" := by
  have uri := phraseText_valueMember .image "Source" (by decide) (.uri target)
  cases title with
  | none => simp [imageObject, uri]
  | some title =>
    have tip : phraseText .image
        (itemMember (getAttached "ToolTipService" "ToolTip").toOption (.value (.text title))) = "" :=
      phraseText_itemMember (by decide) _
    simp [imageObject, uri, tip]

mutual

/-- **Inlines.** The flow of an inline has the ink of its visible text. -/
theorem ink_inline (o : Options) :
    ∀ i : Inline, ink (flowText objectText (flattenInline o i)) = ink (visibleInline o.rawMarkup i)
  | .text s => by simp [flattenInline, visibleInline, Flow.read]
  | .lineBreak hard => by
    cases hard with
    | true => simp [flattenInline, visibleInline, Flow.read]
    | false =>
      have space : ink " " = [] := by decide
      simp [flattenInline, visibleInline, Flow.read, space]
  | .code s => by
    have content := phraseText_content .span (by decide) (runOf s)
    simp [flattenInline, visibleInline, Flow.read, content, itemsText_runOf]
  | .emphasis delimiter count children => by
    have inner := ink_inlines o children
    rw [flattenInline, visibleInline]
    cases ht : emphasisTarget delimiter count with
    | element type =>
      have content : type.content?.any (isRead type) = true := by
        rcases emphasisTarget_element ht with rfl | rfl <;> decide
      simp [Flow.read, phraseText_content type content, ink_collapsedItems, inner]
    | styled role =>
      have content := phraseText_content .span (by decide) (collapsedItems (flattenInlines o children))
      simp [Flow.read, content, ink_collapsedItems, inner]
    | unwrapped => exact inner
  | .delimiter literal children => by
    have inner := ink_inlines o children
    simp [flattenInline, visibleInline, Flow.read, inner]
  | .link url title isImage children => by
    have inner := ink_inlines o children
    cases isImage with
    | true => simp [flattenInline, visibleInline, Flow.read, objectText_imageObject]
    | false => simp [flattenInline, visibleInline, Flow.read, objectText_linkObject, ink_collapsedItems, inner]
  | .autolink url isEmail => by
    simp [flattenInline, visibleInline, Flow.read, objectText_linkObject, ink_collapsedItems]
  | .raw s => by
    rw [flattenInline, visibleInline]
    split <;> simp [Flow.read]
  | .task checked => by
    have tag := phraseText_valueMember .span "Tag" (by decide) (.bool checked)
    simp [flattenInline, visibleInline, Flow.read, tag]
  | .custom kind children => ink_inlines o children

theorem ink_inlines (o : Options) :
    ∀ is : List Inline, ink (flowText objectText (flattenInlines o is)) = ink (visibleInlines o.rawMarkup is)
  | [] => rfl
  | i :: is => by
    have first := ink_inline o i
    have rest := ink_inlines o is
    simp [flattenInlines, visibleInlines, first, rest]

end

/-! ## Blocks -/

/-- A paragraph of inlines, whatever else it has. -/
theorem ink_inlineItems (o : Options) (inlines : List Inline) :
    ink (phraseText .paragraph (contentMember .paragraph (inlineItems o inlines))) =
      ink (visibleInlines o.rawMarkup inlines) := by
  rw [phraseText_content .paragraph (by decide), inlineItems, ink_collapsedItems, ink_inlines]

theorem ink_intercalate (lines : List String) : ink (String.intercalate "\n" lines) = ink (String.join lines) := by
  have separator : ink "\n" = [] := by decide
  induction lines with
  | nil => rfl
  | cons l ls ih =>
    cases ls with
    | nil => simp
    | cons k ks =>
      rw [String.intercalate_cons_cons]
      simp [ih, separator]

/-- Lines of code, joined in either way. -/
theorem ink_codeItems (join : LineJoin) (lines : List String) :
    ink (itemsText (codeItems join lines)) = ink (String.join lines) := by
  cases join with
  | newline => rw [codeItems, itemsText_runOf, ink_intercalate]
  | lineBreak =>
    cases lines with
    | nil => rfl
    | cons l ls =>
      have rest : itemsText (ls.flatMap fun l => ItemPhrase.object (.mk .lineBreak []) :: runOf l) =
          String.join ls := by
        induction ls with
        | nil => rfl
        | cons k ks ih =>
          have broken : (ItemPhrase.object (.mk .lineBreak [])).node.text = "" := rfl
          simp [ih, itemsText_runOf, broken]
      simp [codeItems, itemsText_runOf, rest]

theorem objectsText_wrappedInlines (o : Options) (inlines : List Inline) :
    ink (objectsText (wrappedInlines o inlines)) = ink (visibleInlines o.rawMarkup inlines) := by
  cases inlines with
  | nil => rfl
  | cons i is => simp [wrappedInlines, ink_inlineItems]

/-- No marker of a list is read. -/
theorem phraseText_markerMembers (ordered : Bool) (start : Option Nat) :
    phraseText .list (markerMembers ordered start) = "" := by
  have marker := fun v => phraseText_valueMember .list "MarkerStyle" (by decide) v
  cases ordered with
  | true =>
    have index := fun v => phraseText_valueMember? .list "StartIndex" (by decide) v
    simp [markerMembers, marker, index]
  | false => simp [markerMembers, marker]

/-- No column of a table is read. -/
theorem phraseText_columnMember (columns : List Column) : phraseText .table (columnMember columns) = "" := by
  have unread : (ElementType.member? .table "Columns").any (isRead .table) = false := by decide
  rw [columnMember]
  cases hm : ElementType.member? .table "Columns" with
  | none => rfl
  | some m =>
    have hm' : isRead .table m = false := by simpa [hm] using unread
    simp [phraseText_collect, hm']

mutual

/-- **Blocks.** The objects of a block have the ink of its visible text. -/
theorem ink_block (o : Options) :
    ∀ b : Block, ink (objectsText (translateBlock o b)) = ink (visibleBlock o.rawMarkup b)
  | .paragraph inlines => by simp [translateBlock, visibleBlock, ink_inlineItems]
  | .heading level inlines => by simp [translateBlock, visibleBlock, ink_inlineItems]
  | .codeBlock info lines => by
    have content := phraseText_content .paragraph (by decide) (codeItems o.lineJoin lines)
    simp [translateBlock, visibleBlock, content, ink_codeItems]
  | .list ordered start items => by
    have inner := ink_items o items
    simp [translateBlock, visibleBlock, phraseText_markerMembers, phraseText_content .list (by decide),
      itemsText_objectItems, inner]
  | .quote blocks => by
    have inner := ink_blocks o blocks
    simp [translateBlock, visibleBlock, phraseText_content .sectionElement (by decide),
      itemsText_objectItems, inner]
  | .thematicBreak => by simp [translateBlock, visibleBlock]
  | .table columns rows => by
    have inner := ink_rows o columns rows
    have group : itemsText [ItemPhrase.object (.mk .tableRowGroup (contentMember .tableRowGroup
        (objectItems (translateRows o columns rows))))] = objectsText (translateRows o columns rows) := by
      have items := itemsText_objectItems [.mk .tableRowGroup (contentMember .tableRowGroup
        (objectItems (translateRows o columns rows)))]
      rw [objectItems, List.map_singleton] at items
      simp [items, phraseText_content .tableRowGroup (by decide), itemsText_objectItems]
    simp only [translateBlock, visibleBlock, objectsText_cons, objectsText_nil, objectText_mk, phraseText_append,
      phraseText_styleMember, phraseText_columnMember, phraseText_content .table (by decide), group]
    simpa using inner
  | .html literal => by
    rw [translateBlock, visibleBlock]
    split
    · simp [phraseText_content .paragraph (by decide), ink_collapsedItems, Flow.read]
    · rfl
  | .custom kind blocks inlines => by
    have inner := ink_blocks o blocks
    simp [translateBlock, visibleBlock, inner, objectsText_wrappedInlines]

theorem ink_blocks (o : Options) :
    ∀ bs : List Block, ink (objectsText (translateBlocks o bs)) = ink (visibleBlocks o.rawMarkup bs)
  | [] => rfl
  | b :: bs => by
    have first := ink_block o b
    have rest := ink_blocks o bs
    simp [translateBlocks, visibleBlocks, first, rest]

theorem ink_items (o : Options) :
    ∀ items : List (List Block), ink (objectsText (translateItems o items)) = ink (visibleItems o.rawMarkup items)
  | [] => rfl
  | i :: is => by
    have first := ink_blocks o i
    have rest := ink_items o is
    simp [translateItems, visibleItems, phraseText_content .listItem (by decide), itemsText_objectItems,
      first, rest]

theorem ink_rows (o : Options) (columns : List Column) :
    ∀ rows : List (Row Block), ink (objectsText (translateRows o columns rows)) = ink (visibleRows o.rawMarkup rows)
  | [] => rfl
  | r :: rs => by
    have first := ink_row o columns r
    have rest := ink_rows o columns rs
    simp only [translateRows, visibleRows, objectsText_cons, Text.ink_append, first, rest]

theorem ink_row (o : Options) (columns : List Column) :
    ∀ r : Row Block, ink (objectText (translateRow o columns r)) = ink (visibleRow o.rawMarkup r)
  | ⟨isHeader, cells⟩ => by
    have inner := ink_cells o columns 0 cells
    have header : phraseText .tableRow (if isHeader then styleMember o.theme .tableRow .tableHeader else []) = "" := by
      cases isHeader with
      | true => exact phraseText_styleMember _ _ _
      | false => rfl
    simp [translateRow, visibleRow, header, phraseText_content .tableRow (by decide), itemsText_objectItems,
      inner]

theorem ink_cells (o : Options) (columns : List Column) (position : Nat) :
    ∀ cells : List (Cell Block),
      ink (objectsText (translateCells o columns position cells)) = ink (visibleCells o.rawMarkup cells)
  | [] => rfl
  | c :: cs => by
    have first := ink_cell o columns position c
    have rest := ink_cells o columns (position + 1) cs
    simp only [translateCells, visibleCells, objectsText_cons, Text.ink_append, first, rest]

theorem ink_cell (o : Options) (columns : List Column) (position : Nat) :
    ∀ c : Cell Block, ink (objectText (translateCell o columns position c)) = ink (visibleCell o.rawMarkup c)
  | ⟨column, columnSpan, rowSpan, blocks⟩ => by
    have inner := ink_blocks o blocks
    have columns' := fun v => phraseText_valueMember? .tableCell "ColumnSpan" (by decide) v
    have rows := fun v => phraseText_valueMember? .tableCell "RowSpan" (by decide) v
    have alignment := fun v => phraseText_valueMember? .tableCell "TextAlignment" (by decide) v
    simp [translateCell, visibleCell, columns', rows, alignment, phraseText_content .tableCell (by decide),
      itemsText_objectItems, inner]

end

/-! ## Documents -/

/-- The text of the translation of a document. -/
theorem ink_translation (o : Options) (d : Document) :
    ink (translation o d).root.text = ink (visibleBlocks o.rawMarkup d) := by
  have root : (translation o d).root.text = objectsText (translateBlocks o d) := by
    have text : (translation o d).root.text = objectText (translateDocument o d) := rfl
    rw [text, translateDocument]
    simp [phraseText_content .flowDocument (by decide), itemsText_objectItems]
  rw [root, ink_blocks]

/-- The graph of a document is that of its signals. -/
theorem signals_of_documentGraph {h : Handlers} {o : Options} {d : Document} {g : Graph}
    (hg : documentGraph h o d = .ok g) :
    ∃ signals, documentSignals h o .native d = .ok signals ∧ Graph.ofSignals signals = .ok g := by
  rw [documentGraph] at hg
  cases hs : documentSignals h o .native d with
  | error e => rw [hs] at hg; cases hg
  | ok signals => rw [hs] at hg; exact ⟨signals, rfl, hg⟩

/-- **The text of a document.** Whenever a document can be rendered with the built-in handlers and without replaying raw
markup, the text of its graph and the visible text of the document are the same but for white space. -/
theorem documentGraph_ink {o : Options} (ho : o.rawMarkup ≠ .replay) {d : Document} {g : Graph}
    (h : documentGraph .builtIn o d = .ok g) : ink g.root.text = ink (visibleBlocks o.rawMarkup d) := by
  obtain ⟨signals, sent, received⟩ := signals_of_documentGraph h
  rw [documentSignals_eq ho sent, Graph.ofSignals_phrase] at received
  cases received
  exact ink_translation o d

/-- Delimiters and raw markup are seen, what stands for an image is not. -/
theorem documentGraph_ink_quote :
    ∃ g, documentGraph .builtIn { rawMarkup := .text }
        [.quote [.paragraph [.text " a ", .delimiter "**" [.emphasis '*' 1 [.text "b "]], .raw "&c;",
          .link "u" (some "t") true [.text "e"]]], .html "<d/>"] = .ok g ∧
      ink g.root.text = "a**b&c;<d/>".toList := by
  have found : (documentGraph .builtIn { rawMarkup := .text }
      [.quote [.paragraph [.text " a ", .delimiter "**" [.emphasis '*' 1 [.text "b "]], .raw "&c;",
          .link "u" (some "t") true [.text "e"]]], .html "<d/>"]).isOk = true := by decide +kernel
  cases hg : documentGraph .builtIn { rawMarkup := .text }
      [.quote [.paragraph [.text " a ", .delimiter "**" [.emphasis '*' 1 [.text "b "]], .raw "&c;",
          .link "u" (some "t") true [.text "e"]]], .html "<d/>"] with
  | error e => rw [hg] at found; cases found
  | ok g => exact ⟨g, rfl, (documentGraph_ink (by decide) hg).trans (by decide)⟩

end FlowDoc.Render
