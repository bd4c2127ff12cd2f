import FlowDoc.Proofs.Render.Filling
import FlowDoc.Proofs.Xaml.Reception

/-!
# Rendering is translation

The built-in handlers put into the collections around them what the translation says: `puts_inline` and `puts_block`,
by recursion on the tree. For a whole document the graph is that of its translation (**`documentGraph_eq`**), as long as
raw markup is not replayed.
-/

namespace FlowDoc.Render

open Xaml
open Text (Flow layout)

variable {o : Options}

/-! ## Handlers of kinds -/

theorem fails_mismatch (kind : String) : Fails (mismatch kind) := fun v => ⟨_, v, rfl⟩

/-- A handler is among those of its list. -/
theorem mem_of_lookup {α : Type} {kind : String} {a : α} :
    ∀ {l : List (String × α)}, l.lookup kind = some a → (kind, a) ∈ l
  | [], h => by cases h
  | (k, b) :: l, h => by
    rw [List.lookup_cons] at h
    by_cases hk : (kind == k) = true
    · rw [hk] at h
      obtain rfl : kind = k := by simpa using hk
      cases h
      exact List.mem_cons_self
    · have hk' : (kind == k) = false := by simpa using hk
      rw [hk'] at h
      exact List.mem_cons_of_mem _ (mem_of_lookup h)

/-- A custom inline of a built-in kind is no node of that kind. -/
theorem fails_inline_custom {kind : String} {handler : InlineHandler}
    (h : Handlers.builtIn.inline? kind = some handler) (kind' : String) (children : List (Write Unit)) :
    Fails (handler o (.custom kind' children)) := by
  have hm := mem_of_lookup h
  simp only [Handlers.builtIn, List.mem_cons, Prod.mk.injEq, List.not_mem_nil, or_false] at hm
  rcases hm with ⟨-, rfl⟩ | ⟨-, rfl⟩ | ⟨-, rfl⟩ | ⟨-, rfl⟩ | ⟨-, rfl⟩ | ⟨-, rfl⟩ | ⟨-, rfl⟩ | ⟨-, rfl⟩ | ⟨-, rfl⟩ <;>
    exact fails_mismatch _

theorem fails_block_custom {kind : String} {handler : BlockHandler} (h : Handlers.builtIn.block? kind = some handler)
    (kind' : String) (blocks inlines : List (Write Unit)) : Fails (handler o (.custom kind' blocks inlines)) := by
  have hm := mem_of_lookup h
  simp only [Handlers.builtIn, List.mem_cons, Prod.mk.injEq, List.not_mem_nil, or_false] at hm
  rcases hm with ⟨-, rfl⟩ | ⟨-, rfl⟩ | ⟨-, rfl⟩ | ⟨-, rfl⟩ | ⟨-, rfl⟩ | ⟨-, rfl⟩ | ⟨-, rfl⟩ | ⟨-, rfl⟩ <;>
    exact fails_mismatch _

/-! ## Inlines -/

variable {theme : Style.Theme}

theorem content_false {type : ElementType} {ws : List (Write Unit)} {flow : List (Flow ObjectPhrase)}
    (hb : Puts theme (inOrder ws) flow) :
    Builds theme type (content false ws) (contentMember type (collapsedItems flow)) := Builds.content false hb

/-- One text that is preserved is one run. -/
theorem content_true {type : ElementType} (s : String) :
    Builds theme type (content true [Write.text s]) (contentMember type (runOf s)) := by
  have items : (layout .preserve [Flow.text s]).map ItemPhrase.ofLaid = runOf s := by
    rw [map_ofLaid_layout_preserve]
    simp [Text.gaps]
  rw [← items]
  exact Builds.content true (Puts.text s).inOrder_singleton

theorem builds_hyperlink {target : String} {title : Option String} {body : Write Unit} {items : List ItemPhrase}
    (hb : Builds theme .hyperlink body (contentMember .hyperlink items)) :
    Puts theme (hyperlink target title body) [.child (linkObject theme target title items)] := by
  have members := (Builds.style .hyperlink).bind ((Builds.member "NavigateUri" (.uri target)).bind
    ((Builds.member "ToolTip" (.text (title.getD target))).bind hb))
  simp only [← List.append_assoc] at members
  exact Puts.object members

theorem puts_image (target : String) (title : Option String) :
    Puts theme (image target title) [.child (imageObject theme target title)] := by
  cases title with
  | none =>
    have members : Builds theme .image _ _ := (Builds.style .image).bind
      (Builds.nil.bind (Builds.member "Source" (.uri target)))
    simp only [← List.append_assoc] at members
    exact Puts.object members
  | some title =>
    have tip : Builds theme .image (Write.member (.attached "ToolTipService" "ToolTip") (.text title))
        (itemMember (getAttached "ToolTipService" "ToolTip").toOption (.value (.text title))) :=
      Builds.of_member fun _ _ _ _ _ hm => resolve_attached hm
    have members := (Builds.style .image).bind (tip.bind (Builds.member "Source" (.uri target)))
    simp only [← List.append_assoc] at members
    exact Puts.object members

/-- Emphasis becomes an element only where it is bold or italic. -/
theorem emphasisTarget_element {delimiter : Char} {count : Nat} {type : ElementType}
    (h : emphasisTarget delimiter count = .element type) : type = .bold ∨ type = .italic := by
  unfold emphasisTarget at h
  split at h
  · split at h
    · cases h; exact Or.inl rfl
    · split at h
      · cases h; exact Or.inr rfl
      · cases h
  · repeat' split at h
    all_goals cases h

mutual

/-- **Inlines.** An inline puts its flow into the collection around it. -/
theorem puts_inline (o : Options) (ho : o.rawMarkup ≠ .replay) :
    ∀ i : Inline, Puts o.theme (renderInline .builtIn o i) (flattenInline o i)
  | .text s => Puts.text s
  | .lineBreak hard => by
    cases hard with
    | true => exact Puts.lineBreak
    | false => exact Puts.char ' '
  | .code s => Puts.object ((Builds.style .code).bind (content_true s))
  | .emphasis delimiter count children => by
    have inner : ∀ type, Builds o.theme type (content false (renderInlines .builtIn o children)) _ :=
      fun _ => content_false (puts_inlines o ho children)
    have handled : renderInline .builtIn o (.emphasis delimiter count children) =
        emphasis o (.emphasis delimiter count (renderInlines .builtIn o children)) := rfl
    rw [handled, emphasis, flattenInline]
    cases emphasisTarget delimiter count with
    | element type => exact Puts.object (inner type)
    | styled role => exact Puts.object ((Builds.style role).bind (inner .span))
    | unwrapped => exact puts_inlines o ho children
  | .delimiter literal children => (Puts.literal literal).bind (puts_inlines o ho children)
  | .link url title isImage children => by
    cases isImage with
    | true => exact puts_image _ _
    | false => exact builds_hyperlink (content_false (puts_inlines o ho children))
  | .autolink url isEmail => builds_hyperlink (content_false (Puts.text url).inOrder_singleton)
  | .raw s => by
    have handled : renderInline .builtIn o (.raw s) = rawInline o (.raw s) := rfl
    rw [handled, rawInline, flattenInline]
    cases hr : o.rawMarkup with
    | replay => exact absurd hr ho
    | text => exact Puts.literal s
    | skip => exact Puts.nil
  | .task checked => Puts.object ((Builds.style .taskList).bind (Builds.member "Tag" (.bool checked)))
  | .custom kind children => by
    rw [renderInline, handleInline, flattenInline]
    cases hk : Handlers.builtIn.inline? kind with
    | some handler => exact Puts.of_fails (fails_inline_custom hk kind _)
    | none => exact puts_inlines o ho children

theorem puts_inlines (o : Options) (ho : o.rawMarkup ≠ .replay) :
    ∀ is : List Inline, Puts o.theme (inOrder (renderInlines .builtIn o is)) (flattenInlines o is)
  | [] => Puts.nil
  | i :: is => (puts_inline o ho i).inOrder_cons (puts_inlines o ho is)

end

/-! ## Blocks -/

/-- What is put between two lines of code. -/
def separatorFlow : LineJoin → Flow ObjectPhrase
  | .newline => .text "\n"
  | .lineBreak => .child (.mk .lineBreak [])

/-- The lines of code as a flow. -/
def codeFlow (join : LineJoin) : List String → List (Flow ObjectPhrase)
  | [] => []
  | [l] => [.text l]
  | l :: ls => .text l :: separatorFlow join :: codeFlow join ls

theorem adds_separator (join : LineJoin) : Adds join.separator [separatorFlow join] := by
  cases join with
  | newline => exact Adds.char '\n'
  | lineBreak => exact Adds.lineBreak

theorem adds_codeLines (join : LineJoin) : ∀ lines, Adds (inOrder (codeLines join lines)) (codeFlow join lines)
  | [] => Adds.nil
  | [l] => (Adds.text l).inOrder_cons Adds.nil
  | l :: k :: ls => (Adds.text l).inOrder_cons ((adds_separator join).inOrder_cons (adds_codeLines join (k :: ls)))

theorem gaps_codeFlow_newline : ∀ lines, Text.gaps (codeFlow .newline lines) = (String.intercalate "\n" lines, [])
  | [] => rfl
  | [l] => by simp [codeFlow, Text.gaps]
  | l :: k :: ls => by
    have ih := gaps_codeFlow_newline (k :: ls)
    rw [String.intercalate_cons_cons, codeFlow, separatorFlow, Text.gaps, Text.gaps, ih, String.append_assoc]
    simp

theorem gaps_codeFlow_lineBreak (l : String) : ∀ ls,
    Text.gaps (codeFlow .lineBreak (l :: ls)) = (l, ls.map fun l => (.mk .lineBreak [], l))
  | [] => by simp [codeFlow, Text.gaps]
  | k :: ls => by
    have ih := gaps_codeFlow_lineBreak k ls
    simp [codeFlow, separatorFlow, Text.gaps, ih]

/-- The layout of lines of code. -/
theorem layout_codeFlow (join : LineJoin) (lines : List String) :
    (layout .preserve (codeFlow join lines)).map ItemPhrase.ofLaid = codeItems join lines := by
  rw [map_ofLaid_layout_preserve]
  cases join with
  | newline => simp [gaps_codeFlow_newline, codeItems]
  | lineBreak =>
    cases lines with
    | nil => rfl
    | cons l ls => rw [gaps_codeFlow_lineBreak, codeItems, List.flatMap_map]

/-- A collection of objects. -/
theorem content_objects {type : ElementType} {ws : List (Write Unit)} {objects : List ObjectPhrase}
    (hb : Puts theme (inOrder ws) (objects.map .child)) :
    Builds theme type (content false ws) (contentMember type (objectItems objects)) := by
  have items : collapsedItems (objects.map .child) = objectItems objects := by
    rw [collapsedItems, Text.layout_children, List.map_map]
    rfl
  rw [← items]
  exact content_false hb

theorem builds_markers (ordered : Bool) (start : Option Nat) :
    Builds theme .list (listMembers ordered start) (markerMembers ordered start) := by
  cases ordered with
  | true => exact (Builds.member _ _).bind (Builds.member? _ _)
  | false => exact Builds.member _ _

theorem puts_column (c : Column) : Puts theme (tableColumn c) [.child (columnObject c)] :=
  Puts.object (Builds.member _ _)

theorem puts_columns : ∀ columns : List Column,
    Puts theme (inOrder (columns.map tableColumn)) ((columns.map columnObject).map .child)
  | [] => Puts.inOrder_nil
  | c :: cs => (puts_column c).inOrder_cons (puts_columns cs)

theorem builds_columns (columns : List Column) :
    Builds theme .table (do Write.startItems (.name "Columns") false; inOrder (columns.map tableColumn); Write.endItems)
      (columnMember columns) := by
  have built : Builds theme .table _ _ := Builds.items "Columns" false (puts_columns columns)
  have items : ((layout (.ofPreserve false) ((columns.map columnObject).map .child)).map ItemPhrase.ofLaid) =
      objectItems (columns.map columnObject) := by
    rw [Text.layout_children, List.map_map]
    rfl
  rw [items] at built
  exact built

/-- Inlines among blocks are put into a paragraph. -/
theorem puts_wrapInlines (o : Options) (ho : o.rawMarkup ≠ .replay) : ∀ is : List Inline,
    Puts o.theme (wrapInlines (renderInlines .builtIn o is)) ((wrappedInlines o is).map .child)
  | [] => Puts.nil
  | i :: is => Puts.object (content_false (puts_inlines o ho (i :: is)))

mutual

/-- **Blocks.** A block puts its objects into the collection around it. -/
theorem puts_block (o : Options) (ho : o.rawMarkup ≠ .replay) :
    ∀ b : Block, Puts o.theme (renderBlock .builtIn o b) ((translateBlock o b).map .child)
  | .paragraph inlines => Puts.object (content_false (puts_inlines o ho inlines))
  | .heading level inlines =>
    Puts.object ((Builds.style (Style.Role.heading level)).bind (content_false (puts_inlines o ho inlines)))
  | .codeBlock info lines => by
    have code : Builds o.theme .paragraph _ _ := Builds.content true (Puts.of_adds (adds_codeLines o.lineJoin lines))
    have items : (layout (.ofPreserve true) (codeFlow o.lineJoin lines)).map ItemPhrase.ofLaid =
        codeItems o.lineJoin lines := layout_codeFlow o.lineJoin lines
    rw [items] at code
    exact Puts.object ((Builds.style .codeBlock).bind code)
  | .list ordered start items =>
    Puts.object ((builds_markers ordered start).bind (content_objects (puts_items o ho items)))
  | .quote blocks => Puts.object ((Builds.style .quoteBlock).bind (content_objects (puts_blocks o ho blocks)))
  | .thematicBreak => Puts.object (Builds.style .thematicBreak)
  | .table columns rows => by
    have group : Puts o.theme _ ([ObjectPhrase.mk .tableRowGroup _].map Flow.child) :=
      Puts.object (content_objects (puts_rows o ho columns rows))
    have members : Builds o.theme .table _ _ := (Builds.style .table).bind
      ((builds_columns columns).bind (content_objects group.inOrder_singleton))
    simp only [bind_assoc, ← List.append_assoc] at members
    exact Puts.object members
  | .html literal => by
    have handled : renderBlock .builtIn o (.html literal) = htmlBlock o (.html literal) := rfl
    rw [handled, htmlBlock, translateBlock]
    cases hr : o.rawMarkup with
    | replay => exact absurd hr ho
    | text => exact Puts.object (content_false (Puts.text literal).inOrder_singleton)
    | skip => exact Puts.nil
  | .custom kind blocks inlines => by
    rw [renderBlock, handleBlock, translateBlock, List.map_append]
    cases hk : Handlers.builtIn.block? kind with
    | some handler => exact Puts.of_fails (fails_block_custom hk kind _ _)
    | none => exact (puts_blocks o ho blocks).bind (puts_wrapInlines o ho inlines)

theorem puts_blocks (o : Options) (ho : o.rawMarkup ≠ .replay) :
    ∀ bs : List Block, Puts o.theme (inOrder (renderBlocks .builtIn o bs)) ((translateBlocks o bs).map .child)
  | [] => Puts.nil
  | b :: bs => by
    rw [translateBlocks, List.map_append]
    exact (puts_block o ho b).inOrder_cons (puts_blocks o ho bs)

theorem puts_items (o : Options) (ho : o.rawMarkup ≠ .replay) : ∀ items : List (List Block),
    Puts o.theme (inOrder ((renderItems .builtIn o items).map fun blocks => object .listItem (content false blocks)))
      ((translateItems o items).map .child)
  | [] => Puts.nil
  | i :: is => (Puts.object (content_objects (puts_blocks o ho i))).inOrder_cons (puts_items o ho is)

theorem puts_rows (o : Options) (ho : o.rawMarkup ≠ .replay) (columns : List Column) : ∀ rows : List (Row Block),
    Puts o.theme (inOrder ((renderRows .builtIn o rows).map (tableRow columns)))
      ((translateRows o columns rows).map .child)
  | [] => Puts.nil
  | r :: rs => (puts_row o ho columns r).inOrder_cons (puts_rows o ho columns rs)

theorem puts_row (o : Options) (ho : o.rawMarkup ≠ .replay) (columns : List Column) :
    ∀ r : Row Block, Puts o.theme (tableRow columns (renderRow .builtIn o r)) [.child (translateRow o columns r)]
  | ⟨isHeader, cells⟩ => by
    have inner : Builds o.theme .tableRow _ _ := content_objects (puts_cells o ho columns 0 cells)
    cases isHeader with
    | true => exact Puts.object ((Builds.style .tableHeader).bind inner)
    | false => exact Puts.object (Builds.nil.bind inner)

theorem puts_cells (o : Options) (ho : o.rawMarkup ≠ .replay) (columns : List Column) (position : Nat) :
    ∀ cells : List (Cell Block),
      Puts o.theme (inOrder (tableCells columns position (renderCells .builtIn o cells)))
        ((translateCells o columns position cells).map .child)
  | [] => Puts.nil
  | c :: cs => (puts_cell o ho columns position c).inOrder_cons (puts_cells o ho columns (position + 1) cs)

theorem puts_cell (o : Options) (ho : o.rawMarkup ≠ .replay) (columns : List Column) (position : Nat) :
    ∀ c : Cell Block,
      Puts o.theme (tableCell columns position (renderCell .builtIn o c)) [.child (translateCell o columns position c)]
  | ⟨column, columnSpan, rowSpan, blocks⟩ => by
    have members : Builds o.theme .tableCell _ _ := (Builds.style .tableCell).bind
      ((Builds.member? "ColumnSpan" (spanValue columnSpan)).bind ((Builds.member? "RowSpan" (spanValue rowSpan)).bind
        ((Builds.member? "TextAlignment" ((cellAlignment columns column position).map Scalar.alignment)).bind
          (content_objects (puts_blocks o ho blocks)))))
    simp only [← List.append_assoc] at members
    exact Puts.object members

end

/-! ## Documents -/

/-- The graph of a document by recursion on it. -/
def translation (o : Options) (d : Document) : Graph := ⟨documentNamespaces o, (translateDocument o d).object⟩

/-- The body of the root. -/
theorem builds_document (o : Options) (ho : o.rawMarkup ≠ .replay) (d : Document) :
    Builds o.theme .flowDocument (do Write.style .document; content false (renderBlocks .builtIn o d))
      (styleMember o.theme .flowDocument .document ++
        contentMember .flowDocument (objectItems (translateBlocks o d))) :=
  (Builds.style .document).bind (content_objects (puts_blocks o ho d))

/-- The draft in which the root of a document is finished. -/
def finishedDraft (o : Options) (members : List MemberPhrase) (b : Text.Buffer) : Draft where
  mode := .native
  theme := o.theme
  decls := documentNamespaces o
  root := some (.mk .flowDocument members)
  buffer := b

/-- A document that can be written leaves a root with what its body builds. -/
theorem writeDocument_run {h : Handlers} {o : Options} {d : Document} {members : List MemberPhrase}
    (hb : Builds o.theme .flowDocument (do Write.style .document; content false (renderBlocks h o d)) members)
    {w : Writer} (hw : (writeDocument h o d).run { mode := .native, theme := o.theme } = .ok () w) :
    ∃ b, w = (finishedDraft o members b).writer := by
  have start := Draft.sound_start .native o.theme
  have declared := ((Draft.Move.declare ⟨"", presentationNamespace⟩ rfl rfl).sound start)
  have declared := ((Draft.Move.declare ⟨"x", languageNamespace⟩ rfl rfl).sound declared)
  have sound := ((Draft.Move.declare ⟨o.theme.keyClass.pre, o.theme.keyClass.namespaceUri⟩ rfl rfl).sound declared)
  rw [← Draft.writer_start, writeDocument,
    Write.run_bind_ok (Draft.declareNamespace_start rfl rfl "" presentationNamespace),
    Write.run_bind_ok (Draft.declareNamespace_start rfl rfl "x" languageNamespace),
    Write.run_bind_ok (Draft.declareNamespace_start rfl rfl o.theme.keyClass.pre o.theme.keyClass.namespaceUri)] at hw
  obtain ⟨_, v, started, rest⟩ := Write.run_bind_eq_ok hw
  obtain ⟨_, v', built, ended⟩ := Write.run_bind_eq_ok rest
  rw [Draft.startObjectOf_root sound rfl rfl] at started
  cases started
  have sound := (Draft.Move.startRoot .flowDocument rfl rfl).sound sound
  obtain ⟨b, rfl, sound, -⟩ := hb _ v' .collapse [] [] sound rfl rfl rfl (Text.Buffer.atGap_take rfl fun _ => rfl) built
  rw [Draft.endObject_root rfl rfl] at ended
  cases ended
  exact ⟨b, rfl⟩

/-- Writing a document sends the namespaces and the root with what its body builds. -/
theorem documentSignals_of_builds {h : Handlers} {o : Options} {d : Document} {members : List MemberPhrase}
    (hb : Builds o.theme .flowDocument (do Write.style .document; content false (renderBlocks h o d)) members)
    {signals : List Signal} (hs : documentSignals h o .native d = .ok signals) :
    signals = (documentNamespaces o).map .namespaceDecl ++ (ObjectPhrase.mk .flowDocument members).signals := by
  rw [documentSignals] at hs
  cases hw : (writeDocument h o d).run { mode := .native, theme := o.theme } with
  | error e w => rw [hw] at hs; cases hs
  | ok u w =>
    rw [hw] at hs
    obtain ⟨b, rfl⟩ := writeDocument_run hb hw
    cases hs
    simp [Draft.writer, Draft.signals, finishedDraft, spineSignals]

/-- Writing a document sends the signals of its translation. -/
theorem documentSignals_eq {o : Options} (ho : o.rawMarkup ≠ .replay) {d : Document} {signals : List Signal}
    (h : documentSignals .builtIn o .native d = .ok signals) :
    signals = (documentNamespaces o).map .namespaceDecl ++ (translateDocument o d).signals :=
  documentSignals_of_builds (builds_document o ho d) h

/-- **Documents.** Whenever a document can be rendered with the built-in handlers and without replaying raw markup, its
graph is its translation. -/
theorem documentGraph_eq {o : Options} (ho : o.rawMarkup ≠ .replay) {d : Document} {g : Graph}
    (h : documentGraph .builtIn o d = .ok g) : g = translation o d := by
  rw [documentGraph] at h
  cases hs : documentSignals .builtIn o .native d with
  | error e => rw [hs] at h; cases h
  | ok signals =>
    rw [hs] at h
    have sent := documentSignals_eq ho hs
    have built : Graph.ofSignals signals = .ok (translation o d) := by
      rw [Graph.ofSignals, sent, Builder.receiveAll_append_of (Builder.receiveAll_decls _ {} rfl rfl),
        Builder.receiveAll_root _ _ rfl rfl]
      rfl
    have found : Graph.ofSignals signals = .ok g := h
    rw [built] at found
    cases found
    rfl

/-- A paragraph with a bold word in it. -/
theorem documentGraph_eq_bold :
    ∃ g, documentGraph .builtIn {} [.paragraph [.text "a  ", .emphasis '*' 2 [.text " b "], .text " c"]] = .ok g ∧
      g = translation {} [.paragraph [.text "a  ", .emphasis '*' 2 [.text " b "], .text " c"]] := by
  have found : (documentGraph .builtIn {}
      [.paragraph [.text "a  ", .emphasis '*' 2 [.text " b "], .text " c"]]).isOk = true := by decide +kernel
  cases hg : documentGraph .builtIn {} [.paragraph [.text "a  ", .emphasis '*' 2 [.text " b "], .text " c"]] with
  | error e => rw [hg] at found; cases found
  | ok g => exact ⟨g, rfl, documentGraph_eq (by decide) hg⟩

end FlowDoc.Render
