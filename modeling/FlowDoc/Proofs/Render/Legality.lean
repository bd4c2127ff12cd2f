import FlowDoc.Proofs.Render.Printed

/-!
# Legal characters in the markup of documents

Nothing on the way from a document to its markup filters characters. White space is taken out where text collapses,
targets are written as addresses, and replayed fragments are read first; everything else is printed as it is. So the
markup of a document holds no character that a reader refuses exactly if the strings have none that it is printed with:
its namespaces, the keys of its styles, and its text (**`documentMarkup_isLegal`**).
-/

namespace FlowDoc.Render

open Xaml
open Text (SpaceMode)
open Xml (Part attributePart isLegal isChar)

/-! ## Documents whose strings are legal -/

namespace Options

variable (o : Options)

/-- Whether a link is legal up to what is in it. -/
def linkLegal (target : String) (title : Option String) : Bool :=
  o.roleLegal .hyperlink && isLegal target && isLegal (title.getD target)

def imageLegal (target : String) (title : Option String) : Bool :=
  o.roleLegal .image && isLegal target && title.all isLegal

/-- Whether what becomes of raw markup is legal. -/
def rawLegal (s : String) : Bool :=
  match o.rawMarkup with
  | .replay => replayLegal s
  | .text => legalInk s
  | .skip => true

mutual

/-- Whether the strings that an inline is printed with are legal. -/
def inlineLegal : Inline → Bool
  | .text s => legalInk s
  | .lineBreak _ => true
  | .code s => o.roleLegal .code && isLegal s
  | .emphasis delimiter count children =>
    match emphasisTarget delimiter count with
    | .styled role => o.roleLegal role && inlinesLegal children
    | .element _ | .unwrapped => inlinesLegal children
  | .delimiter literal children => legalInk literal && inlinesLegal children
  | .link url title isImage children =>
    let target := o.navigate url
    let title := title.filter (!·.isEmpty)
    if isImage then o.imageLegal target title else o.linkLegal target title && inlinesLegal children
  | .autolink url isEmail => o.linkLegal (o.navigate (autolinkTarget url isEmail)) (some url)
  | .raw s => o.rawLegal s
  | .task _ => o.roleLegal .taskList
  | .custom _ children => inlinesLegal children

def inlinesLegal : List Inline → Bool
  | [] => true
  | i :: is => inlineLegal i && inlinesLegal is

end

mutual

/-- Whether the strings that a block is printed with are legal. -/
def blockLegal : Block → Bool
  | .paragraph inlines => o.inlinesLegal inlines
  | .heading level inlines => o.roleLegal (Style.Role.heading level) && o.inlinesLegal inlines
  | .codeBlock _ lines => o.roleLegal .codeBlock && lines.all isLegal
  | .list _ _ items => itemsLegal items
  | .quote blocks => o.roleLegal .quoteBlock && blocksLegal blocks
  | .thematicBreak => o.roleLegal .thematicBreak
  | .table _ rows => o.roleLegal .table && rowsLegal rows
  | .html literal =>
    match o.rawMarkup with
    | .replay => replayLegal (String.ofList (Text.trim Text.isSpace literal.toList))
    | .text => legalInk literal
    | .skip => true
  | .custom _ blocks inlines => blocksLegal blocks && o.inlinesLegal inlines

def blocksLegal : List Block → Bool
  | [] => true
  | b :: bs => blockLegal b && blocksLegal bs

def itemsLegal : List (List Block) → Bool
  | [] => true
  | i :: is => blocksLegal i && itemsLegal is

def rowsLegal : List (Row Block) → Bool
  | [] => true
  | r :: rs => rowLegal r && rowsLegal rs

def rowLegal : Row Block → Bool
  | ⟨isHeader, cells⟩ => (!isHeader || o.roleLegal .tableHeader) && cellsLegal cells

def cellsLegal : List (Cell Block) → Bool
  | [] => true
  | c :: cs => cellLegal c && cellsLegal cs

def cellLegal : Cell Block → Bool
  | ⟨_, _, _, blocks⟩ => o.roleLegal .tableCell && blocksLegal blocks

end

/-- Whether the strings that a document is printed with are legal. -/
def documentLegal (d : Document) : Bool :=
  isLegal o.theme.keyClass.pre && isLegal o.theme.keyClass.namespaceUri && o.roleLegal .document && o.blocksLegal d

end Options

variable {o : Options} {mode : SpaceMode}

/-! ## Values that are no text -/

theorem isChar_of_isDigit {c : Char} (h : c.isDigit = true) : isChar c = true := by
  obtain ⟨low, high⟩ : '0'.val ≤ c.val ∧ c.val ≤ '9'.val := by simpa [Char.isDigit] using h
  have low : 48 ≤ c.toNat := low
  have high : c.toNat ≤ 57 := high
  rw [isChar, if_neg (by omega), Bool.and_eq_true, bne_iff_ne, bne_iff_ne]
  omega

theorem isChar_toDigits (n : Nat) : ∀ c ∈ Nat.toDigits 10 n, isChar c = true := fun _ hc =>
  isChar_of_isDigit (Nat.isDigit_of_mem_toDigits (by decide) (by decide) hc)

theorem isLegal_nat (n : Nat) : isLegal (Scalar.int n).display = true := by
  have digits : (Scalar.int n).display = String.ofList (Nat.toDigits 10 n) := Nat.toString_eq_ofList_toDigits
  rw [digits, Xml.isLegal_ofList, List.all_eq_true]
  exact isChar_toDigits n

/-- A number in positional form is made of digits and points. -/
theorem isChar_positionalText {f : NumberFormat} {ds : List Char} (hd : ∀ c ∈ ds, isChar c = true) (e : Int) :
    ∀ c ∈ f.positionalText ds e, isChar c = true := by
  have point : isChar '.' = true := by decide
  have zero : isChar '0' = true := by decide
  have zeros : ∀ n, ∀ c ∈ NumberFormat.zeros n, isChar c = true := by
    intro n c hc
    rwa [List.eq_of_mem_replicate hc]
  rw [NumberFormat.positionalText]
  split
  · refine List.forall_mem_append.mpr ⟨List.forall_mem_append.mpr ⟨hd, zeros _⟩, ?_⟩
    cases f.pointZero <;> simp [point, zero]
  · dsimp only
    split
    · exact List.forall_mem_append.mpr ⟨fun c hc => hd c (List.mem_of_mem_take hc),
        List.forall_mem_cons.mpr ⟨point, fun c hc => hd c (List.mem_of_mem_drop hc)⟩⟩
    · exact List.forall_mem_append.mpr ⟨List.forall_mem_cons.mpr ⟨zero, List.forall_mem_cons.mpr ⟨point, zeros _⟩⟩, hd⟩

theorem isLegal_plain (x : Binary64) : isLegal (NumberFormat.plain.write x) = true := by
  have signed : ∀ (b : Bool) {s : String}, isLegal s = true → isLegal ((if b then "-" else "") ++ s) = true := by
    intro b s hs
    rw [Xml.isLegal_append, hs]
    cases b <;> decide
  rw [NumberFormat.write]
  split
  · decide
  · split
    · exact signed _ (by decide)
    · refine signed _ ?_
      rw [NumberFormat.plain, Bool.or_true, if_pos rfl, Xml.isLegal_ofList, List.all_eq_true]
      exact isChar_positionalText (isChar_toDigits _) _

theorem isLegal_width (c : Column) : isLegal (Scalar.gridLength (columnWidth c)).display = true := by
  have star : isLegal "*" = true := by decide
  unfold columnWidth
  split
  · simp only [Scalar.display, GridLength.display]
    split
    · exact star
    · rw [Xml.isLegal_append, isLegal_plain, star]
      rfl
  · decide

/-! ## Inlines -/

theorem prints_hyperlink {target : String} {title : Option String} {body : Write Unit} {c : Bool}
    (hb : Forms o .hyperlink body c) :
    Prints o mode (hyperlink target title body) (o.linkLegal target title && c) := by
  have style : Sets o .hyperlink (Write.style .hyperlink) (o.roleLegal .hyperlink) := .style (by decide) _
  have uri : Sets o .hyperlink (Write.member (.name "NavigateUri") (.uri target)) (isLegal target) :=
    .named (by decide) fun _ h => by cases h
  have tip : Sets o .hyperlink (Write.member (.name "ToolTip") (.text (title.getD target)))
      (isLegal (title.getD target)) :=
    .named (by decide) fun _ h => by cases h
  have whole : Prints o mode _ _ := .object (.after style (.after uri (.after tip hb)))
  rwa [← Bool.and_assoc, ← Bool.and_assoc] at whole

/-- The tool tip of an autolink is its text again, with all its white space. -/
theorem linkLegal_text (target url : String) :
    (o.linkLegal target (some url) && legalInk url) = o.linkLegal target (some url) := by
  rw [Options.linkLegal, Option.getD_some]
  cases legal : isLegal url with
  | true => rw [legalInk_of_isLegal legal, Bool.and_true]
  | false => rw [Bool.and_false, Bool.false_and]

theorem prints_image (target : String) (title : Option String) :
    Prints o mode (image target title) (o.imageLegal target title) := by
  have style : Sets o .image (Write.style .image) (o.roleLegal .image) := .style (by decide) _
  have tip : Sets o .image (Write.member? (.attached "ToolTipService" "ToolTip") (title.map Scalar.text))
      (title.all isLegal) := by
    have set : Sets o .image (Write.member? (.attached "ToolTipService" "ToolTip") (title.map Scalar.text)) _ :=
      .member? (fun _ h => by cases h) (by decide) fun _ h => by cases title <;> cases h
    rwa [Option.all_map] at set
  have source : Sets o .image (Write.member (.name "Source") (.uri target)) (isLegal target) :=
    .named (by decide) fun _ h => by cases h
  have whole : Prints o mode _ _ := .object (.bare (style.andThen (tip.andThen source)))
  rwa [Bool.and_comm (title.all isLegal), ← Bool.and_assoc] at whole

theorem prints_lineBreak : Prints o mode Write.lineBreak true := .object (.bare .nothing)

mutual

/-- **Inlines.** -/
theorem prints_inline (o : Options) : ∀ i : Inline, Prints o .collapse (renderInline .builtIn o i) (o.inlineLegal i)
  | .text s => .gather .writeText s
  | .lineBreak hard => by
    cases hard with
    | true => exact prints_lineBreak
    | false => exact .gather .writeChar " "
  | .code s => .object (.after (.style (by decide) .code) (.content (by decide) true
      (Prints.gather .writeText s).inOrder_singleton))
  | .emphasis delimiter count children => by
    have inner := prints_inlines o children
    have handled : renderInline .builtIn o (.emphasis delimiter count children) =
        emphasis o (.emphasis delimiter count (renderInlines .builtIn o children)) := rfl
    rw [handled, emphasis, Options.inlineLegal]
    cases target : emphasisTarget delimiter count with
    | element type =>
      have known : type.content?.isSome = true := by
        rcases emphasisTarget_element target with rfl | rfl <;> decide
      exact .object (.content known false inner)
    | styled role => exact .object (.after (.style (by decide) role) (.content (by decide) false inner))
    | unwrapped => exact inner
  | .delimiter literal children => (Prints.gather .writeValue literal).andThen (prints_inlines o children)
  | .link url title isImage children => by
    cases isImage with
    | true => exact prints_image _ _
    | false => exact prints_hyperlink (.content (by decide) false (prints_inlines o children))
  | .autolink url isEmail => by
    have text : Forms o .hyperlink (content false [Write.text url]) (legalInk url) :=
      .content (by decide) false (Prints.gather .writeText url).inOrder_singleton
    have link : Prints o .collapse (renderInline .builtIn o (.autolink url isEmail)) _ := prints_hyperlink text
    rw [linkLegal_text] at link
    exact link
  | .raw s => by
    have handled : renderInline .builtIn o (.raw s) = rawInline o (.raw s) := rfl
    rw [handled, rawInline, Options.inlineLegal, Options.rawLegal]
    cases o.rawMarkup with
    | replay => exact prints_replayFragment s
    | text => exact .gather .writeValue s
    | skip => exact .nothing
  | .task checked => by
    have tag : Sets o .span (Write.member (.name "Tag") (.bool checked)) true := by
      have legal : isLegal (Scalar.bool checked).display = true := by cases checked <;> decide
      exact legal ▸ .named (by decide) fun _ h => by cases h
    have whole : Prints o .collapse _ _ := .object (.bare (.andThen (.style (by decide) .taskList) tag))
    rwa [Bool.and_true] at whole
  | .custom kind children => by
    rw [renderInline, handleInline, Options.inlineLegal]
    cases hk : Handlers.builtIn.inline? kind with
    | some handler => exact .of_fails (fails_inline_custom hk kind _) _
    | none => exact prints_inlines o children

theorem prints_inlines (o : Options) : ∀ is : List Inline,
    Prints o .collapse (inOrder (renderInlines .builtIn o is)) (o.inlinesLegal is)
  | [] => .nothing
  | i :: is => (prints_inline o i).andThen (prints_inlines o is)

end

/-! ## Blocks -/

theorem prints_codeLines (join : LineJoin) : ∀ lines : List String,
    Prints o .preserve (inOrder (codeLines join lines)) (lines.all isLegal)
  | [] => .nothing
  | [l] => by
    rw [List.all_cons, List.all_nil, Bool.and_true]
    exact (Prints.gather .writeText l).inOrder_singleton
  | l :: k :: ls => by
    have separator : Prints o .preserve join.separator true := by
      cases join with
      | newline => exact .gather .writeChar "\n"
      | lineBreak => exact prints_lineBreak
    have rest := prints_codeLines join (k :: ls)
    exact (Prints.gather .writeText l).andThen (separator.andThen rest)

theorem sets_markers (ordered : Bool) (start : Option Nat) : Sets o .list (listMembers ordered start) true := by
  have marker : ∀ m : MarkerStyle, Sets o .list (Write.member (.name "MarkerStyle") (.marker m)) true := by
    intro m
    have legal : isLegal (Scalar.marker m).display = true := by cases m <;> decide
    exact legal ▸ .named (by decide) fun _ h => by cases h
  cases ordered with
  | false => exact marker .disc
  | true =>
    have number : Sets o .list
        (Write.member? (.name "StartIndex") ((start.filter (· != 1)).map fun n => .int n)) true := by
      cases start.filter (· != 1) with
      | none => exact .nothing
      | some n => exact isLegal_nat n ▸ .named (by decide) fun _ h => by cases h
    exact (marker .decimal).andThen number

theorem prints_columns : ∀ columns : List Column, Prints o .collapse (inOrder (columns.map tableColumn)) true
  | [] => .nothing
  | c :: cs => by
    have width : Sets o .tableColumn (Write.member (.name "Width") (.gridLength (columnWidth c))) true :=
      isLegal_width c ▸ .named (by decide) fun _ h => by cases h
    exact (Prints.object (.bare width)).andThen (prints_columns cs)

theorem prints_wrapInlines (o : Options) : ∀ is : List Inline,
    Prints o .collapse (wrapInlines (renderInlines .builtIn o is)) (o.inlinesLegal is)
  | [] => .nothing
  | i :: is => .object (.content (by decide) false (prints_inlines o (i :: is)))

/-- The members of a cell beside its style and its content. -/
theorem sets_cell (columns : List Column) (position columnSpan rowSpan : Nat) (column : Option Nat) :
    Sets o .tableCell (do
      Write.member? (.name "ColumnSpan") (spanValue columnSpan)
      Write.member? (.name "RowSpan") (spanValue rowSpan)
      Write.member? (.name "TextAlignment") ((cellAlignment columns column position).map Scalar.alignment)) true := by
  have span : ∀ {name : String}, isAside .tableCell (.name name) = true → ∀ n,
      Sets o .tableCell (Write.member? (.name name) (spanValue n)) true := by
    intro name known n
    unfold spanValue
    split
    · exact isLegal_nat n ▸ .named known fun _ h => by cases h
    · exact .nothing
  have alignment : Sets o .tableCell (Write.member? (.name "TextAlignment")
      ((cellAlignment columns column position).map Scalar.alignment)) true := by
    have legal : ∀ a : TextAlignment, isLegal (Scalar.alignment a).display = true := fun a => by cases a <;> decide
    cases cellAlignment columns column position with
    | none => exact .nothing
    | some a => exact legal a ▸ .named (by decide) fun _ h => by cases h
  exact (span (by decide) columnSpan).andThen ((span (by decide) rowSpan).andThen alignment)

mutual

/-- **Blocks.** -/
theorem prints_block (o : Options) : ∀ b : Block, Prints o .collapse (renderBlock .builtIn o b) (o.blockLegal b)
  | .paragraph inlines => .object (.content (by decide) false (prints_inlines o inlines))
  | .heading level inlines => .object (.after (.style (by decide) (Style.Role.heading level))
      (.content (by decide) false (prints_inlines o inlines)))
  | .codeBlock info lines => .object (.after (.style (by decide) .codeBlock)
      (.content (by decide) true (prints_codeLines o.lineJoin lines)))
  | .list ordered start items =>
    .object (.after (sets_markers ordered start) (.content (by decide) false (prints_items o items)))
  | .quote blocks => .object (.after (.style (by decide) .quoteBlock)
      (.content (by decide) false (prints_blocks o blocks)))
  | .thematicBreak => .object (.bare (.style (by decide) .thematicBreak))
  | .table columns rows => by
    have group : Prints o .collapse (inOrder [object .tableRowGroup (content false _)]) _ :=
      (Prints.object (.content (by decide) false (prints_rows o columns rows))).inOrder_singleton
    have columnItems : Sets o .table (do
        Write.startItems (.name "Columns") false; inOrder (columns.map tableColumn); Write.endItems) true :=
      .items (by decide) (prints_columns columns)
    have members : Forms o .table _ _ := .after (.style (by decide) .table)
      (.after columnItems (.content (by decide) false group))
    have whole : Prints o .collapse _ _ := .object members
    simp only [bind_assoc, Bool.true_and] at whole
    exact whole
  | .html literal => by
    have handled : renderBlock .builtIn o (.html literal) = htmlBlock o (.html literal) := rfl
    rw [handled, htmlBlock, Options.blockLegal]
    cases o.rawMarkup with
    | replay => exact prints_replayFragment _
    | text => exact .object (.content (by decide) false (Prints.gather .writeText literal).inOrder_singleton)
    | skip => exact .nothing
  | .custom kind blocks inlines => by
    rw [renderBlock, handleBlock, Options.blockLegal]
    cases hk : Handlers.builtIn.block? kind with
    | some handler => exact .of_fails (fails_block_custom hk kind _ _) _
    | none => exact (prints_blocks o blocks).andThen (prints_wrapInlines o inlines)

theorem prints_blocks (o : Options) : ∀ bs : List Block,
    Prints o .collapse (inOrder (renderBlocks .builtIn o bs)) (o.blocksLegal bs)
  | [] => .nothing
  | b :: bs => (prints_block o b).andThen (prints_blocks o bs)

theorem prints_items (o : Options) : ∀ items : List (List Block), Prints o .collapse
    (inOrder ((renderItems .builtIn o items).map fun blocks => object .listItem (content false blocks)))
    (o.itemsLegal items)
  | [] => .nothing
  | i :: is =>
    (Prints.object (.content (by decide) false (prints_blocks o i))).andThen (prints_items o is)

theorem prints_rows (o : Options) (columns : List Column) : ∀ rows : List (Row Block), Prints o .collapse
    (inOrder ((renderRows .builtIn o rows).map (tableRow columns))) (o.rowsLegal rows)
  | [] => .nothing
  | r :: rs => (prints_row o columns r).andThen (prints_rows o columns rs)

theorem prints_row (o : Options) (columns : List Column) : ∀ r : Row Block,
    Prints o .collapse (tableRow columns (renderRow .builtIn o r)) (o.rowLegal r)
  | ⟨isHeader, cells⟩ => by
    have inner : Forms o .tableRow _ _ := .content (by decide) false (prints_cells o columns 0 cells)
    cases isHeader with
    | true => exact .object (.after (.style (by decide) .tableHeader) inner)
    | false => exact .object (.after .nothing inner)

theorem prints_cells (o : Options) (columns : List Column) (position : Nat) : ∀ cells : List (Cell Block),
    Prints o .collapse (inOrder (tableCells columns position (renderCells .builtIn o cells))) (o.cellsLegal cells)
  | [] => .nothing
  | c :: cs => (prints_cell o columns position c).andThen (prints_cells o columns (position + 1) cs)

theorem prints_cell (o : Options) (columns : List Column) (position : Nat) : ∀ c : Cell Block,
    Prints o .collapse (tableCell columns position (renderCell .builtIn o c)) (o.cellLegal c)
  | ⟨column, columnSpan, rowSpan, blocks⟩ => by
    have inner : Forms o .tableCell _ _ := .content (by decide) false (prints_blocks o blocks)
    have members := Forms.after (.style (by decide) .tableCell)
      (.after (sets_cell columns position columnSpan rowSpan column) inner)
    have whole : Prints o .collapse _ _ := .object members
    simp only [bind_assoc, Bool.true_and] at whole
    exact whole

end

/-! ## Documents -/

theorem forms_document (o : Options) (d : Document) :
    Forms o .flowDocument (do Write.style .document; content false (renderBlocks .builtIn o d))
      (o.roleLegal .document && o.blocksLegal d) :=
  .after (.style (by decide) .document) (.content (by decide) false (prints_blocks o d))

/-- The namespaces in front of a document. -/
theorem isLegal_declarations (o : Options) :
    (((documentNamespaces o).map NamespaceDecl.attribute).map attributePart).all Part.isLegal =
      (isLegal o.theme.keyClass.pre && isLegal o.theme.keyClass.namespaceUri) := by
  have known : ((([⟨"", presentationNamespace⟩, ⟨"x", languageNamespace⟩] : List NamespaceDecl).map
      NamespaceDecl.attribute).map attributePart).all Part.isLegal = true := by decide
  have name : isLegal (if o.theme.keyClass.pre.isEmpty then "xmlns" else "xmlns:" ++ o.theme.keyClass.pre) =
      isLegal o.theme.keyClass.pre := by
    have words : isLegal "xmlns" = true ∧ isLegal "xmlns:" = true := by decide
    split
    · next empty =>
      rw [String.isEmpty_iff.mp empty, words.1]
      rfl
    · rw [Xml.isLegal_append, words.2, Bool.true_and]
  have split : (documentNamespaces o).map NamespaceDecl.attribute =
      ([⟨"", presentationNamespace⟩, ⟨"x", languageNamespace⟩] : List NamespaceDecl).map NamespaceDecl.attribute ++
        [NamespaceDecl.attribute ⟨o.theme.keyClass.pre, o.theme.keyClass.namespaceUri⟩] := rfl
  rw [split, List.map_append, List.all_append, known, Bool.true_and, List.map_singleton, List.all_cons, List.all_nil,
    Bool.and_true, ← name]
  rfl

/-- **The characters of the output.** Whenever a document is rendered to markup, all characters of the markup are legal
exactly if those are that the document is printed with. -/
theorem documentMarkup_isLegal {o : Options} {indent : Nat} {d : Document} {markup : String}
    (h : documentMarkup .builtIn o indent d = .ok markup) : isLegal markup = o.documentLegal d := by
  obtain ⟨members, builds, printed, legal⟩ := forms_document o d
  have root : (printedObject o (.mk .flowDocument members)).isLegal =
      (o.roleLegal .document && o.blocksLegal d) := legal
  have legal : isLegal (Graph.markup ⟨documentNamespaces o, printedObject o (.mk .flowDocument members)⟩ indent) = _ :=
    isLegal_markup (prefixesLegal_documentNamespaces o) printed.plain.isNamed printed.kept indent
  rw [isLegal_declarations, root, ← Bool.and_assoc] at legal
  rw [documentMarkup_of_builds areBuiltIn_builtIn builds h]
  exact legal

/-- A form feed is legal in text, where it becomes a space. -/
theorem documentMarkup_isLegal_formFeed :
    ∃ markup, documentMarkup .builtIn {} 2 [.paragraph [.text "a\x0cb", .code "c\td"]] = .ok markup ∧
      isLegal markup = true := by
  have rendered : (documentMarkup .builtIn {} 2 [.paragraph [.text "a\x0cb", .code "c\td"]]).isOk = true := by
    decide +kernel
  cases h : documentMarkup .builtIn {} 2 [.paragraph [.text "a\x0cb", .code "c\td"]] with
  | error e => rw [h] at rendered; cases rendered
  | ok markup => exact ⟨markup, rfl, (documentMarkup_isLegal h).trans (by decide +kernel)⟩

/-- A control character that is no white space is printed. -/
theorem control_character_printed :
    ∃ markup, documentMarkup .builtIn {} 2 [.paragraph [.text "a\x01b"]] = .ok markup ∧ isLegal markup = false := by
  have rendered : (documentMarkup .builtIn {} 2 [.paragraph [.text "a\x01b"]]).isOk = true := by decide +kernel
  have illegal : (spelledTranslation {} [.paragraph [.text "a\x01b"]]).element.parts.all Part.isLegal = false := by
    decide +kernel
  cases h : documentMarkup .builtIn {} 2 [.paragraph [.text "a\x01b"]] with
  | error e => rw [h] at rendered; cases rendered
  | ok markup =>
    refine ⟨markup, rfl, ?_⟩
    rw [documentMarkup_eq (by decide) h, Graph.markup, Xml.isLegal_print, illegal]

end FlowDoc.Render
