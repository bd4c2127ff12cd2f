import FlowDoc.Proofs.Render.Safety

/-!
# When rendering fails

With the built-in handlers, and unless raw markup is replayed, only three things can stop the rendering of a document:
a custom block of a built-in block kind, a custom inline of a built-in inline kind, and, where values are spelled, a
number that is no 32-bit integer. The nodes that are visited are listed in order (`visitsBlock`), each may have a fault
(`Visit.fault`), and the first fault is the error of the document (**`document_error_iff`**).
-/

namespace FlowDoc.Render

open Xaml

/-! ## The nodes that are visited -/

/-- A node that is visited. -/
inductive Visit
  | block (b : Block)
  | cell (c : Cell Block)
  | inline (i : Inline)

mutual

/-- An inline and all in it, except what stands for an image. -/
def visitsInline : Inline → List Visit
  | .text s => [.inline (.text s)]
  | .lineBreak hard => [.inline (.lineBreak hard)]
  | .code s => [.inline (.code s)]
  | .emphasis delimiter count children => .inline (.emphasis delimiter count children) :: visitsInlines children
  | .delimiter literal children => .inline (.delimiter literal children) :: visitsInlines children
  | .link url title isImage children =>
    .inline (.link url title isImage children) :: if isImage then [] else visitsInlines children
  | .autolink url isEmail => [.inline (.autolink url isEmail)]
  | .raw s => [.inline (.raw s)]
  | .task checked => [.inline (.task checked)]
  | .custom kind children => .inline (.custom kind children) :: visitsInlines children

def visitsInlines : List Inline → List Visit
  | [] => []
  | i :: is => visitsInline i ++ visitsInlines is

end

mutual

/-- A block and all in it. -/
def visitsBlock : Block → List Visit
  | .paragraph inlines => .block (.paragraph inlines) :: visitsInlines inlines
  | .heading level inlines => .block (.heading level inlines) :: visitsInlines inlines
  | .codeBlock info lines => [.block (.codeBlock info lines)]
  | .list ordered start items => .block (.list ordered start items) :: visitsItems items
  | .quote blocks => .block (.quote blocks) :: visitsBlocks blocks
  | .thematicBreak => [.block .thematicBreak]
  | .table columns rows => .block (.table columns rows) :: visitsRows rows
  | .html literal => [.block (.html literal)]
  | .custom kind blocks inlines =>
    .block (.custom kind blocks inlines) :: (visitsBlocks blocks ++ visitsInlines inlines)

def visitsBlocks : List Block → List Visit
  | [] => []
  | b :: bs => visitsBlock b ++ visitsBlocks bs

def visitsItems : List (List Block) → List Visit
  | [] => []
  | i :: is => visitsBlocks i ++ visitsItems is

def visitsRows : List (Row Block) → List Visit
  | [] => []
  | r :: rs => visitsRow r ++ visitsRows rs

def visitsRow : Row Block → List Visit
  | ⟨_, cells⟩ => visitsCells cells

def visitsCells : List (Cell Block) → List Visit
  | [] => []
  | c :: cs => visitsCell c ++ visitsCells cs

def visitsCell : Cell Block → List Visit
  | ⟨column, columnSpan, rowSpan, blocks⟩ => .cell ⟨column, columnSpan, rowSpan, blocks⟩ :: visitsBlocks blocks

end

/-! ## Their faults -/

/-- The kinds that have a built-in block handler. -/
def blockKinds : List String :=
  ["paragraph", "heading", "code_block", "list", "quote", "thematic_break", "table", "html"]

/-- The kinds that have a built-in inline handler. -/
def inlineKinds : List String :=
  ["text", "line_break", "code", "emphasis", "delimiter", "link", "autolink", "raw", "task_list"]

/-- The fault of a number as a member: spelled, it has to be a 32-bit integer. -/
def numberFault (mode : ValueMode) (member : String) (n : Nat) : Option RenderError :=
  if mode = .text ∧ 2147483647 < n then some (.conversion member (Scalar.int n).debug) else none

/-- The fault of a node by itself. -/
def Visit.fault (mode : ValueMode) : Visit → Option RenderError
  | block (.custom kind _ _) => if kind ∈ blockKinds then some (.handlerMismatch kind) else none
  | block (.list true (some start) _) => numberFault mode "StartIndex" start
  | cell c => (numberFault mode "ColumnSpan" c.columnSpan).or (numberFault mode "RowSpan" c.rowSpan)
  | inline (.custom kind _) => if kind ∈ inlineKinds then some (.handlerMismatch kind) else none
  | block _ | inline _ => none

/-- The first fault among nodes. -/
def firstFault (mode : ValueMode) (visits : List Visit) : Option RenderError := visits.findSome? (Visit.fault mode)

variable {mode : ValueMode} {type : ElementType} {o : Options}

theorem firstFault_cons (v : Visit) (vs : List Visit) :
    firstFault mode (v :: vs) = (v.fault mode).or (firstFault mode vs) := by
  cases hv : v.fault mode <;> simp [firstFault, hv]

theorem firstFault_append (vs vs' : List Visit) :
    firstFault mode (vs ++ vs') = (firstFault mode vs).or (firstFault mode vs') := by
  simp [firstFault, List.findSome?_append]

/-! ## Members -/

theorem memberFault_eq_none {name : String} {v : Scalar} (h : (type.member? name).any (·.form.accepts v) = true) :
    memberFault mode type (.name name) v = none := by
  cases hm : type.member? name with
  | none => rw [hm] at h; cases h
  | some m =>
    have accepted : m.form.accepts v = true := by simpa [hm] using h
    cases mode <;> simp [memberFault, lookUp, getMember, hm, valueFault, accepted]

/-- A member that takes a 32-bit integer. -/
theorem memberFault_int {name : String}
    (h : (type.member? name).any (fun m => m.form == .int32 && m.name == name) = true) (n : Nat) :
    memberFault mode type (.name name) (.int n) = numberFault mode name n := by
  cases hm : type.member? name with
  | none => rw [hm] at h; cases h
  | some m =>
    obtain ⟨hf, hn⟩ : m.form = .int32 ∧ m.name = name := by simpa [hm] using h
    cases mode with
    | native => simp [memberFault, lookUp, getMember, hm, valueFault, numberFault]
    | text =>
      have accepted : m.form.accepts (.int n) = true ↔ ¬ 2147483647 < n := by
        simp only [hf, ValueForm.accepts, Bool.and_eq_true, decide_eq_true_eq]
        omega
      by_cases large : 2147483647 < n
      · have refused : m.form.accepts (.int n) = false := by simpa [large] using accepted
        simp [memberFault, lookUp, getMember, hm, valueFault, numberFault, refused, large, hn]
      · simp [memberFault, lookUp, getMember, hm, valueFault, numberFault, accepted.mpr large, large]

/-! ## Parts of handlers -/

variable {fault fault' : Option RenderError} {ws : List (Write Unit)}

theorem ends_style (r : Style.Role) (h : (type.member? "Style").isSome = true) :
    Ends mode (.object type) (Write.style r) none := by
  obtain ⟨m, hm⟩ := Option.isSome_iff_exists.mp h
  have found : faultOf (lookUp type (.name "Style")) = none := by simp [lookUp, getMember, hm, faultOf]
  have ends : Ends mode (.object type) (Write.style r) (faultOf (lookUp type (.name "Style"))) :=
    Ends.resource (.name "Style") (.role r)
  rw [found] at ends
  exact ends

/-- A member with a value that fits. -/
theorem ends_member {name : String} {v : Scalar} (h : (type.member? name).any (·.form.accepts v) = true)
    (hv : ∀ key, v ≠ .resourceKey key) : Ends mode (.object type) (Write.member (.name name) v) none := by
  have ends : Ends mode (.object type) (Write.member (.name name) v) _ := Ends.member (.name name) hv
  rw [memberFault_eq_none h] at ends
  exact ends

/-- A type with content takes what is put into it. -/
theorem ends_content (h : type.content?.isSome = true) (preserve : Bool) (hb : Ends mode .items (inOrder ws) fault) :
    Ends mode (.object type) (content preserve ws) fault := by
  obtain ⟨m, hm⟩ := Option.isSome_iff_exists.mp h
  have found : faultOf (getContent type) = none := by simp [getContent, hm, faultOf]
  have ends : Ends mode (.object type) (content preserve ws) _ := Ends.content preserve hb
  rw [found, Option.none_or] at ends
  exact ends

theorem ends_singleton {w : Write Unit} (hw : Ends mode .items w fault) : Ends mode .items (inOrder [w]) fault := by
  have ends : Ends mode .items (inOrder [w]) (fault.or none) := hw.andThen Ends.nothing
  rw [Option.or_none] at ends
  exact ends

/-! ## Inlines -/

theorem ends_hyperlink (target : String) (title : Option String) {body : Write Unit}
    (hb : Ends mode (.object .hyperlink) body fault) : Ends mode .items (hyperlink target title body) fault := by
  have style : Ends mode (.object .hyperlink) (Write.style .hyperlink) none := ends_style _ (by decide)
  have uri : Ends mode (.object .hyperlink) (Write.member (.name "NavigateUri") (.uri target)) none :=
    ends_member rfl fun key hk => by cases hk
  have tip : Ends mode (.object .hyperlink) (Write.member (.name "ToolTip") (.text (title.getD target))) none :=
    ends_member rfl fun key hk => by cases hk
  exact Ends.object (style.andThen (uri.andThen (tip.andThen hb)))

theorem ends_image (target : String) (title : Option String) : Ends mode .items (image target title) none := by
  have style : Ends mode (.object .image) (Write.style .image) none := ends_style _ (by decide)
  have source : Ends mode (.object .image) (Write.member (.name "Source") (.uri target)) none :=
    ends_member rfl fun key hk => by cases hk
  have tip : Ends mode (.object .image)
      (Write.member? (.attached "ToolTipService" "ToolTip") (title.map Scalar.text)) none := by
    cases title with
    | none => exact Ends.nothing
    | some title =>
      have fits : memberFault mode .image (.attached "ToolTipService" "ToolTip") (.text title) = none := by
        cases mode <;> rfl
      have ends : Ends mode (.object .image)
          (Write.member (.attached "ToolTipService" "ToolTip") (.text title)) _ :=
        Ends.member _ fun key hk => by cases hk
      rw [fits] at ends
      exact ends
  exact Ends.object (style.andThen (tip.andThen source))

/-- A custom inline of a built-in kind is refused by the handler of that kind. -/
theorem handleInline_custom {kind : String} (hk : kind ∈ inlineKinds) (children : List (Write Unit)) :
    handleInline .builtIn o kind (.custom kind children) = mismatch kind := by
  simp only [inlineKinds, List.mem_cons, List.not_mem_nil, or_false] at hk
  rcases hk with rfl | rfl | rfl | rfl | rfl | rfl | rfl | rfl | rfl <;> rfl

/-- Another kind has no handler. -/
theorem inline?_eq_none {kind : String} (hk : kind ∉ inlineKinds) : Handlers.builtIn.inline? kind = none := by
  cases h : Handlers.builtIn.inline? kind with
  | none => rfl
  | some handler =>
    have listed : kind ∈ Handlers.builtIn.inlines.map Prod.fst := List.mem_map_of_mem (mem_of_lookup h)
    exact absurd listed hk

mutual

/-- **Inlines.** An inline ends at the first fault in it. -/
theorem ends_inline (o : Options) (ho : o.rawMarkup ≠ .replay) (mode : ValueMode) :
    ∀ i : Inline, Ends mode .items (renderInline .builtIn o i) (firstFault mode (visitsInline i))
  | .text s => Ends.gather .writeText s
  | .lineBreak hard => by
    cases hard with
    | true => exact Ends.lineBreak
    | false => exact Ends.gather .writeChar _
  | .code s => by
    have style : Ends mode (.object .span) (Write.style .code) none := ends_style _ (by decide)
    have run : Ends mode .items (inOrder [Write.text s]) none := ends_singleton (Ends.gather .writeText s)
    exact Ends.object (style.andThen (ends_content (by decide) true run))
  | .emphasis delimiter count children => by
    have inner := ends_inlines o ho mode children
    have handled : renderInline .builtIn o (.emphasis delimiter count children) =
        emphasis o (.emphasis delimiter count (renderInlines .builtIn o children)) := rfl
    rw [handled, emphasis, visitsInline]
    cases ht : emphasisTarget delimiter count with
    | element type =>
      have content : type.content?.isSome = true := by rcases emphasisTarget_element ht with rfl | rfl <;> decide
      exact Ends.object (ends_content content false inner)
    | styled role =>
      have style : Ends mode (.object .span) (Write.style role) none := ends_style _ (by decide)
      exact Ends.object (style.andThen (ends_content (by decide) false inner))
    | unwrapped => exact inner
  | .delimiter literal children => by
    have literal : Ends mode .items (Write.literal literal) none := Ends.gather .writeValue literal
    exact literal.andThen (ends_inlines o ho mode children)
  | .link url title isImage children => by
    cases isImage with
    | true => exact ends_image _ _
    | false => exact ends_hyperlink _ _ (ends_content (by decide) false (ends_inlines o ho mode children))
  | .autolink url isEmail => by
    have run : Ends mode .items (inOrder [Write.text url]) none := ends_singleton (Ends.gather .writeText url)
    exact ends_hyperlink _ _ (ends_content (by decide) false run)
  | .raw s => by
    have handled : renderInline .builtIn o (.raw s) = rawInline o (.raw s) := rfl
    rw [handled, rawInline]
    cases hr : o.rawMarkup with
    | replay => exact absurd hr ho
    | text => exact Ends.gather .writeValue s
    | skip => exact Ends.nothing
  | .task checked => by
    have style : Ends mode (.object .span) (Write.style .taskList) none := ends_style _ (by decide)
    have tag : Ends mode (.object .span) (Write.member (.name "Tag") (.bool checked)) none :=
      ends_member rfl fun key hk => by cases hk
    exact Ends.object (style.andThen tag)
  | .custom kind children => by
    rw [renderInline, visitsInline, firstFault_cons, Visit.fault]
    by_cases hk : kind ∈ inlineKinds
    · rw [if_pos hk, handleInline_custom hk]
      exact Ends.fail _
    · rw [if_neg hk, handleInline, inline?_eq_none hk]
      exact ends_inlines o ho mode children

theorem ends_inlines (o : Options) (ho : o.rawMarkup ≠ .replay) (mode : ValueMode) :
    ∀ is : List Inline, Ends mode .items (inOrder (renderInlines .builtIn o is)) (firstFault mode (visitsInlines is))
  | [] => Ends.nothing
  | i :: is => by
    rw [visitsInlines, firstFault_append]
    exact (ends_inline o ho mode i).andThen (ends_inlines o ho mode is)

end

/-! ## Blocks -/

theorem ends_codeLines (join : LineJoin) : ∀ lines, Ends mode .items (inOrder (codeLines join lines)) none
  | [] => Ends.nothing
  | [l] => ends_singleton (Ends.gather .writeText l)
  | l :: k :: ls => by
    have line : Ends mode .items (Write.text l) none := Ends.gather .writeText l
    have separator : Ends mode .items join.separator none := by
      cases join with
      | newline => exact Ends.gather .writeChar _
      | lineBreak => exact Ends.lineBreak
    exact line.andThen (separator.andThen (ends_codeLines join (k :: ls)))

/-- The marker of a list, and the number that it starts at. -/
theorem ends_listMembers (ordered : Bool) (start : Option Nat) (items : List (List Block)) :
    Ends mode (.object .list) (listMembers ordered start) (Visit.fault mode (.block (.list ordered start items))) := by
  have marker : ∀ m, Ends mode (.object .list) (Write.member (.name "MarkerStyle") (.marker m)) none :=
    fun m => ends_member rfl fun key hk => by cases hk
  cases ordered with
  | false => exact marker .disc
  | true =>
    have index : Ends mode (.object .list)
        (Write.member? (.name "StartIndex") ((start.filter (· != 1)).map fun n => .int n))
        (Visit.fault mode (.block (.list true start items))) := by
      cases start with
      | none => exact Ends.nothing
      | some n =>
        by_cases one : n = 1
        · subst one
          have small : numberFault mode "StartIndex" 1 = none := by simp [numberFault]
          rw [Visit.fault, small]
          exact Ends.nothing
        · have kept : (some n).filter (· != 1) = some n := by simp [one]
          have spelled : memberFault mode .list (.name "StartIndex") (.int n) = numberFault mode "StartIndex" n :=
            memberFault_int (by decide) n
          rw [kept, Visit.fault, ← spelled]
          exact Ends.member _ fun key hk => by cases hk
    exact (marker .decimal).andThen index

/-- A span of a cell. -/
theorem ends_span {name : String}
    (h : (ElementType.member? .tableCell name).any (fun m => m.form == .int32 && m.name == name) = true) (n : Nat) :
    Ends mode (.object .tableCell) (Write.member? (.name name) (spanValue n)) (numberFault mode name n) := by
  rw [spanValue]
  by_cases wide : 1 < n
  · rw [if_pos wide, ← memberFault_int h]
    exact Ends.member _ fun key hk => by cases hk
  · have small : numberFault mode name n = none := by
      have : ¬ (mode = .text ∧ 2147483647 < n) := by omega
      simp [numberFault, this]
    rw [if_neg wide, small]
    exact Ends.nothing

theorem ends_alignment (alignment : Option TextAlignment) :
    Ends mode (.object .tableCell) (Write.member? (.name "TextAlignment") (alignment.map Scalar.alignment)) none := by
  cases alignment with
  | none => exact Ends.nothing
  | some a => exact ends_member rfl fun key hk => by cases hk

theorem ends_columns : ∀ columns : List Column, Ends mode .items (inOrder (columns.map tableColumn)) none
  | [] => Ends.nothing
  | c :: cs => by
    have width : Ends mode (.object .tableColumn)
        (Write.member (.name "Width") (.gridLength (columnWidth c))) none :=
      ends_member rfl fun key hk => by cases hk
    exact (Ends.object width).andThen (ends_columns cs)

/-- Inlines among blocks. -/
theorem ends_wrapInlines (o : Options) (ho : o.rawMarkup ≠ .replay) (mode : ValueMode) : ∀ is : List Inline,
    Ends mode .items (wrapInlines (renderInlines .builtIn o is)) (firstFault mode (visitsInlines is))
  | [] => Ends.nothing
  | i :: is => Ends.object (ends_content (by decide) false (ends_inlines o ho mode (i :: is)))

theorem handleBlock_custom {kind : String} (hk : kind ∈ blockKinds) (blocks inlines : List (Write Unit)) :
    handleBlock .builtIn o kind (.custom kind blocks inlines) = mismatch kind := by
  simp only [blockKinds, List.mem_cons, List.not_mem_nil, or_false] at hk
  rcases hk with rfl | rfl | rfl | rfl | rfl | rfl | rfl | rfl <;> rfl

theorem block?_eq_none {kind : String} (hk : kind ∉ blockKinds) : Handlers.builtIn.block? kind = none := by
  cases h : Handlers.builtIn.block? kind with
  | none => rfl
  | some handler =>
    have listed : kind ∈ Handlers.builtIn.blocks.map Prod.fst := List.mem_map_of_mem (mem_of_lookup h)
    exact absurd listed hk

mutual

/-- **Blocks.** A block ends at the first fault in it. -/
theorem ends_block (o : Options) (ho : o.rawMarkup ≠ .replay) (mode : ValueMode) :
    ∀ b : Block, Ends mode .items (renderBlock .builtIn o b) (firstFault mode (visitsBlock b))
  | .paragraph inlines => Ends.object (ends_content (by decide) false (ends_inlines o ho mode inlines))
  | .heading level inlines => by
    have style : Ends mode (.object .paragraph) (Write.style (Style.Role.heading level)) none :=
      ends_style _ (by decide)
    exact Ends.object (style.andThen (ends_content (by decide) false (ends_inlines o ho mode inlines)))
  | .codeBlock info lines => by
    have style : Ends mode (.object .paragraph) (Write.style .codeBlock) none := ends_style _ (by decide)
    exact Ends.object (style.andThen (ends_content (by decide) true (ends_codeLines o.lineJoin lines)))
  | .list ordered start items => by
    rw [visitsBlock, firstFault_cons]
    exact Ends.object ((ends_listMembers ordered start items).andThen
      (ends_content (by decide) false (ends_items o ho mode items)))
  | .quote blocks => by
    have style : Ends mode (.object .sectionElement) (Write.style .quoteBlock) none := ends_style _ (by decide)
    exact Ends.object (style.andThen (ends_content (by decide) false (ends_blocks o ho mode blocks)))
  | .thematicBreak => by
    have style : Ends mode (.object .paragraph) (Write.style .thematicBreak) none := ends_style _ (by decide)
    exact Ends.object style
  | .table columns rows => by
    have style : Ends mode (.object .table) (Write.style .table) none := ends_style _ (by decide)
    have widths : Ends mode (.object .table) _ none := Ends.collection (.name "Columns") false (ends_columns columns)
    have inner : Ends mode (.object .tableRowGroup) _ _ :=
      ends_content (by decide) false (ends_rows o ho mode columns rows)
    have group : Ends mode (.object .table) _ _ := ends_content (by decide) false (ends_singleton inner.object)
    have whole := Ends.object (style.andThen (widths.andThen group))
    simp only [bind_assoc] at whole
    exact whole
  | .html literal => by
    have handled : renderBlock .builtIn o (.html literal) = htmlBlock o (.html literal) := rfl
    rw [handled, htmlBlock]
    cases hr : o.rawMarkup with
    | replay => exact absurd hr ho
    | text => exact Ends.object (ends_content (by decide) false (ends_singleton (Ends.gather .writeText literal)))
    | skip => exact Ends.nothing
  | .custom kind blocks inlines => by
    rw [renderBlock, visitsBlock, firstFault_cons, Visit.fault]
    by_cases hk : kind ∈ blockKinds
    · rw [if_pos hk, handleBlock_custom hk]
      exact Ends.fail _
    · rw [if_neg hk, handleBlock, block?_eq_none hk, firstFault_append]
      exact (ends_blocks o ho mode blocks).andThen (ends_wrapInlines o ho mode inlines)

theorem ends_blocks (o : Options) (ho : o.rawMarkup ≠ .replay) (mode : ValueMode) :
    ∀ bs : List Block, Ends mode .items (inOrder (renderBlocks .builtIn o bs)) (firstFault mode (visitsBlocks bs))
  | [] => Ends.nothing
  | b :: bs => by
    rw [visitsBlocks, firstFault_append]
    exact (ends_block o ho mode b).andThen (ends_blocks o ho mode bs)

theorem ends_items (o : Options) (ho : o.rawMarkup ≠ .replay) (mode : ValueMode) : ∀ items : List (List Block),
    Ends mode .items
      (inOrder ((renderItems .builtIn o items).map fun blocks => object .listItem (content false blocks)))
      (firstFault mode (visitsItems items))
  | [] => Ends.nothing
  | i :: is => by
    rw [visitsItems, firstFault_append]
    exact (Ends.object (ends_content (by decide) false (ends_blocks o ho mode i))).andThen (ends_items o ho mode is)

theorem ends_rows (o : Options) (ho : o.rawMarkup ≠ .replay) (mode : ValueMode) (columns : List Column) :
    ∀ rows : List (Row Block),
      Ends mode .items (inOrder ((renderRows .builtIn o rows).map (tableRow columns)))
        (firstFault mode (visitsRows rows))
  | [] => Ends.nothing
  | r :: rs => by
    rw [visitsRows, firstFault_append]
    exact (ends_row o ho mode columns r).andThen (ends_rows o ho mode columns rs)

theorem ends_row (o : Options) (ho : o.rawMarkup ≠ .replay) (mode : ValueMode) (columns : List Column) :
    ∀ r : Row Block,
      Ends mode .items (tableRow columns (renderRow .builtIn o r)) (firstFault mode (visitsRow r))
  | ⟨isHeader, cells⟩ => by
    have inner : Ends mode (.object .tableRow) _ _ :=
      ends_content (by decide) false (ends_cells o ho mode columns 0 cells)
    cases isHeader with
    | true =>
      have style : Ends mode (.object .tableRow) (Write.style .tableHeader) none := ends_style _ (by decide)
      exact Ends.object (style.andThen inner)
    | false => exact Ends.object inner

theorem ends_cells (o : Options) (ho : o.rawMarkup ≠ .replay) (mode : ValueMode) (columns : List Column)
    (position : Nat) : ∀ cells : List (Cell Block),
      Ends mode .items (inOrder (tableCells columns position (renderCells .builtIn o cells)))
        (firstFault mode (visitsCells cells))
  | [] => Ends.nothing
  | c :: cs => by
    rw [visitsCells, firstFault_append]
    exact (ends_cell o ho mode columns position c).andThen (ends_cells o ho mode columns (position + 1) cs)

theorem ends_cell (o : Options) (ho : o.rawMarkup ≠ .replay) (mode : ValueMode) (columns : List Column)
    (position : Nat) : ∀ c : Cell Block,
      Ends mode .items (tableCell columns position (renderCell .builtIn o c)) (firstFault mode (visitsCell c))
  | ⟨column, columnSpan, rowSpan, blocks⟩ => by
    have style : Ends mode (.object .tableCell) (Write.style .tableCell) none := ends_style _ (by decide)
    have columnsOf : Ends mode (.object .tableCell) (Write.member? (.name "ColumnSpan") (spanValue columnSpan)) _ :=
      ends_span (by decide) columnSpan
    have rowsOf : Ends mode (.object .tableCell) (Write.member? (.name "RowSpan") (spanValue rowSpan)) _ :=
      ends_span (by decide) rowSpan
    have alignment : Ends mode (.object .tableCell) _ none :=
      ends_alignment (cellAlignment columns column position)
    have inner : Ends mode (.object .tableCell) _ _ := ends_content (by decide) false (ends_blocks o ho mode blocks)
    rw [visitsCell, firstFault_cons, Visit.fault, Option.or_assoc]
    exact Ends.object (style.andThen (columnsOf.andThen (rowsOf.andThen (alignment.andThen inner))))

end

/-! ## Documents -/

/-- The first fault of a document. -/
def documentFault (mode : ValueMode) (d : Document) : Option RenderError := firstFault mode (visitsBlocks d)

/-- Writing a document fails at its first fault. -/
theorem documentSignals_error_iff (ho : o.rawMarkup ≠ .replay) (mode : ValueMode) (d : Document) (e : RenderError) :
    documentSignals .builtIn o mode d = .error e ↔ documentFault mode d = some e := by
  have style : Ends mode (.object .flowDocument) (Write.style .document) none := ends_style _ (by decide)
  have written : DocumentEnds .builtIn o mode d (documentFault mode d) :=
    writeDocument_ends (style.andThen (ends_content (by decide) false (ends_blocks o ho mode d)))
  cases hf : documentFault mode d with
  | none =>
    rw [hf] at written
    obtain ⟨g, root, run, -, closed, -⟩ := written
    simp [documentSignals, run, Writer.finish, Draft.writer, closed]
  | some e' =>
    rw [hf] at written
    obtain ⟨g, run, -⟩ := written
    rw [documentSignals, run, Except.error.injEq, Option.some.injEq]

/-- **When rendering fails.** With the built-in handlers and without replay, rendering a document fails exactly if a
node that is visited has a fault, and the error is the first: for records in either mode, for graphs, whose values are
typed, and for markup, whose values are spelled. -/
theorem document_error_iff (ho : o.rawMarkup ≠ .replay) (d : Document) (e : RenderError) :
    (∀ mode, documentEvents .builtIn o mode d = .error e ↔ documentFault mode d = some e) ∧
    (documentGraph .builtIn o d = .error e ↔ documentFault .native d = some e) ∧
    ∀ indent, documentMarkup .builtIn o indent d = .error e ↔ documentFault .text d = some e := by
  have signals := fun mode => documentSignals_error_iff ho mode d e
  refine ⟨fun mode => ?_, ?_, fun indent => ?_⟩
  · exact documentEvents_error_iff.trans (signals mode)
  · exact (documentGraph_error_iff areBuiltIn_builtIn).trans (signals .native)
  · exact (documentMarkup_error_iff areBuiltIn_builtIn).trans (signals .text)

/-- What stands for an image is passed over; the start of a list counts only where it is spelled, and then comes before
what is in the list. -/
theorem document_error_iff_list :
    documentEvents .builtIn {} .text [.paragraph [.link "u" none true [.custom "text" []]],
        .list true (some 2147483648) [[.paragraph [.custom "text" []]]]] =
      .error (.conversion "StartIndex" "Int(2147483648)") ∧
    documentEvents .builtIn {} .native [.paragraph [.link "u" none true [.custom "text" []]],
        .list true (some 2147483648) [[.paragraph [.custom "text" []]]]] =
      .error (.handlerMismatch "text") :=
  ⟨((document_error_iff (by decide) _ _).1 .text).mpr (by decide +kernel),
    ((document_error_iff (by decide) _ _).1 .native).mpr (by decide +kernel)⟩

end FlowDoc.Render
