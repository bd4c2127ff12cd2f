import FlowDoc.Document

/-!
# Markdown documents

The syntax tree of a document. Blocks are parametrised by the content of paragraphs, headings and cells: their raw text
at first, and inlines once those are read.
-/

namespace FlowDoc.Markdown

/-- The constructs that are read besides the core of the language. -/
structure Extensions where
  tables : Bool := true
  strikethrough : Bool := true
  autolink : Bool := true
  tasklist : Bool := true
  superscript : Bool := false
  frontMatter : Bool := true
  deriving DecidableEq

/-- What delimiters around a text make of it. -/
inductive Style
  | emphasis
  | strong
  | strikethrough
  | superscript
  deriving DecidableEq

/-- Where a link leads; the title may be empty. -/
structure Target where
  url : String
  title : String := ""
  deriving DecidableEq

/-- The bytes of a target. -/
def Target.size (t : Target) : Nat := t.url.utf8ByteSize + t.title.utf8ByteSize

/-- A span of a paragraph. -/
inductive Inline
  | text (s : String)
  | softBreak
  | hardBreak
  | code (s : String)
  /-- A tag or another construct of markup, as it was written. -/
  | html (s : String)
  | styled (style : Style) (children : List Inline)
  | link (target : Target) (children : List Inline)
  | image (target : Target) (children : List Inline)

/-- An item of a list over `β` blocks; that of a task list says whether the task is done. -/
structure Item (β : Type) where
  task : Option Bool := none
  blocks : List β

/-- A row of a table. -/
structure TableRow (ι : Type) where
  isHeader : Bool
  cells : List ι

/-- A block whose text is given by `ι`. -/
inductive Block (ι : Type)
  | paragraph (content : ι)
  | heading (level : Nat) (content : ι)
  | code (info : String) (literal : String)
  /-- Markup, as it was written. -/
  | html (literal : String)
  | thematicBreak
  | quote (blocks : List (Block ι))
  /-- A list, which is ordered if it has a start. -/
  | list (start : Option Nat) (items : List (Item (Block ι)))
  | table (alignments : List (Option ColumnAlignment)) (rows : List (TableRow ι))

namespace Block

mutual

/-- Change the content, from the first block to the last. -/
def mapM {ι κ : Type} {m : Type → Type} [Monad m] (f : ι → m κ) : Block ι → m (Block κ)
  | paragraph content => paragraph <$> f content
  | heading level content => heading level <$> f content
  | code info literal => pure (code info literal)
  | html literal => pure (html literal)
  | thematicBreak => pure thematicBreak
  | quote blocks => quote <$> mapListM f blocks
  | list start items => list start <$> mapItemsM f items
  | table alignments rows => table alignments <$> rows.mapM fun r => TableRow.mk r.isHeader <$> r.cells.mapM f

def mapListM {ι κ : Type} {m : Type → Type} [Monad m] (f : ι → m κ) : List (Block ι) → m (List (Block κ))
  | [] => pure []
  | b :: bs => do
    let b ← mapM f b
    return b :: (← mapListM f bs)

def mapItemsM {ι κ : Type} {m : Type → Type} [Monad m] (f : ι → m κ) :
    List (Item (Block ι)) → m (List (Item (Block κ)))
  | [] => pure []
  | ⟨task, blocks⟩ :: items => do
    let blocks ← mapListM f blocks
    return ⟨task, blocks⟩ :: (← mapItemsM f items)

end

/-- Change the content of blocks, each on its own. -/
def mapList {ι κ : Type} (f : ι → κ) (blocks : List (Block ι)) : List (Block κ) :=
  Id.run (mapListM (fun content => pure (f content)) blocks)

end Block

end FlowDoc.Markdown
