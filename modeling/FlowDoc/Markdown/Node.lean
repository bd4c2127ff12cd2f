import FlowDoc.Markdown.Parse

/-!
# Nodes of a syntax tree

A syntax tree as it is handed on: nodes of a kind, each with its children. Nothing here says which nodes may hold which,
and there are kinds that no document has a place for. What is read from a text has the shape of its blocks and inlines.
-/

namespace FlowDoc.Markdown

/-- What a node is. -/
inductive NodeKind
  | document
  /-- Metadata ahead of the text. -/
  | frontMatter
  | paragraph
  | heading (level : Nat)
  | codeBlock (info literal : String)
  | htmlBlock (literal : String)
  | thematicBreak
  | quote
  /-- A list, which is ordered if it has a start. -/
  | list (start : Option Nat)
  | item
  | task (done : Bool)
  | table (alignments : List (Option ColumnAlignment))
  | row (isHeader : Bool)
  | cell
  | text (s : String)
  | softBreak
  | hardBreak
  | code (s : String)
  | html (s : String)
  | styled (style : Style)
  | link (target : Target)
  | image (target : Target)
  /-- A construct that documents do not have, such as a footnote. -/
  | other
  deriving DecidableEq

/-- A node with its children. -/
inductive Node
  | mk (kind : NodeKind) (children : List Node)

namespace Node

def kind : Node → NodeKind
  | mk kind _ => kind

def children : Node → List Node
  | mk _ children => children

end Node

mutual

/-- The node of an inline. -/
def Inline.node : Inline → Node
  | .text s => .mk (.text s) []
  | .softBreak => .mk .softBreak []
  | .hardBreak => .mk .hardBreak []
  | .code s => .mk (.code s) []
  | .html s => .mk (.html s) []
  | .styled style children => .mk (.styled style) (inlineNodes children)
  | .link target children => .mk (.link target) (inlineNodes children)
  | .image target children => .mk (.image target) (inlineNodes children)

def inlineNodes : List Inline → List Node
  | [] => []
  | i :: is => i.node :: inlineNodes is

end

/-- The node of a row of a table. -/
def TableRow.node (r : TableRow (List Inline)) : Node :=
  .mk (.row r.isHeader) (r.cells.map fun content => .mk .cell (inlineNodes content))

mutual

/-- The node of a block. -/
def Block.node : Block (List Inline) → Node
  | .paragraph content => .mk .paragraph (inlineNodes content)
  | .heading level content => .mk (.heading level) (inlineNodes content)
  | .code info literal => .mk (.codeBlock info literal) []
  | .html literal => .mk (.htmlBlock literal) []
  | .thematicBreak => .mk .thematicBreak []
  | .quote blocks => .mk .quote (blockNodes blocks)
  | .list start items => .mk (.list start) (itemNodes items)
  | .table alignments rows => .mk (.table alignments) (rows.map TableRow.node)

def blockNodes : List (Block (List Inline)) → List Node
  | [] => []
  | b :: bs => b.node :: blockNodes bs

/-- The nodes of items; that of a task is of a kind of its own. -/
def itemNodes : List (Item (Block (List Inline))) → List Node
  | [] => []
  | ⟨none, blocks⟩ :: items => .mk .item (blockNodes blocks) :: itemNodes items
  | ⟨some done, blocks⟩ :: items => .mk (.task done) (blockNodes blocks) :: itemNodes items

end

/-- The syntax tree of a text. -/
def tree (x : Extensions) (source : String) : Node := .mk .document (blockNodes (parse x source))

end FlowDoc.Markdown
