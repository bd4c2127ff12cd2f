import FlowDoc.Decimal.Binary64
import FlowDoc.Text.Space

/-!
# Documents

The tree that is rendered: blocks that hold blocks or inlines. Every node has a kind, the tag under which its handler
is looked up; a custom node brings its own.
-/

namespace FlowDoc

inductive ColumnAlignment
  | left
  | center
  | right
  deriving DecidableEq

/-- A column of a table; a width that is not positive is no width. -/
structure Column where
  width : Binary64
  alignment : Option ColumnAlignment
  deriving DecidableEq

/-- A span-level node. -/
inductive Inline
  | text (s : String)
  | lineBreak (hard : Bool)
  | code (s : String)
  /-- A run of `count` delimiters around children. -/
  | emphasis (delimiter : Char) (count : Nat) (children : List Inline)
  /-- A run of delimiters that opened nothing, which stands for itself. -/
  | delimiter (literal : String) (children : List Inline)
  | link (url : String) (title : Option String) (isImage : Bool) (children : List Inline)
  | autolink (url : String) (isEmail : Bool)
  /-- An entity or inline markup, as it was written. -/
  | raw (s : String)
  | task (checked : Bool)
  | custom (kind : String) (children : List Inline)

/-- A cell of a table over `β` blocks. A missing column stands for the cell's position in its row. -/
structure Cell (β : Type) where
  column : Option Nat := none
  columnSpan : Nat := 1
  rowSpan : Nat := 1
  blocks : List β

/-- A row of a table. -/
structure Row (β : Type) where
  isHeader : Bool := false
  cells : List (Cell β)

/-- A structural node. -/
inductive Block
  | paragraph (inlines : List Inline)
  | heading (level : Nat) (inlines : List Inline)
  /-- Code, by its source lines. -/
  | codeBlock (info : Option String) (lines : List String)
  | list (ordered : Bool) (start : Option Nat) (items : List (List Block))
  | quote (blocks : List Block)
  | thematicBreak
  | table (columns : List Column) (rows : List (Row Block))
  /-- Markup, as it was written. -/
  | html (literal : String)
  | custom (kind : String) (blocks : List Block) (inlines : List Inline)

/-- The blocks of a document. -/
abbrev Document := List Block

namespace Inline

/-- The tag of an inline. -/
def kind : Inline → String
  | text _ => "text"
  | lineBreak _ => "line_break"
  | code _ => "code"
  | emphasis _ _ _ => "emphasis"
  | delimiter _ _ => "delimiter"
  | link _ _ _ _ => "link"
  | autolink _ _ => "autolink"
  | raw _ => "raw"
  | task _ => "task_list"
  | custom kind _ => kind

end Inline

namespace Block

/-- The tag of a block. -/
def kind : Block → String
  | paragraph _ => "paragraph"
  | heading _ _ => "heading"
  | codeBlock _ _ => "code_block"
  | list _ _ _ => "list"
  | quote _ => "quote"
  | thematicBreak => "thematic_break"
  | table _ _ => "table"
  | html _ => "html"
  | custom kind _ _ => kind

/-- The lines of a text, without their line feeds; the empty text has none. -/
def linesOf (text : List Char) : List (List Char) :=
  match text with
  | [] => []
  | _ => text.splitOn '\n'

/-- A code block from its literal text, of which one final line feed is dropped. -/
def ofLiteral (info : Option String) (literal : String) : Block :=
  let text := literal.toList
  let text := if text.getLast? == some '\n' then text.dropLast else text
  codeBlock info ((linesOf text).map String.ofList)

end Block

end FlowDoc
