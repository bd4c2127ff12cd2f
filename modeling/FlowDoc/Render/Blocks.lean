import FlowDoc.Render.Replay
import FlowDoc.Render.Shape

/-!
# Handlers of blocks

Paragraphs, headings, code, lists, quotes, rules, tables and raw markup. Each answers a node of another kind with a
mismatch.
-/

namespace FlowDoc.Render

open Xaml
open Style (Role)

def paragraph : BlockHandler
  | _, .paragraph inlines => object .paragraph (content false inlines)
  | _, _ => mismatch "paragraph"

def heading : BlockHandler
  | _, .heading level inlines => object .paragraph do
    Write.style (Role.heading level)
    content false inlines
  | _, _ => mismatch "heading"

/-- What is written between two lines of code. -/
def LineJoin.separator : LineJoin → Write Unit
  | .newline => Write.char '\n'
  | .lineBreak => Write.lineBreak

/-- The lines of code with separators between them. -/
def codeLines (join : LineJoin) : List String → List (Write Unit)
  | [] => []
  | [l] => [Write.text l]
  | l :: ls => Write.text l :: join.separator :: codeLines join ls

def codeBlock : BlockHandler
  | o, .codeBlock _ lines => object .paragraph do
    Write.style .codeBlock
    content true (codeLines o.lineJoin lines)
  | _, _ => mismatch "code_block"

/-- The marker of a list, and where its numbers start if that is not at one. -/
def listMembers (ordered : Bool) (start : Option Nat) : Write Unit :=
  if ordered then do
    Write.member (.name "MarkerStyle") (.marker .decimal)
    Write.member? (.name "StartIndex") ((start.filter (· != 1)).map fun n => .int n)
  else Write.member (.name "MarkerStyle") (.marker .disc)

def list : BlockHandler
  | _, .list ordered start items => object .list do
    listMembers ordered start
    content false (items.map fun blocks => object .listItem (content false blocks))
  | _, _ => mismatch "list"

def quote : BlockHandler
  | _, .quote blocks => object .sectionElement do
    Write.style .quoteBlock
    content false blocks
  | _, _ => mismatch "quote"

def thematicBreak : BlockHandler
  | _, .thematicBreak => object .paragraph (Write.style .thematicBreak)
  | _, _ => mismatch "thematic_break"

/-! ## Tables -/

/-- The column that a cell takes its alignment from: the declared one if it exists, else that of its position, or the
last one if there are too few. -/
def effectiveColumn (declared : Option Nat) (position columns : Nat) : Option Nat :=
  if columns = 0 then none
  else some (min ((declared.filter (· < columns)).getD position) (columns - 1))

/-- A share of the width, or whatever is needed. -/
def columnWidth (c : Column) : GridLength := if c.width.isPositive then .star c.width else .auto

def textAlignment : ColumnAlignment → TextAlignment
  | .left => .left
  | .center => .center
  | .right => .right

/-- The value of a span of more than one. -/
def spanValue (n : Nat) : Option Scalar := if 1 < n then some (.int n) else none

/-- The alignment of a cell at a position of its row. -/
def cellAlignment (columns : List Column) (declared : Option Nat) (position : Nat) : Option TextAlignment := do
  let i ← effectiveColumn declared position columns.length
  let c ← columns[i]?
  textAlignment <$> c.alignment

def tableCell (columns : List Column) (position : Nat) (c : Cell (Write Unit)) : Write Unit :=
  object .tableCell do
    Write.style .tableCell
    Write.member? (.name "ColumnSpan") (spanValue c.columnSpan)
    Write.member? (.name "RowSpan") (spanValue c.rowSpan)
    Write.member? (.name "TextAlignment") ((cellAlignment columns c.column position).map Scalar.alignment)
    content false c.blocks

/-- The cells of a row from a position on. -/
def tableCells (columns : List Column) (position : Nat) : List (Cell (Write Unit)) → List (Write Unit)
  | [] => []
  | c :: cs => tableCell columns position c :: tableCells columns (position + 1) cs

def tableRow (columns : List Column) (r : Row (Write Unit)) : Write Unit :=
  object .tableRow do
    if r.isHeader then Write.style .tableHeader
    content false (tableCells columns 0 r.cells)

def tableColumn (c : Column) : Write Unit :=
  object .tableColumn (Write.member (.name "Width") (.gridLength (columnWidth c)))

def table : BlockHandler
  | _, .table columns rows => object .table do
    Write.style .table
    Write.startItems (.name "Columns") false
    inOrder (columns.map tableColumn)
    Write.endItems
    content false [object .tableRowGroup (content false (rows.map (tableRow columns)))]
  | _, _ => mismatch "table"

/-! ## Raw markup -/

def htmlBlock : BlockHandler
  | o, .html literal =>
    match o.rawMarkup with
    | .replay => replayFragment (String.ofList (Text.trim Text.isSpace literal.toList))
    | .text => object .paragraph (content false [Write.text literal])
    | .skip => pure ()
  | _, _ => mismatch "html"

end FlowDoc.Render
