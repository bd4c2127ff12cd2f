import FlowDoc.Markdown.Cells
import FlowDoc.Markdown.Html
import FlowDoc.Markdown.Link
import FlowDoc.Markdown.Marker

/-!
# Open blocks

While a document is read line by line, some of its blocks are open: containers, one in the other, and what the
innermost of them ends in. Closing a block adds it to the container around it; a paragraph gives up the definitions at
its head when it is closed, and is no block if nothing else is left.
-/

namespace FlowDoc.Markdown

/-- A block whose text is not read yet. -/
abbrev RawBlock := Block (List Char)

/-- A list, its items in reverse. -/
structure OpenList where
  marker : ListMarker
  items : List (List RawBlock) := []

/-- A container that is open, its closed blocks in reverse. -/
inductive Frame
  | quote (blocks : List RawBlock)
  /-- An item whose content is indented by `width`, after the items of `list`. -/
  | item (list : OpenList) (width : Nat) (blocks : List RawBlock)

/-- A block that is made of lines, the lines in reverse. -/
inductive Leaf
  /-- A paragraph; `settled` if one of its lines has already turned out to be no table. -/
  | paragraph (lines : List (List Char)) (settled : Bool)
  | indentedCode (lines : List (List Char))
  | fencedCode (fence : Fence) (info : List Char) (lines : List (List Char))
  | html (kind : HtmlKind) (lines : List (List Char))
  | table (alignments : List (Option ColumnAlignment)) (rows : List (TableRow (List Char)))

/-- What the innermost container ends in. -/
inductive Tip
  | closed
  /-- A list after one of its items. -/
  | list (l : OpenList)
  | leaf (l : Leaf)

/-- A document of which some lines are read. -/
structure OpenDocument where
  /-- The closed blocks, in reverse. -/
  blocks : List RawBlock := []
  /-- The open containers, innermost first. -/
  frames : List Frame := []
  tip : Tip := .closed
  references : References := []

/-- The text of lines in reverse. -/
def textOf (lines : List (List Char)) : List Char := lines.reverse.flatten

namespace OpenList

/-- The list when it is closed. -/
def close (l : OpenList) : RawBlock := .list l.marker.start (l.items.reverse.map fun blocks => ⟨none, blocks⟩)

end OpenList

namespace Frame

/-- Add a closed block. -/
def add (b : RawBlock) : Frame → Frame
  | quote blocks => quote (b :: blocks)
  | item list width blocks => item list width (b :: blocks)

/-- Whether a container goes on in a line, and where its content begins; an item that holds nothing yet ends at a blank
line. -/
def continue? (holds : Bool) (c : Cursor) : Frame → Option Cursor
  | quote _ =>
    match c.text.rest with
    | '>' :: _ =>
      if c.indent ≤ 3 then
        let c := c.text.drop 1
        some (if c.atBlank then c.step else c)
      else none
    | _ => none
  | item _ width blocks =>
    if width ≤ c.indent then some (c.advance width)
    else if c.isBlank && (holds || !blocks.isEmpty) then some c.text
    else none

end Frame

namespace OpenDocument

/-- Add a closed block to the innermost container. -/
def add (b : RawBlock) (d : OpenDocument) : OpenDocument :=
  match d.frames with
  | f :: frames => { d with frames := f.add b :: frames }
  | [] => { d with blocks := b :: d.blocks }

/-- The lines of a block of code without the blank ones at its end. -/
def dropBlankEnd (lines : List (List Char)) : List (List Char) := lines.dropWhile fun l => l.all isGap

/-- Close a block of lines. -/
def closeLeaf (d : OpenDocument) : Leaf → OpenDocument
  | .paragraph lines _ =>
    let (references, content) := takeDefinitions d.references (textOf lines)
    let d := { d with references }
    if content.all isGap then d else d.add (.paragraph content)
  | .indentedCode lines => d.add (.code "" (String.ofList (textOf (dropBlankEnd lines))))
  | .fencedCode _ info lines => d.add (.code (infoOf info) (String.ofList (textOf lines)))
  | .html _ lines => d.add (.html (String.ofList (textOf lines)))
  | .table alignments rows => d.add (.table alignments rows.reverse)

/-- Close what the innermost container ends in. -/
def closeTip (d : OpenDocument) : OpenDocument :=
  match d.tip with
  | .closed => d
  | .list l => { d with tip := .closed }.add l.close
  | .leaf l => { d with tip := .closed }.closeLeaf l

/-- Close the innermost container. Its list stays open when an item is closed. -/
def closeFrame (d : OpenDocument) : OpenDocument :=
  let d := d.closeTip
  match d.frames with
  | [] => d
  | .quote blocks :: frames => { d with frames }.add (.quote blocks.reverse)
  | .item list _ blocks :: frames =>
    { d with frames, tip := .list { list with items := blocks.reverse :: list.items } }

/-- Close the `n` innermost containers. -/
def closeFrames : (n : Nat) → OpenDocument → OpenDocument
  | 0, d => d
  | n + 1, d => closeFrames n d.closeFrame

/-- Close all blocks: the blocks of the document, and the targets that it defines. -/
def close (d : OpenDocument) : List RawBlock × References :=
  let d := (d.closeFrames d.frames.length).closeTip
  (d.blocks.reverse, d.references)

/-- Whether the document ends in a paragraph. -/
def inParagraph (d : OpenDocument) : Bool :=
  match d.tip with
  | .leaf (.paragraph _ _) => true
  | _ => false

/-- Open a container. -/
def push (f : Frame) (d : OpenDocument) : OpenDocument :=
  let d := d.closeTip
  { d with frames := f :: d.frames }

/-- Open an item whose content is indented by `width`, in the list before it if that has the same mark. -/
def pushItem (marker : ListMarker) (width : Nat) (d : OpenDocument) : OpenDocument :=
  match d.tip with
  | .list l =>
    if l.marker.mark = marker.mark then { d with frames := .item l width [] :: d.frames, tip := .closed }
    else d.push (.item { marker } width [])
  | _ => d.push (.item { marker } width [])

/-- Begin a block of lines. -/
def beginLeaf (l : Leaf) (d : OpenDocument) : OpenDocument := { d.closeTip with tip := .leaf l }

/-- Add a whole block. -/
def addBlock (b : RawBlock) (d : OpenDocument) : OpenDocument := d.closeTip.add b

/-- Take the text of a line that begins no block: it goes on with a paragraph, or begins one. -/
def addText (c : Cursor) (d : OpenDocument) : OpenDocument :=
  if c.isBlank then d
  else match d.tip with
    | .leaf (.paragraph lines settled) => { d with tip := .leaf (.paragraph (c.text.line :: lines) settled) }
    | _ => d.beginLeaf (.paragraph [c.text.line] false)

end OpenDocument

end FlowDoc.Markdown
