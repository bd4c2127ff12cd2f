import FlowDoc.Markdown.Node

/-!
# From Markdown to documents

Each construct of Markdown becomes a node of a document. A link that shows its own address becomes an autolink, the box
of a task becomes a marker in front of the item's text, and the text of a cell becomes a paragraph. A node that has no
place where it stands is passed over, but a list has to hold items, and a table rows.
-/

namespace FlowDoc.Markdown

/-- Why a syntax tree is no document. -/
inductive TreeFault
  | listChild
  | tableChild
  deriving DecidableEq

def TreeFault.text : TreeFault → String
  | listChild => "list contains a non-item child"
  | tableChild => "table contains a non-row child"

/-! ## Inlines -/

/-- The text that a node is. -/
def NodeKind.literal : NodeKind → String
  | text s => s
  | _ => ""

mutual

/-- The texts of a node and of all nodes in it. -/
def Node.plainText : Node → String
  | .mk kind children => kind.literal ++ plainTexts children

/-- The texts in nodes. -/
def plainTexts : List Node → String
  | [] => ""
  | n :: ns => n.plainText ++ plainTexts ns

end

/-- A title that is not empty. -/
def title? (t : Target) : Option String := if t.title.isEmpty then none else some t.title

/-- The delimiters of a style. -/
def Style.delimiter : Style → Char × Nat
  | emphasis => ('*', 1)
  | strong => ('*', 2)
  | strikethrough => ('~', 2)
  | superscript => ('^', 2)

/-- The address of a mail link that shows `shown`. -/
def isMailOf (url shown : String) : Bool := url == "mailto:" ++ shown

/-- A link with children, or an autolink if the link shows its own address. -/
def linkNode (target : Target) (shown : String) (children : List FlowDoc.Inline) : FlowDoc.Inline :=
  if shown == target.url then .autolink target.url false
  else if isMailOf target.url shown then .autolink shown true
  else .link target.url (title? target) false children

mutual

/-- A node as an inline of a document, if it is one. -/
def Node.toInline? : Node → Option FlowDoc.Inline
  | .mk kind children =>
    match kind with
    | .text s => some (.text s)
    | .softBreak => some (.lineBreak false)
    | .hardBreak => some (.lineBreak true)
    | .code s => some (.code s)
    | .html s => some (.raw s)
    | .styled style => some (.emphasis style.delimiter.1 style.delimiter.2 (toInlines children))
    | .link target => some (linkNode target (plainTexts children) (toInlines children))
    | .image target => some (.link target.url (title? target) true (toInlines children))
    | _ => none

/-- Those of the nodes that are inlines. -/
def toInlines : List Node → List FlowDoc.Inline
  | [] => []
  | n :: ns => n.toInline?.toList ++ toInlines ns

end

/-! ## Blocks -/

/-- The blocks of a cell: a paragraph, or none if the cell is empty. -/
def cellBlocks (inlines : List FlowDoc.Inline) : List FlowDoc.Block :=
  if inlines.isEmpty then [] else [.paragraph inlines]

/-- Put the marker of a task in front of an item. -/
def addMarker (checked : Bool) : List FlowDoc.Block → List FlowDoc.Block
  | .paragraph inlines :: blocks => .paragraph (.task checked :: inlines) :: blocks
  | blocks => .paragraph [.task checked] :: blocks

/-- The largest start of a list. -/
def startLimit : Nat := Nat.pow 2 32 - 1

/-- A node as a row of a table. -/
def Node.toRow : Node → Except TreeFault (Row FlowDoc.Block)
  | .mk (.row isHeader) cells =>
    .ok { isHeader, cells := cells.map fun cell => { blocks := cellBlocks (toInlines cell.children) } }
  | _ => .error .tableChild

mutual

/-- A node as a block of a document, if it is one. -/
def Node.toBlock? : Node → Except TreeFault (Option FlowDoc.Block)
  | .mk kind children =>
    match kind with
    | .paragraph => .ok (some (.paragraph (toInlines children)))
    | .heading level => .ok (some (.heading level (toInlines children)))
    | .codeBlock info literal => .ok (some (.ofLiteral (if info.isEmpty then none else some info) literal))
    | .htmlBlock literal => .ok (some (.html literal))
    | .thematicBreak => .ok (some .thematicBreak)
    | .quote => do return some (.quote (← toBlocks children))
    | .list start => do return some (.list start.isSome (start.map (min · startLimit)) (← toItems children))
    | .table alignments => do
      return some (.table (alignments.map fun a => ⟨Binary64.zero, a⟩) (← children.mapM Node.toRow))
    | _ => .ok none

/-- Those of the nodes that are blocks. -/
def toBlocks : List Node → Except TreeFault (List FlowDoc.Block)
  | [] => .ok []
  | n :: ns => do
    let block? ← n.toBlock?
    return block?.toList ++ (← toBlocks ns)

/-- A node as an item of a list. -/
def Node.toItem : Node → Except TreeFault (List FlowDoc.Block)
  | .mk kind children =>
    match kind with
    | .item => toBlocks children
    | .task checked => addMarker checked <$> toBlocks children
    | _ => .error .listChild

/-- The items of a list. -/
def toItems : List Node → Except TreeFault (List (List FlowDoc.Block))
  | [] => .ok []
  | n :: ns => do
    let item ← n.toItem
    return item :: (← toItems ns)

end

/-- The document of a syntax tree. -/
def Node.toDocument (n : Node) : Except TreeFault Document := toBlocks n.children

/-- Read a document. -/
def read (x : Extensions) (source : String) : Except TreeFault Document := (tree x source).toDocument

end FlowDoc.Markdown
