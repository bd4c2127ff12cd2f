import FlowDoc.Xaml.Value
import FlowDoc.RenderError

/-!
# Style roles

The closed set of slots that styled elements name. A role stands for a resource key, by default its name followed by
`StyleKey`; role names are read without regard to the case of ASCII letters.
-/

namespace FlowDoc.Style

/-- A styling slot. -/
inductive Role
  | document
  | code
  | codeBlock
  | heading1
  | heading2
  | heading3
  | heading4
  | heading5
  | heading6
  | image
  | inserted
  | marked
  | quoteBlock
  | strikeThrough
  | subscript
  | superscript
  | table
  | tableCell
  | tableHeader
  | taskList
  | thematicBreak
  | hyperlink
  deriving DecidableEq

namespace Role

/-- The roles in the order in which they are listed. -/
def all : List Role :=
  [document, code, codeBlock, heading1, heading2, heading3, heading4, heading5, heading6, image, inserted, marked,
    quoteBlock, strikeThrough, subscript, superscript, table, tableCell, tableHeader, taskList, thematicBreak,
    hyperlink]

def name : Role → String
  | document => "Document"
  | code => "Code"
  | codeBlock => "CodeBlock"
  | heading1 => "Heading1"
  | heading2 => "Heading2"
  | heading3 => "Heading3"
  | heading4 => "Heading4"
  | heading5 => "Heading5"
  | heading6 => "Heading6"
  | image => "Image"
  | inserted => "Inserted"
  | marked => "Marked"
  | quoteBlock => "QuoteBlock"
  | strikeThrough => "StrikeThrough"
  | subscript => "Subscript"
  | superscript => "Superscript"
  | table => "Table"
  | tableCell => "TableCell"
  | tableHeader => "TableHeader"
  | taskList => "TaskList"
  | thematicBreak => "ThematicBreak"
  | hyperlink => "Hyperlink"

/-- The role of a heading; levels outside one to six are moved to the nearer end. -/
def heading : Nat → Role
  | 0 | 1 => heading1
  | 2 => heading2
  | 3 => heading3
  | 4 => heading4
  | 5 => heading5
  | _ => heading6

/-- The built-in key. -/
def defaultKey (r : Role) : ResourceKey := ⟨r.name ++ "StyleKey"⟩

/-- A name with its ASCII letters in lower case. -/
def foldCase (s : String) : List Char := s.toList.map Char.toLower

/-- The role of a name. -/
def ofName (s : String) : Except RenderError Role :=
  match all.find? fun r => foldCase r.name == foldCase s with
  | some r => .ok r
  | none => .error (.unknownStyleRole s)

end Role

/-- A style named by its role, or a resource key as it is. -/
inductive Ref
  | role (r : Role)
  | key (k : ResourceKey)
  deriving DecidableEq

end FlowDoc.Style
