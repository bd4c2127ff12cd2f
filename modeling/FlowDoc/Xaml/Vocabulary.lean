import FlowDoc.Xaml.Value
import FlowDoc.RenderError

/-!
# The vocabulary of flow documents

The types a document is made of, the members each declares, and how a member's value is spelled. A type inherits the
members and the content property of its base types, so look-ups walk `ElementType.chain`.
-/

namespace FlowDoc.Xaml

/-- The namespace of the flow document types. -/
def presentationNamespace : String := "http://schemas.microsoft.com/winfx/2006/xaml/presentation"

/-- The namespace of the language itself. -/
def languageNamespace : String := "http://schemas.microsoft.com/winfx/2006/xaml"

/-- How the value of a member is turned into markup. -/
inductive ValueForm
  | text
  | int32
  | double
  | boolean
  | uri
  /-- An enumeration, by the name of its type. -/
  | enumeration (typeName : String)
  | gridLength
  /-- Any scalar, as it is spelled. -/
  | object
  deriving DecidableEq

namespace ValueForm

/-- The name under which a form is listed. -/
def label : ValueForm → String
  | text => "String"
  | int32 => "Int32"
  | double => "Double"
  | boolean => "Boolean"
  | uri => "Uri"
  | enumeration typeName => "Enum:" ++ typeName
  | gridLength => "GridLength"
  | object => "Object"

/-- Whether a value fits a form. A text fits every form, and every value an object. -/
def accepts : ValueForm → Scalar → Bool
  | _, .text _ => true
  | object, _ => true
  | int32, .int n => -2147483648 ≤ n && n ≤ 2147483647
  | double, .int _ => true
  | double, .double _ => true
  | boolean, .bool _ => true
  | uri, .uri _ => true
  | enumeration typeName, .alignment _ => typeName == "TextAlignment"
  | enumeration typeName, .marker _ => typeName == "TextMarkerStyle"
  | gridLength, .gridLength _ => true
  | _, _ => false

/-- The markup spelling of a value that fits. -/
def spell (form : ValueForm) (member : String) (value : Scalar) : Except RenderError String :=
  if form.accepts value then .ok value.display else .error (.conversion member value.debug)

end ValueForm

inductive MemberKind
  | property
  /-- Declared on one type and set on objects of any type. -/
  | attached
  /-- A member of the language, such as the positional arguments of a markup extension. -/
  | directive
  deriving DecidableEq

def MemberKind.label : MemberKind → String
  | property => "property"
  | attached => "attached"
  | directive => "directive"

/-- A member as its type declares it. -/
structure MemberDecl where
  name : String
  form : ValueForm
  collection : Bool := false
  attachable : Bool := false
  deriving DecidableEq

/-- A resolved member, tied to the type that declares it. -/
structure Member where
  owner : String
  name : String
  form : ValueForm
  kind : MemberKind
  collection : Bool
  deriving DecidableEq

namespace Member

/-- The arguments of a markup extension that stand without a name. -/
def positionalParameters : Member := ⟨"x", "_PositionalParameters", .object, .directive, true⟩

def qualifiedName (m : Member) : String :=
  match m.kind with
  | .directive => "x:" ++ m.name
  | _ => m.owner ++ "." ++ m.name

end Member

/-- The types of the vocabulary. -/
inductive ElementType
  | frameworkContentElement
  | frameworkElement
  | textElement
  | block
  | inline
  | flowDocument
  | paragraph
  | sectionElement
  | list
  | listItem
  | table
  | tableColumn
  | tableRowGroup
  | tableRow
  | tableCell
  | run
  | span
  | bold
  | italic
  | underline
  | hyperlink
  | lineBreak
  | image
  | toolTipService
  | staticResourceExtension
  | staticExtension
  deriving DecidableEq

namespace ElementType

/-- The types in the order of the vocabulary. -/
def all : List ElementType :=
  [frameworkContentElement, frameworkElement, textElement, block, inline, flowDocument, paragraph, sectionElement, list,
    listItem, table, tableColumn, tableRowGroup, tableRow, tableCell, run, span, bold, italic, underline, hyperlink,
    lineBreak, image, toolTipService, staticResourceExtension, staticExtension]

def name : ElementType → String
  | frameworkContentElement => "FrameworkContentElement"
  | frameworkElement => "FrameworkElement"
  | textElement => "TextElement"
  | block => "Block"
  | inline => "Inline"
  | flowDocument => "FlowDocument"
  | paragraph => "Paragraph"
  | sectionElement => "Section"
  | list => "List"
  | listItem => "ListItem"
  | table => "Table"
  | tableColumn => "TableColumn"
  | tableRowGroup => "TableRowGroup"
  | tableRow => "TableRow"
  | tableCell => "TableCell"
  | run => "Run"
  | span => "Span"
  | bold => "Bold"
  | italic => "Italic"
  | underline => "Underline"
  | hyperlink => "Hyperlink"
  | lineBreak => "LineBreak"
  | image => "Image"
  | toolTipService => "ToolTipService"
  | staticResourceExtension => "StaticResourceExtension"
  | staticExtension => "StaticExtension"

/-- The namespace of a type's name. -/
def space : ElementType → String
  | staticExtension => languageNamespace
  | _ => presentationNamespace

def isMarkupExtension : ElementType → Bool
  | staticResourceExtension | staticExtension => true
  | _ => false

/-- The type this one derives from. -/
def base? : ElementType → Option ElementType
  | textElement | flowDocument | tableColumn => some frameworkContentElement
  | block | inline | listItem | tableRowGroup | tableRow | tableCell => some textElement
  | paragraph | sectionElement | list | table => some block
  | run | span | lineBreak => some inline
  | bold | italic | underline | hyperlink => some span
  | image => some frameworkElement
  | frameworkContentElement | frameworkElement | toolTipService | staticResourceExtension | staticExtension => none

/-- The content property a type declares itself. -/
def ownContent? : ElementType → Option String
  | flowDocument | sectionElement | listItem | tableCell => some "Blocks"
  | paragraph | span => some "Inlines"
  | list => some "ListItems"
  | table => some "RowGroups"
  | tableRowGroup => some "Rows"
  | tableRow => some "Cells"
  | run => some "Text"
  | _ => none

/-- A declaration of a plain property. -/
def plain (name : String) (form : ValueForm) : MemberDecl := { name, form }

/-- A declaration of a collection. -/
def items (name : String) : MemberDecl := { name, form := .object, collection := true }

/-- The members a type declares itself. -/
def ownMembers : ElementType → List MemberDecl
  | frameworkContentElement =>
    [plain "Style" .object, plain "ToolTip" .object, plain "Tag" .object, plain "Name" .text]
  | frameworkElement =>
    [plain "Style" .object, plain "ToolTip" .object, plain "Tag" .object, plain "Name" .text, plain "Width" .double,
      plain "Height" .double]
  | textElement => [plain "FontFamily" .text, plain "FontSize" .double]
  | block => [plain "TextAlignment" (.enumeration "TextAlignment"), plain "Margin" .text]
  | flowDocument => [items "Blocks", items "Resources"]
  | paragraph | span => [items "Inlines"]
  | sectionElement | listItem => [items "Blocks"]
  | list =>
    [items "ListItems", plain "MarkerStyle" (.enumeration "TextMarkerStyle"), plain "StartIndex" .int32]
  | table => [items "RowGroups", items "Columns", plain "CellSpacing" .double]
  | tableColumn => [plain "Width" .gridLength]
  | tableRowGroup => [items "Rows"]
  | tableRow => [items "Cells"]
  | tableCell =>
    [items "Blocks", plain "ColumnSpan" .int32, plain "RowSpan" .int32,
      plain "TextAlignment" (.enumeration "TextAlignment")]
  | run => [plain "Text" .text]
  | hyperlink => [plain "NavigateUri" .uri]
  | image => [plain "Source" .uri]
  | toolTipService => [{ name := "ToolTip", form := .object, attachable := true }]
  | staticResourceExtension => [plain "ResourceKey" .object]
  | staticExtension => [plain "Member" .text]
  | inline | bold | italic | underline | lineBreak => []

/-- The type of a name. -/
def ofName? (s : String) : Option ElementType := all.find? (·.name == s)

/-- A type and its base types, at most `fuel` of them. -/
def chainFrom : (fuel : Nat) → ElementType → List ElementType
  | 0, _ => []
  | fuel + 1, t => t :: (match t.base? with
    | some b => chainFrom fuel b
    | none => [])

/-- A type and its base types, nearest first; no chain is longer than five. -/
def chain (t : ElementType) : List ElementType := chainFrom 5 t

/-- The member a type declares itself under a name. -/
def ownMember? (t : ElementType) (member : String) : Option Member :=
  (t.ownMembers.find? fun d => d.name == member && !d.attachable).map fun d =>
    ⟨t.name, d.name, d.form, .property, d.collection⟩

/-- The member of a name, declared by the type or the nearest of its base types. -/
def member? (t : ElementType) (member : String) : Option Member := t.chain.findSome? (·.ownMember? member)

/-- The member that takes child items, declared by the type or the nearest of its base types. -/
def content? (t : ElementType) : Option Member :=
  t.chain.findSome? fun s => s.ownContent?.bind s.member?

end ElementType

/-- Look a type up by name. -/
def getType (name : String) : Except RenderError ElementType :=
  match ElementType.ofName? name with
  | some t => .ok t
  | none => .error (.unknownType name)

/-- Look a type up by the namespace and name of an element. A markup extension is found without its suffix too. -/
def getTypeIn (space name : String) : Except RenderError ElementType :=
  match ElementType.all.find? fun t => t.space == space && (t.name == name || t.name == name ++ "Extension") with
  | some t => .ok t
  | none => .error (.unknownType name)

/-- Look a member up on a type. -/
def getMember (t : ElementType) (name : String) : Except RenderError Member :=
  match t.member? name with
  | some m => .ok m
  | none => .error (.unknownMember t.name name)

/-- Look an attached member up on the type that declares it. -/
def getAttached (owner name : String) : Except RenderError Member :=
  match ElementType.ofName? owner with
  | none => .error (.unknownType owner)
  | some t =>
    match t.ownMembers.find? fun d => d.name == name && d.attachable with
    | some d => .ok ⟨t.name, d.name, d.form, .attached, d.collection⟩
    | none => .error (.unknownMember owner name)

/-- The content member of a type. -/
def getContent (t : ElementType) : Except RenderError Member :=
  match t.content? with
  | some m => .ok m
  | none => .error (.noContentProperty t.name)

end FlowDoc.Xaml
