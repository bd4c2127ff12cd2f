import FlowDoc.Proofs.Xaml.Collection
import FlowDoc.Render.Document

/-!
# Documents as trees

What a document is rendered to, by recursion on the document alone: an object for each block (`translateBlock`), and for
a list of inlines their flow (`flattenInline`), in which only what becomes an object of its own is a child.
-/

namespace FlowDoc.Render

open Xaml
open Text (Flow layout)

/-! ## Members -/

/-- The member of a type with one item, as the vocabulary declares it. -/
def itemMember (m : Option Member) (i : ItemPhrase) : List MemberPhrase := m.toList.map fun m => .mk m false [i]

/-- The member of a name with a value. -/
def valueMember (type : ElementType) (name : String) (v : Scalar) : List MemberPhrase :=
  itemMember (type.member? name) (.value v)

/-- The member of a name, if there is a value for it. -/
def valueMember? (type : ElementType) (name : String) : Option Scalar → List MemberPhrase
  | some v => valueMember type name v
  | none => []

/-- A reference to the resource of a role, as the style. -/
def styleMember (theme : Style.Theme) (type : ElementType) (r : Style.Role) : List MemberPhrase :=
  itemMember (type.member? "Style") (.object (.mk .staticResourceExtension
    [.mk .positionalParameters false [.value (.resourceKey (theme.resolve r))]]))

/-- The content of a type: the member is absent if there are no items. -/
def contentMember (type : ElementType) (items : List ItemPhrase) : List MemberPhrase :=
  type.content?.toList.flatMap fun m => MemberPhrase.collect m items

/-- Objects as items. -/
def objectItems (objects : List ObjectPhrase) : List ItemPhrase := objects.map .object

/-- A flow with its text collapsed. -/
def collapsedItems (flow : List (Flow ObjectPhrase)) : List ItemPhrase := (layout .collapse flow).map .ofLaid

/-! ## Inlines -/

/-- The link to a target, around items. -/
def linkObject (theme : Style.Theme) (target : String) (title : Option String) (items : List ItemPhrase) :
    ObjectPhrase :=
  .mk .hyperlink (styleMember theme .hyperlink .hyperlink ++ valueMember .hyperlink "NavigateUri" (.uri target) ++
    valueMember .hyperlink "ToolTip" (.text (title.getD target)) ++ contentMember .hyperlink items)

/-- The image of a target. -/
def imageObject (theme : Style.Theme) (target : String) (title : Option String) : ObjectPhrase :=
  .mk .image (styleMember theme .image .image ++
    (match title with
      | some title => itemMember (getAttached "ToolTipService" "ToolTip").toOption (.value (.text title))
      | none => []) ++
    valueMember .image "Source" (.uri target))

mutual

/-- What an inline puts into its collection. -/
def flattenInline (o : Options) : Inline → List (Flow ObjectPhrase)
  | .text s => [.text s]
  | .lineBreak hard => if hard then [.child (.mk .lineBreak [])] else [.text " "]
  | .code s => [.child (.mk .span (styleMember o.theme .span .code ++ contentMember .span (runOf s)))]
  | .emphasis delimiter count children =>
    match emphasisTarget delimiter count with
    | .element type => [.child (.mk type (contentMember type (collapsedItems (flattenInlines o children))))]
    | .styled role =>
      [.child (.mk .span (styleMember o.theme .span role ++
        contentMember .span (collapsedItems (flattenInlines o children))))]
    | .unwrapped => flattenInlines o children
  | .delimiter literal children => .text literal :: flattenInlines o children
  | .link url title isImage children =>
    let target := o.navigate url
    let title := title.filter (!·.isEmpty)
    if isImage then [.child (imageObject o.theme target title)]
    else [.child (linkObject o.theme target title (collapsedItems (flattenInlines o children)))]
  | .autolink url isEmail =>
    [.child (linkObject o.theme (o.navigate (autolinkTarget url isEmail)) (some url)
      (collapsedItems [.text url]))]
  | .raw s => if o.rawMarkup = .text then [.text s] else []
  | .task checked =>
    [.child (.mk .span (styleMember o.theme .span .taskList ++ valueMember .span "Tag" (.bool checked)))]
  | .custom _ children => flattenInlines o children

def flattenInlines (o : Options) : List Inline → List (Flow ObjectPhrase)
  | [] => []
  | i :: is => flattenInline o i ++ flattenInlines o is

end

/-- The items of a list of inlines. -/
def inlineItems (o : Options) (inlines : List Inline) : List ItemPhrase := collapsedItems (flattenInlines o inlines)

/-! ## Blocks -/

/-- The lines of code: one run, or a run for each line that is not empty and line breaks between the lines. -/
def codeItems : LineJoin → List String → List ItemPhrase
  | .newline, lines => runOf (String.intercalate "\n" lines)
  | .lineBreak, [] => []
  | .lineBreak, l :: ls => runOf l ++ ls.flatMap fun l => .object (.mk .lineBreak []) :: runOf l

/-- The marker of a list and the number that it starts at. -/
def markerMembers (ordered : Bool) (start : Option Nat) : List MemberPhrase :=
  if ordered then
    valueMember .list "MarkerStyle" (.marker .decimal) ++
      valueMember? .list "StartIndex" ((start.filter (· != 1)).map fun n => .int n)
  else valueMember .list "MarkerStyle" (.marker .disc)

def columnObject (c : Column) : ObjectPhrase :=
  .mk .tableColumn (valueMember .tableColumn "Width" (.gridLength (columnWidth c)))

/-- The columns of a table. -/
def columnMember (columns : List Column) : List MemberPhrase :=
  (ElementType.member? .table "Columns").toList.flatMap fun m =>
    MemberPhrase.collect m (objectItems (columns.map columnObject))

/-- Inlines that stand among blocks. -/
def wrappedInlines (o : Options) : List Inline → List ObjectPhrase
  | [] => []
  | inlines => [.mk .paragraph (contentMember .paragraph (inlineItems o inlines))]

mutual

/-- The objects of a block: one, unless raw markup is left out or the block is custom and stands for what is in it. -/
def translateBlock (o : Options) : Block → List ObjectPhrase
  | .paragraph inlines => [.mk .paragraph (contentMember .paragraph (inlineItems o inlines))]
  | .heading level inlines =>
    [.mk .paragraph (styleMember o.theme .paragraph (Style.Role.heading level) ++
      contentMember .paragraph (inlineItems o inlines))]
  | .codeBlock _ lines =>
    [.mk .paragraph (styleMember o.theme .paragraph .codeBlock ++
      contentMember .paragraph (codeItems o.lineJoin lines))]
  | .list ordered start items =>
    [.mk .list (markerMembers ordered start ++ contentMember .list (objectItems (translateItems o items)))]
  | .quote blocks =>
    [.mk .sectionElement (styleMember o.theme .sectionElement .quoteBlock ++
      contentMember .sectionElement (objectItems (translateBlocks o blocks)))]
  | .thematicBreak => [.mk .paragraph (styleMember o.theme .paragraph .thematicBreak)]
  | .table columns rows =>
    [.mk .table (styleMember o.theme .table .table ++ columnMember columns ++
      contentMember .table [.object (.mk .tableRowGroup
        (contentMember .tableRowGroup (objectItems (translateRows o columns rows))))])]
  | .html literal =>
    if o.rawMarkup = .text then [.mk .paragraph (contentMember .paragraph (collapsedItems [.text literal]))] else []
  | .custom _ blocks inlines => translateBlocks o blocks ++ wrappedInlines o inlines

def translateBlocks (o : Options) : List Block → List ObjectPhrase
  | [] => []
  | b :: bs => translateBlock o b ++ translateBlocks o bs

/-- One list item for each item. -/
def translateItems (o : Options) : List (List Block) → List ObjectPhrase
  | [] => []
  | i :: is => .mk .listItem (contentMember .listItem (objectItems (translateBlocks o i))) :: translateItems o is

/-- One row for each row. -/
def translateRows (o : Options) (columns : List Column) : List (Row Block) → List ObjectPhrase
  | [] => []
  | r :: rs => translateRow o columns r :: translateRows o columns rs

def translateRow (o : Options) (columns : List Column) : Row Block → ObjectPhrase
  | ⟨isHeader, cells⟩ =>
    .mk .tableRow ((if isHeader then styleMember o.theme .tableRow .tableHeader else []) ++
      contentMember .tableRow (objectItems (translateCells o columns 0 cells)))

/-- One cell for each cell, the first of them at `position` in its row. -/
def translateCells (o : Options) (columns : List Column) (position : Nat) : List (Cell Block) → List ObjectPhrase
  | [] => []
  | c :: cs => translateCell o columns position c :: translateCells o columns (position + 1) cs

def translateCell (o : Options) (columns : List Column) (position : Nat) : Cell Block → ObjectPhrase
  | ⟨column, columnSpan, rowSpan, blocks⟩ =>
    .mk .tableCell (styleMember o.theme .tableCell .tableCell ++
      valueMember? .tableCell "ColumnSpan" (spanValue columnSpan) ++
      valueMember? .tableCell "RowSpan" (spanValue rowSpan) ++
      valueMember? .tableCell "TextAlignment" ((cellAlignment columns column position).map Scalar.alignment) ++
      contentMember .tableCell (objectItems (translateBlocks o blocks)))

end

/-- The root of a document. -/
def translateDocument (o : Options) (d : Document) : ObjectPhrase :=
  .mk .flowDocument (styleMember o.theme .flowDocument .document ++
    contentMember .flowDocument (objectItems (translateBlocks o d)))

/-- The namespaces in front of a document. -/
def documentNamespaces (o : Options) : List NamespaceDecl :=
  [⟨"", presentationNamespace⟩, ⟨"x", languageNamespace⟩, ⟨o.theme.keyClass.pre, o.theme.keyClass.namespaceUri⟩]

end FlowDoc.Render
