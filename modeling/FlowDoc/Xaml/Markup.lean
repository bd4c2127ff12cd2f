import FlowDoc.Text.Space
import FlowDoc.Xaml.Graph
import FlowDoc.Xml.Element

/-!
# The markup of a graph

An object becomes an element. A member that is not content and holds one scalar or one markup extension becomes an
attribute, any other such member a property element, and the content items become children. An extension is written in
braces, nested ones included. Text that a reader's white space normalisation would change gets `xml:space="preserve"`,
and an element whose content is text or inlines is flow content. The namespaces stand on the root element.
-/

namespace FlowDoc.Xaml

/-- A name with the prefix of its namespace, if that is declared with one. -/
def qualify (namespaces : List NamespaceDecl) (space name : String) : String :=
  match namespaces.find? (·.uri == space) with
  | some ns => if ns.pre.isEmpty then name else ns.pre ++ ":" ++ name
  | none => name

/-- The attribute that declares a namespace. -/
def NamespaceDecl.attribute (ns : NamespaceDecl) : String × String :=
  (if ns.pre.isEmpty then "xmlns" else "xmlns:" ++ ns.pre, ns.uri)

/-! ## Markup extensions -/

/-- Characters that force an argument into quotes. -/
def isExtensionMark (c : Char) : Bool := c == ',' || c == '{' || c == '}' || c == '=' || c == '\''

/-- An argument in quotes, a quote inside it behind a backslash. -/
def quoteArgument (s : String) : String :=
  String.ofList ('\'' :: s.toList.flatMap (fun c => if c == '\'' then ['\\', '\''] else [c]) ++ ['\''])

/-- A text as an argument of a markup extension. -/
def extensionArgument (s : String) : String :=
  if s.isEmpty || s.toList.any isExtensionMark then quoteArgument s else s

/-- A type name without the suffix of extension types. -/
def extensionShortName (name : String) : String :=
  match Text.stripPrefix? "Extension".toList.reverse name.toList.reverse with
  | some rest => String.ofList rest.reverse
  | none => name

/-- A name and arguments in braces. -/
def braced (name : String) (arguments : List String) : String :=
  "\x7b" ++ name ++ (if arguments.isEmpty then "" else " " ++ ", ".intercalate arguments) ++ "\x7d"

mutual

/-- An object in brace syntax. -/
def Object.extension (namespaces : List NamespaceDecl) : Object → String
  | .mk type members =>
    braced (qualify namespaces type.space (extensionShortName type.name)) (extensionArguments namespaces members)

/-- The arguments of a member list: positional ones bare, the others by name. -/
def extensionArguments (namespaces : List NamespaceDecl) : List MemberNode → List String
  | [] => []
  | m :: ms => m.extensionArguments namespaces ++ extensionArguments namespaces ms

def MemberNode.extensionArguments (namespaces : List NamespaceDecl) : MemberNode → List String
  | .mk name _ kind _ _ items =>
    let arguments := nodesExtension namespaces items
    if kind == .directive then arguments else [name ++ "=" ++ ", ".intercalate arguments]

def nodesExtension (namespaces : List NamespaceDecl) : List Node → List String
  | [] => []
  | n :: ns => n.extension namespaces :: nodesExtension namespaces ns

def Node.extension (namespaces : List NamespaceDecl) : Node → String
  | .object o => o.extension namespaces
  | .value v => extensionArgument v.display

end

/-! ## Attributes and layout -/

/-- A text as the value of an attribute: an opening brace at its start is escaped by a pair of braces. -/
def literalAttribute (s : String) : String :=
  match s.toList with
  | '{' :: _ => "\x7b\x7d" ++ s
  | _ => s

/-- The value of a member that is written as an attribute. -/
def MemberNode.attributeValue? (namespaces : List NamespaceDecl) (m : MemberNode) : Option String :=
  match m.items with
  | [.value v] => some (literalAttribute v.display)
  | [.object o] => if o.type.isMarkupExtension then some (o.extension namespaces) else none
  | _ => none

/-- The name of a member's attribute. -/
def MemberNode.attributeName (m : MemberNode) : String :=
  match m.kind with
  | .property => m.name
  | .attached => m.owner ++ "." ++ m.name
  | .directive => "x:" ++ m.name

/-- The name of a member's property element on an element. -/
def MemberNode.propertyElementName (m : MemberNode) (element : String) : String :=
  match m.kind with
  | .property => element ++ "." ++ m.name
  | .attached => m.owner ++ "." ++ m.name
  | .directive => "x:" ++ m.name

/-- The attributes of the members that are written so. -/
def memberAttributes (namespaces : List NamespaceDecl) (members : List MemberNode) : List (String × String) :=
  members.filterMap fun m =>
    if m.isContent then none else (m.attributeValue? namespaces).map fun v => (m.attributeName, v)

def Node.isValue : Node → Bool
  | .value _ => true
  | .object _ => false

/-- Whether a member is printed without layout: white space between inlines is content, and so it is beside text. -/
def MemberNode.isFlow (m : MemberNode) : Bool := m.name == "Inlines" || m.items.any Node.isValue

/-- Whether a text has white space that normalisation always changes. -/
def hasRun : List Char → Bool
  | [] => false
  | c :: cs => c == '\n' || c == '\r' || c == '\t' || (c == ' ' && cs.head? == some ' ') || hasRun cs

def startsBlank (s : String) : Bool := s.toList.head?.any Text.isSpace

def endsBlank (s : String) : Bool := s.toList.getLast?.any Text.isSpace

/-- Whether normalisation would change the scalars among the items after the first `first` ones. -/
def needsPreserveFrom (first : Bool) : List Node → Bool
  | [] => false
  | .object _ :: rest => needsPreserveFrom false rest
  | .value v :: rest =>
    hasRun v.display.toList || (first && startsBlank v.display) || (rest.isEmpty && endsBlank v.display)
      || needsPreserveFrom false rest

/-- Whether normalisation would change the scalars among content items. -/
def needsPreserve (items : List Node) : Bool := needsPreserveFrom true items

/-! ## Elements -/

/-- The attribute that keeps white space. -/
def preserveAttribute (items : List Node) : List (String × String) :=
  if needsPreserve items then [("xml:space", "preserve")] else []

mutual

/-- The element of an object; `declared` are the attributes that stand before those of its members. -/
def Object.element (namespaces : List NamespaceDecl) (declared : List (String × String)) : Object → Xml.Content
  | .mk type members =>
    let name := qualify namespaces type.space type.name
    let content := (Object.mk type members).content
    let children := propertyElements namespaces name members ++ contentElements namespaces members
    let attributes := declared ++ memberAttributes namespaces members ++ preserveAttribute content
    .element name attributes children.isEmpty ((members.find? (·.isContent)).any (·.isFlow)) children

/-- The property elements of the members that are neither content nor attributes. -/
def propertyElements (namespaces : List NamespaceDecl) (element : String) : List MemberNode → List Xml.Content
  | [] => []
  | m :: ms =>
    let rest := propertyElements namespaces element ms
    if m.isContent || (m.attributeValue? namespaces).isSome then rest
    else .element (m.propertyElementName element) [] false m.isFlow (m.itemElements namespaces) :: rest

/-- The children of the first content member. -/
def contentElements (namespaces : List NamespaceDecl) : List MemberNode → List Xml.Content
  | [] => []
  | m :: ms => if m.isContent then m.itemElements namespaces else contentElements namespaces ms

def MemberNode.itemElements (namespaces : List NamespaceDecl) : MemberNode → List Xml.Content
  | .mk _ _ _ _ _ items => nodesElements namespaces items

def nodesElements (namespaces : List NamespaceDecl) : List Node → List Xml.Content
  | [] => []
  | n :: ns => n.content namespaces :: nodesElements namespaces ns

/-- The content that an item becomes. -/
def Node.content (namespaces : List NamespaceDecl) : Node → Xml.Content
  | .object o => o.element namespaces []
  | .value v => .text v.display

end

/-- The element of a whole graph, with its namespaces declared. -/
def Graph.element (g : Graph) : Xml.Content :=
  g.root.element g.namespaces (g.namespaces.map NamespaceDecl.attribute)

/-- The markup of a graph, indented by `indent` spaces a level. -/
def Graph.markup (g : Graph) (indent : Nat) : String := g.element.print indent false 0

end FlowDoc.Xaml
