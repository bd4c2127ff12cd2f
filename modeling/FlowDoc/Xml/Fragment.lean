import FlowDoc.Xml.Token

/-!
# Fragments

A fragment is the content of some element: texts and elements whose names are resolved by the namespaces in scope.
`Fragment.parse` builds it from tokens with a stack of open elements; end tags must match, prefixes must be declared
and attributes must differ.
-/

namespace FlowDoc.Xml

/-- The namespace of the prefix `xml`. -/
def xmlNamespace : String := "http://www.w3.org/XML/1998/namespace"

/-- The namespace of the prefix `xmlns`. -/
def xmlnsNamespace : String := "http://www.w3.org/2000/xmlns/"

/-- An attribute with its namespace resolved. -/
structure Attribute where
  space : Option String
  name : String
  value : String
  deriving DecidableEq

/-- A node of a fragment. -/
inductive Node
  | text (s : String)
  | element (space : Option String) (name : String) (attributes : List Attribute) (children : List Node)

/-- The namespaces in scope, nearest first. The empty prefix is that of the default namespace. -/
abbrev Scope := List (String × String)

/-- An element that is still open, its children so far in reverse. -/
structure OpenElement where
  tag : QName
  space : Option String
  attributes : List Attribute
  scope : Scope
  children : List Node

/-- Whether an attribute declares a namespace. -/
def isDeclaration (a : QName × String) : Bool := a.1.pre == "xmlns" || a.1.name == "xmlns"

/-- The declaration of an attribute, if it is a legal one; that of the prefix `xml` itself declares nothing. -/
def declaration? (a : QName × String) : Option (List (String × String)) :=
  let (name, uri) := a
  if uri == xmlnsNamespace then none
  else if name.pre == "xmlns" then
    if name.name == "xml" then (if uri == xmlNamespace then some [] else none)
    else if uri == xmlNamespace then none
    else some [(name.name, uri)]
  else if uri == xmlNamespace then none
  else some [("", uri)]

/-- The namespace of an element's name: `none` if the prefix is not declared. -/
def elementSpace? (scope : Scope) (name : QName) : Option (Option String) :=
  match scope.lookup name.pre with
  | some uri => some (some uri)
  | none => if name.pre.isEmpty then some none else none

/-- An attribute with its namespace: without a prefix it has none, and the prefix `xml` needs no declaration. -/
def attribute? (scope : Scope) (a : QName × String) : Option Attribute :=
  if a.1.pre.isEmpty then some ⟨none, a.1.name, a.2⟩
  else if a.1.pre == "xml" then some ⟨some xmlNamespace, a.1.name, a.2⟩
  else (elementSpace? scope a.1).map fun space => ⟨space, a.1.name, a.2⟩

/-- Whether no prefix is declared twice among the declarations of one tag. -/
def distinctPrefixes (declarations : List (String × String)) : Bool :=
  let prefixes := (declarations.map Prod.fst).filter fun p => !p.isEmpty
  prefixes.eraseDups.length == prefixes.length

/-- Whether no two attributes have the same namespace and name. -/
def distinctNames (attributes : List Attribute) : Bool :=
  let names := attributes.map fun a => (a.space, a.name)
  names.eraseDups.length == names.length

/-- Resolve the names of a start tag. -/
def openElement? (scope : Scope) (name : QName) (attributes : List (QName × String)) : Option OpenElement := do
  if name.pre == "xmlns" then none
  let declarations ← (attributes.filter isDeclaration).mapM declaration?
  let declarations := declarations.flatten
  if !distinctPrefixes declarations then none
  let scope := declarations ++ scope
  let space ← elementSpace? scope name
  let attributes ← (attributes.filter (!isDeclaration ·)).mapM (attribute? scope)
  if !distinctNames attributes then none
  return { tag := name, space, attributes, scope, children := [] }

/-- The element that an open one becomes. -/
def OpenElement.close (e : OpenElement) : Node := .element e.space e.tag.name e.attributes e.children.reverse

/-- Open elements, innermost first, and the nodes outside them in reverse. -/
structure Assembly where
  stack : List OpenElement := []
  nodes : List Node := []

namespace Assembly

/-- Add a node to the innermost open element. -/
def add (a : Assembly) (n : Node) : Assembly :=
  match a.stack with
  | e :: rest => { a with stack := { e with children := n :: e.children } :: rest }
  | [] => { a with nodes := n :: a.nodes }

/-- The namespaces in scope. -/
def scope (base : Scope) (a : Assembly) : Scope :=
  match a.stack with
  | e :: _ => e.scope
  | [] => base

/-- Take a token. -/
def step (base : Scope) (a : Assembly) : Token → Option Assembly
  | .text s => some (a.add (.text s))
  | .opening name attributes closed => do
    let e ← openElement? (a.scope base) name attributes
    return if closed then a.add e.close else { a with stack := e :: a.stack }
  | .closing name =>
    match a.stack with
    | e :: rest => if e.tag = name then some (Assembly.add { a with stack := rest } e.close) else none
    | [] => none

end Assembly

/-- The nodes of a fragment whose surroundings declare the namespaces of `scope`. -/
def parseFragment? (scope : Scope) (s : String) : Option (List Node) := do
  let a ← (← tokens s).foldlM (Assembly.step scope) {}
  if a.stack.isEmpty then some a.nodes.reverse else none

/-- Decode the references of a text without markup: an ampersand begins a reference that ends before the next one. -/
def unescapeFrom : (fuel : Nat) → List Char → Option (List Char)
  | _, [] => some []
  | 0, _ :: _ => none
  | fuel + 1, '&' :: rest =>
    let body := rest.takeWhile fun c => c != ';' && c != '&'
    match rest.dropWhile fun c => c != ';' && c != '&' with
    | ';' :: rest => do
      let c ← match body with
        | '#' :: 'x' :: ds => (readNumber? 16 ds).bind scalar?
        | '#' :: ds => (readNumber? 10 ds).bind scalar?
        | name => entity? name
      return c :: (← unescapeFrom fuel rest)
    | _ => none
  | fuel + 1, c :: rest => (unescapeFrom fuel rest).map (c :: ·)
where
  /-- The character of a number other than zero. -/
  scalar? (n : Nat) : Option Char :=
    if h : n.isValidChar then (if n = 0 then none else some (Char.ofNatAux n h)) else none

/-- Decode the references of a text without markup. -/
def unescape? (s : String) : Option String := (unescapeFrom s.toList.length s.toList).map String.ofList

end FlowDoc.Xml
