import FlowDoc.Xaml.Event

/-!
# Object graphs

The tree that a stream of events describes: objects hold member nodes, member nodes hold items, and an item is an
object or a scalar. A member node remembers whether it was the content member of its object (`isContent`) and whether
it was written as a collection.
-/

namespace FlowDoc.Xaml

mutual

/-- An object with its members in the order in which they were closed. -/
inductive Object
  | mk (type : ElementType) (members : List MemberNode)

/-- A member of an object with its items. -/
inductive MemberNode
  | mk (name owner : String) (kind : MemberKind) (isContent collection : Bool) (items : List Node)

/-- An item of a member. -/
inductive Node
  | object (o : Object)
  | value (v : Scalar)

end

namespace MemberNode

def name : MemberNode → String
  | mk name _ _ _ _ _ => name

def owner : MemberNode → String
  | mk _ owner _ _ _ _ => owner

def kind : MemberNode → MemberKind
  | mk _ _ kind _ _ _ => kind

def isContent : MemberNode → Bool
  | mk _ _ _ isContent _ _ => isContent

def collection : MemberNode → Bool
  | mk _ _ _ _ collection _ => collection

def items : MemberNode → List Node
  | mk _ _ _ _ _ items => items

/-- Whether the items of a member belong to the text of its object. -/
def isText (m : MemberNode) : Bool := m.kind == .property && (m.isContent || m.name == "Text")

/-- The member with one more item. -/
def push : MemberNode → Node → MemberNode
  | mk name owner kind isContent collection items, item => mk name owner kind isContent collection (items ++ [item])

end MemberNode

namespace Object

def type : Object → ElementType
  | mk type _ => type

def members : Object → List MemberNode
  | mk _ members => members

/-- The object with one more member. -/
def push : Object → MemberNode → Object
  | mk type members, m => mk type (members ++ [m])

/-- The first member of a name. -/
def member? (o : Object) (name : String) : Option MemberNode := o.members.find? (·.name == name)

/-- The items of the first content member. -/
def content (o : Object) : List Node :=
  match o.members.find? (·.isContent) with
  | some m => m.items
  | none => []

/-- The first scalar of a member. -/
def valueOf? (o : Object) (name : String) : Option Scalar :=
  (o.member? name).bind fun m => m.items.findSome? fun
    | .value v => some v
    | .object _ => none

end Object

mutual

/-- The text of an object and its descendants. -/
def Object.text : Object → String
  | .mk _ members => membersText members

/-- The text of an object's members. -/
def membersText : List MemberNode → String
  | [] => ""
  | m :: ms => m.text ++ membersText ms

/-- The text of a member's items, if the member is text. -/
def MemberNode.text : MemberNode → String
  | .mk name owner kind isContent collection items =>
    if (MemberNode.mk name owner kind isContent collection items).isText then nodesText items else ""

/-- The texts of items, joined. -/
def nodesText : List Node → String
  | [] => ""
  | n :: ns => n.text ++ nodesText ns

/-- The spelling of a scalar, or the text of an object. -/
def Node.text : Node → String
  | .object o => o.text
  | .value v => v.display

end

/-- A finished graph with the namespaces declared ahead of it. -/
structure Graph where
  namespaces : List NamespaceDecl
  root : Object

mutual

/-- The JSON form of an object: its type, and its members if it has any. -/
def Object.json : Object → JsonValue
  | .mk type [] => .object [("type", .string type.name)]
  | .mk type (m :: ms) => .object [("type", .string type.name), ("members", .array (m.json :: membersJson ms))]

def membersJson : List MemberNode → List JsonValue
  | [] => []
  | m :: ms => m.json :: membersJson ms

def MemberNode.json : MemberNode → JsonValue
  | .mk name owner kind _ _ items =>
    .object [("name", .string name), ("owner", .string owner), ("kind", .string kind.label),
      ("items", .array (nodesJson items))]

def nodesJson : List Node → List JsonValue
  | [] => []
  | n :: ns => n.json :: nodesJson ns

def Node.json : Node → JsonValue
  | .object o => o.json
  | .value v => v.json

end

/-- The JSON form of a graph. -/
def Graph.json (g : Graph) : JsonValue :=
  .object [
    ("namespaces", .array (g.namespaces.map fun ns => .object [("prefix", .string ns.pre), ("uri", .string ns.uri)])),
    ("root", g.root.json)]

end FlowDoc.Xaml
