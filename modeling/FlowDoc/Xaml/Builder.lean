import FlowDoc.Xaml.Graph

/-!
# Building a graph from a stream

A `Builder` keeps the open objects and members on a stack, innermost first, and closes each into the frame below it. A
call that does not fit the innermost frame is refused. An end takes its frame off the stack before it looks at the one
below, so a call gives the builder after it whether it is refused or not.
-/

namespace FlowDoc.Xaml

/-- An object or a member that is still open. -/
inductive Frame
  | object (o : Object)
  | member (m : MemberNode)

/-- What was built so far. -/
structure Builder where
  namespaces : List NamespaceDecl := []
  stack : List Frame := []
  root : Option Object := none

namespace Builder

/-- The builder after a call, and whether the call was accepted. -/
abbrev Answer := Builder × Except RenderError Unit

/-- A call that is accepted. -/
def accept (b : Builder) : Answer := (b, .ok ())

/-- A call that is refused. -/
def refuse (b : Builder) (operation : Operation) (violation : Violation) : Answer :=
  (b, .error (.protocol operation violation))

def declare (b : Builder) (decl : NamespaceDecl) : Answer :=
  if b.root.isSome || !b.stack.isEmpty then b.refuse .declareNamespace .namespaceAfterRoot
  else accept { b with namespaces := b.namespaces ++ [decl] }

def startObject (b : Builder) (type : ElementType) : Answer :=
  match b.stack with
  | .object _ :: _ => b.refuse .startObject .objectInObject
  | .member _ :: _ => accept { b with stack := .object (.mk type []) :: b.stack }
  | [] =>
    if b.root.isSome then b.refuse .startObject .secondRoot
    else accept { b with stack := [.object (.mk type [])] }

def endObject (b : Builder) : Answer :=
  match b.stack with
  | .object o :: below =>
    match below with
    | .member m :: rest => accept { b with stack := .member (m.push (.object o)) :: rest }
    | .object _ :: _ => refuse { b with stack := below } .endObject .objectClosedInObject
    | [] => accept { b with stack := [], root := some o }
  | .member _ :: _ => b.refuse .endObject .memberStillOpen
  | [] => b.refuse .endObject .noOpenObject

/-- Whether a member takes the content of a type. -/
def isContentOf (member : Member) (type : ElementType) : Bool :=
  member.kind == .property && match type.content? with
    | some content => content.name == member.name
    | none => false

def startMember (b : Builder) (member : Member) (collection : Bool) : Answer :=
  match b.stack with
  | .object o :: _ =>
    let node := .mk member.name member.owner member.kind (isContentOf member o.type) collection []
    accept { b with stack := .member node :: b.stack }
  | _ => b.refuse .startMember .memberOutsideObject

def endMember (b : Builder) : Answer :=
  match b.stack with
  | .member m :: below =>
    match below with
    | .object o :: rest => accept { b with stack := .object (o.push m) :: rest }
    | _ => refuse { b with stack := below } .endMember .memberClosedOutsideObject
  | .object _ :: _ => b.refuse .endMember .objectStillOpen
  | [] => b.refuse .endMember .noOpenMember

def addValue (b : Builder) (v : Scalar) : Answer :=
  match b.stack with
  | .member m :: rest => accept { b with stack := .member (m.push (.value v)) :: rest }
  | _ => b.refuse .value .valueOutsideMember

/-- Make the call that a signal stands for. -/
def call (b : Builder) : Signal → Answer
  | .namespaceDecl decl => b.declare decl
  | .startObject type => b.startObject type
  | .endObject => b.endObject
  | .startMember member => b.startMember member false
  | .endMember => b.endMember
  | .startCollection member => b.startMember member true
  | .endCollection => b.endMember
  | .value v => b.addValue v

/-- Take one signal, which must be accepted. -/
def receive (b : Builder) (s : Signal) : Except RenderError Builder :=
  match b.call s with
  | (b, .ok ()) => .ok b
  | (_, .error e) => .error e

/-- Take the signals of a stream up to the first refusal. -/
def receiveAll (b : Builder) (signals : List Signal) : Except RenderError Builder := signals.foldlM receive b

theorem receiveAll_append (b : Builder) (s t : List Signal) :
    b.receiveAll (s ++ t) = (b.receiveAll s).bind (·.receiveAll t) := by
  simp only [receiveAll, List.foldlM_append]
  rfl

/-- The graph, if all that was started has ended. -/
def finish (b : Builder) : Except RenderError Graph :=
  match b.stack, b.root with
  | _ :: _, _ => .error (.protocol .finish .unclosed)
  | [], none => .error (.protocol .finish .noRoot)
  | [], some root => .ok ⟨b.namespaces, root⟩

end Builder

/-- The graph that a whole stream describes. -/
def Graph.ofSignals (signals : List Signal) : Except RenderError Graph := do
  (← Builder.receiveAll {} signals).finish

end FlowDoc.Xaml
