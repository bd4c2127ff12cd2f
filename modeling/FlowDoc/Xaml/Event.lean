import FlowDoc.Xaml.Vocabulary

/-!
# The event stream

A document is written as a stream of events. A `Signal` is an event as the writer sends it, with the type or member it
concerns; an `Event` is what is kept of it in a record, by name. Starts and ends nest: `isBalanced` says that no prefix
of a record closes more than it opened and that all is closed at its end, and `outline` shows a record with one event a
line, indented by nesting.
-/

namespace FlowDoc.Xaml

/-- Whether a receiver takes typed values or their markup spelling. -/
inductive ValueMode
  | native
  | text
  deriving DecidableEq

/-- A namespace declared ahead of the root object. -/
structure NamespaceDecl where
  pre : String
  uri : String
  deriving DecidableEq

/-- An event on its way to a receiver. -/
inductive Signal
  | namespaceDecl (decl : NamespaceDecl)
  | startObject (type : ElementType)
  | endObject
  | startMember (member : Member)
  | endMember
  | startCollection (member : Member)
  | endCollection
  | value (v : Scalar)
  deriving DecidableEq

/-- A recorded event. -/
inductive Event
  | namespaceDecl (decl : NamespaceDecl)
  | startObject (type : String)
  | endObject
  | startMember (member : String)
  | endMember
  | startCollection (member : String)
  | endCollection
  | value (v : Scalar)
  deriving DecidableEq

namespace Event

/-- What is recorded of a signal. -/
def ofSignal : Signal → Event
  | .namespaceDecl decl => namespaceDecl decl
  | .startObject type => startObject type.name
  | .endObject => endObject
  | .startMember member => startMember member.qualifiedName
  | .endMember => endMember
  | .startCollection member => startCollection member.qualifiedName
  | .endCollection => endCollection
  | .value v => value v

/-- By how much an event changes the nesting depth. -/
def depthChange : Event → Int
  | startObject _ | startMember _ | startCollection _ => 1
  | endObject | endMember | endCollection => -1
  | namespaceDecl _ | value _ => 0

/-- The operation that an event is the record of. -/
def operation : Event → Operation
  | namespaceDecl _ => .declareNamespace
  | startObject _ => .startObject
  | endObject => .endObject
  | startMember _ => .startMember
  | endMember => .endMember
  | startCollection _ => .startCollection
  | endCollection => .endCollection
  | value _ => .value

/-- An event as a line without indentation. -/
def line : Event → String
  | namespaceDecl decl => "NS " ++ decl.pre ++ "=" ++ decl.uri
  | startObject type => "SO " ++ type
  | endObject => "EO"
  | startMember member => "SM " ++ member
  | endMember => "EM"
  | startCollection member => "SC " ++ member
  | endCollection => "EC"
  | value v => "V " ++ v.debug

end Event

/-- The depth after a record that starts at `depth` and never falls below zero; `none` if it does. -/
def depthAfter? (depth : Int) : List Event → Option Int
  | [] => some depth
  | e :: es => if depth + e.depthChange < 0 then none else depthAfter? (depth + e.depthChange) es

theorem depthAfter?_append (depth : Int) (es fs : List Event) :
    depthAfter? depth (es ++ fs) = (depthAfter? depth es).bind (depthAfter? · fs) := by
  induction es generalizing depth with
  | nil => rfl
  | cons e es ih =>
    by_cases h : depth + e.depthChange < 0
    · simp [depthAfter?, h]
    · simp [depthAfter?, h, ih]

/-- Whether starts and ends of a record nest and all is closed at its end. -/
def isBalanced (events : List Event) : Bool := depthAfter? 0 events == some 0

/-- The lines of a record from a depth on; an end that closes nothing stays at the margin. -/
def outlineFrom (depth : Nat) : List Event → List String
  | [] => []
  | e :: es =>
    let here := if e.depthChange < 0 then depth - 1 else depth
    let next := if 0 < e.depthChange then here + 1 else here
    (String.ofList (List.replicate (2 * here) ' ') ++ e.line ++ "\n") :: outlineFrom next es

/-- A record with one event a line, indented by nesting. -/
def outline (events : List Event) : String := String.join (outlineFrom 0 events)

end FlowDoc.Xaml
