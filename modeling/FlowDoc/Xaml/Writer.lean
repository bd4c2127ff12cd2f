import FlowDoc.Style.Theme
import FlowDoc.Text.Buffer
import FlowDoc.Xaml.Event

/-!
# Writing a stream

A `Writer` keeps the stack of open objects, members and collections, resolves types and members in the vocabulary,
gathers text, and sends signals. A collection is opened on the stream only when its first item arrives, so one that
stays empty leaves no trace. Text is sent when an object starts (then with one separating space), and when its member
or collection ends.

An operation is a `Write`: it changes the writer, also where it fails. What was sent stays sent; `Writer.sent` holds it.
-/

namespace FlowDoc.Xaml

open Style (Ref)
open Text (SpaceMode Piece Buffer)

/-- A scope that is still open. -/
inductive Scope
  | object (type : ElementType)
  | member
  /-- A collection; `opened` once it is open on the stream, and the space mode to go back to after it. -/
  | items (member : Member) (opened : Bool) (outerMode : SpaceMode)
  deriving DecidableEq

/-- How a member is named. -/
inductive MemberRef
  | name (s : String)
  | attached (owner name : String)
  | resolved (member : Member)
  deriving DecidableEq

/-- A name with a point is that of an attached member, split at the first point. -/
def MemberRef.ofName (s : String) : MemberRef :=
  match s.toList.span (· != '.') with
  | (_, []) => .name s
  | (owner, _ :: rest) => .attached (String.ofList owner) (String.ofList rest)

/-- The state of writing, and all that was sent. -/
structure Writer where
  mode : ValueMode
  theme : Style.Theme
  scopes : List Scope := []
  buffer : Buffer := .empty .collapse
  rootStarted : Bool := false
  sent : Array Signal := #[]

/-- An operation on a writer. -/
abbrev Write := EStateM RenderError Writer

namespace Writer

/-- The type of the innermost open object. -/
def currentType? (w : Writer) : Option ElementType :=
  w.scopes.findSome? fun
    | .object type => some type
    | _ => none

end Writer

namespace Write

def violation {α : Type} (operation : Operation) (v : Violation) : Write α := throw (.protocol operation v)

/-- The outcome of a look-up. -/
def lift {α : Type} : Except RenderError α → Write α
  | .ok a => pure a
  | .error e => throw e

def send (s : Signal) : Write Unit := modify fun w => { w with sent := w.sent.push s }

def pushScope (s : Scope) : Write Unit := modify fun w => { w with scopes := s :: w.scopes }

def popScope : Write Unit := modify fun w => { w with scopes := w.scopes.tail }

/-- Open the innermost collection on the stream, if it is not. -/
def openItems : Write Unit := do
  match (← get).scopes with
  | .items member false outerMode :: rest =>
    send (.startCollection member)
    modify fun w => { w with scopes := .items member true outerMode :: rest }
  | _ => pure ()

/-- Send the text of a piece: as a value, or as the text of a run of its own. -/
def sendPiece : Piece → Write Unit
  | .value s => send (.value (.text s))
  | .verbatim s => do
    let text ← lift (getMember .run "Text")
    send (.startObject .run)
    send (.startMember text)
    send (.value (.text s))
    send .endMember
    send .endObject

/-- Send the gathered text. -/
def flushText (beforeSibling : Bool) : Write Unit := do
  let (piece?, buffer) := (← get).buffer.take beforeSibling
  modify fun w => { w with buffer }
  match piece? with
  | none => pure ()
  | some piece => openItems; sendPiece piece

/-- Declare a namespace, which only the root object may follow. -/
def declareNamespace (pre uri : String) : Write Unit := do
  if (← get).rootStarted then violation .writeNamespace .rootAlreadyStarted
  else send (.namespaceDecl ⟨pre, uri⟩)

/-- Start an object of a type. -/
def startObjectOf (type : ElementType) : Write Unit := do
  let w ← get
  match w.scopes with
  | .object _ :: _ => violation .startObject .memberNotOpenOnObject
  | [] => if w.rootStarted then violation .startObject .secondRoot
  | _ => pure ()
  openItems
  flushText true
  send (.startObject type)
  modify fun w => { w with rootStarted := true, scopes := .object type :: w.scopes }

/-- Start an object of the type of a name. -/
def startObject (name : String) : Write Unit := do startObjectOf (← lift (getType name))

def endObject : Write Unit := do
  match (← get).scopes with
  | .object _ :: _ => popScope; send .endObject
  | _ :: _ => violation .endObject .scopeStillOpen
  | [] => violation .endObject .noOpenObject

/-- Resolve a member relative to the innermost open object. -/
def resolve : MemberRef → Write Member
  | .resolved member => pure member
  | .attached owner name => lift (getAttached owner name)
  | .name name => do
    match (← get).currentType? with
    | some type => lift (getMember type name)
    | none => violation .getMember .noOpenObject

/-- Start a member of the object that is the innermost scope. -/
def startMember (ref : MemberRef) : Write Unit := do
  let w ← get
  match w.scopes with
  | .object _ :: _ => pure ()
  | _ :: _ => violation .startMember .scopeAlreadyOpen
  | [] => violation .startMember .noOpenObject
  if w.buffer.isPending then violation .startMember .memberDuringText
  let member ← resolve ref
  send (.startMember member)
  pushScope .member

def endMember : Write Unit := do
  match (← get).scopes with
  | .member :: _ =>
    flushText false
    popScope
    send .endMember
  | _ => violation .endMember .noOpenMember

/-- Send the value of a member: as it is, or as its markup spelling, in which a known resource key is a static
reference. -/
def memberValue (member : Member) (value : Scalar) : Write Unit := do
  let mode := (← get).mode
  let keys := (← get).theme.keyClass
  match mode, value with
  | .native, value => send (.value value)
  | .text, .resourceKey key =>
    if keys.contains key then
      startObjectOf .staticExtension
      startMember (.resolved .positionalParameters)
      send (.value (.text (keys.staticReference key)))
      endMember
      endObject
    else send (.value (.text (← lift (member.form.spell member.name value))))
  | .text, value => send (.value (.text (← lift (member.form.spell member.name value))))

/-- Write a whole member. -/
def member (ref : MemberRef) (value : Scalar) : Write Unit := do
  let member ← resolve ref
  startMember (.resolved member)
  memberValue member value
  endMember

/-- Write a whole member if there is a value. -/
def member? (ref : MemberRef) : Option Scalar → Write Unit
  | some value => member ref value
  | none => pure ()

/-- Begin a collection on the innermost open object. -/
def startItems (ref : MemberRef) (preserve : Bool) : Write Unit := do
  let w ← get
  match w.scopes with
  | .object _ :: _ => pure ()
  | .items _ false _ :: _ => violation .startItems .previousPending
  | _ => violation .startItems .noOpenObject
  if w.buffer.isPending then violation .startItems .itemsDuringText
  let member ← resolve ref
  modify fun w =>
    { w with
      buffer := .empty (.ofPreserve preserve)
      scopes := .items member false w.buffer.mode :: w.scopes }

/-- The content member of the innermost open object. -/
def contentProperty : Write Member := do
  match (← get).currentType? with
  | some type => lift (getContent type)
  | none => violation .contentProperty .noOpenObject

/-- Begin the content collection of the innermost open object. -/
def startContent (preserve : Bool) : Write Unit := do startItems (.resolved (← contentProperty)) preserve

def endItems : Write Unit := do
  match (← get).scopes with
  | .items _ _ _ :: _ =>
    flushText false
    match (← get).scopes with
    | .items _ opened outerMode :: rest =>
      modify fun w => { w with scopes := rest }
      if opened then send .endCollection
      modify fun w => { w with buffer := w.buffer.resume outerMode }
    | _ => violation .endItems .noOpenCollection
  | _ => violation .endItems .noOpenCollection

/-- Add text to the innermost member or collection; `operation` is the one to blame where there is none. -/
def gather (operation : Operation) (s : String) : Write Unit := do
  match (← get).scopes with
  | .member :: _ | .items _ _ _ :: _ => modify fun w => { w with buffer := w.buffer.pushAll s }
  | _ => violation operation .textOutsideMember

def text (s : String) : Write Unit := gather .writeText s

def char (c : Char) : Write Unit := gather .writeChar (String.ofList [c])

/-- Write a literal string, which joins the text around it. -/
def literal (s : String) : Write Unit := gather .writeValue s

def lineBreak : Write Unit := do
  startObjectOf .lineBreak
  endObject

/-- Write a member, by default the style, that refers to a resource. -/
def resource (ref : MemberRef) (style : Ref) : Write Unit := do
  let key := (← get).theme.keyOf style
  startMember ref
  startObjectOf .staticResourceExtension
  startMember (.resolved .positionalParameters)
  memberValue .positionalParameters (.resourceKey key)
  endMember
  endObject
  endMember

/-- Write the style of a role. -/
def style (r : Style.Role) : Write Unit := resource (.name "Style") (.role r)

end Write

/-- All that was sent, if nothing is open any more. -/
def Writer.finish (w : Writer) : Except RenderError (List Signal) :=
  if w.scopes.isEmpty then .ok w.sent.toList else .error (.protocol .finish .openScopesAtFinish)

end FlowDoc.Xaml
