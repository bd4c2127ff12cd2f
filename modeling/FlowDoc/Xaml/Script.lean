import FlowDoc.Xaml.Writer

/-!
# Scripts

The operations of a writer as data. A script goes on after an operation that fails, so the writers that can be reached
are those of `Writer.run`: what every step keeps holds of them all (`run_append` cuts a script in two).
-/

namespace FlowDoc.Xaml

/-- An operation of a writer with its arguments. -/
inductive Step
  | declareNamespace (pre uri : String)
  | startObject (name : String)
  | startObjectOf (type : ElementType)
  | endObject
  /-- Look a member up; nothing is written. -/
  | resolve (ref : MemberRef)
  | startMember (ref : MemberRef)
  | endMember
  | member (ref : MemberRef) (value : Option Scalar)
  | startItems (ref : MemberRef) (preserve : Bool)
  /-- Look the content member up; nothing is written. -/
  | contentProperty
  | startContent (preserve : Bool)
  | endItems
  | text (s : String)
  | char (c : Char)
  | literal (s : String)
  | lineBreak
  | resource (ref : MemberRef) (style : Style.Ref)
  deriving DecidableEq

/-- What a step writes. -/
def Step.write : Step → Write Unit
  | declareNamespace pre uri => Write.declareNamespace pre uri
  | startObject name => Write.startObject name
  | startObjectOf type => Write.startObjectOf type
  | endObject => Write.endObject
  | resolve ref => do let _ ← Write.resolve ref
  | startMember ref => Write.startMember ref
  | endMember => Write.endMember
  | member ref value => Write.member? ref value
  | startItems ref preserve => Write.startItems ref preserve
  | contentProperty => do let _ ← Write.contentProperty
  | startContent preserve => Write.startContent preserve
  | endItems => Write.endItems
  | text s => Write.text s
  | char c => Write.char c
  | literal s => Write.literal s
  | lineBreak => Write.lineBreak
  | resource ref style => Write.resource ref style

namespace Writer

/-- The writer after a step, which may fail. -/
def step (w : Writer) (s : Step) : Writer :=
  match s.write.run w with
  | .ok _ w => w
  | .error _ w => w

/-- The writer after a script. -/
def run (w : Writer) (script : List Step) : Writer := script.foldl step w

@[simp] theorem run_nil (w : Writer) : w.run [] = w := rfl

@[simp] theorem run_cons (w : Writer) (s : Step) (script : List Step) : w.run (s :: script) = (w.step s).run script := rfl

theorem run_append (w : Writer) (s t : List Step) : w.run (s ++ t) = (w.run s).run t := List.foldl_append

end Writer

end FlowDoc.Xaml
