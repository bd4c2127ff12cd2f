import FlowDoc.Text.Space

/-!
# Text held back until it is due

Characters written between two objects are gathered in a `Buffer` and leave it as one `Piece`. A buffer that
collapses turns every run of white space into one space, drops it at the start of a run of text, and holds it back
(`spaceDue`) until a character or a sibling object follows; a buffer that preserves keeps each character.
`collapse` is the same rule on a whole string.
-/

namespace FlowDoc.Text

/-- How a collection treats the white space of its text. -/
inductive SpaceMode
  | collapse
  | preserve
  deriving DecidableEq

/-- The mode asked for by a flag. -/
def SpaceMode.ofPreserve (preserve : Bool) : SpaceMode := if preserve then .preserve else .collapse

/-- Text as it leaves a buffer. -/
inductive Piece
  /-- Collapsed text, a plain value. -/
  | value (text : String)
  /-- Text to be kept character for character. -/
  | verbatim (text : String)
  deriving DecidableEq

def Piece.text : Piece → String
  | .value s | .verbatim s => s

/-- Gathered text. `atStart` says that no character or sibling came yet, so white space would be dropped. -/
structure Buffer where
  text : String := ""
  mode : SpaceMode := .collapse
  spaceDue : Bool := false
  atStart : Bool := true
  deriving DecidableEq

namespace Buffer

/-- An empty buffer at the start of a run. -/
def empty (mode : SpaceMode) : Buffer := { mode := mode }

/-- Whether characters wait to be taken. -/
def isPending (b : Buffer) : Bool := !b.text.isEmpty

/-- Back to the mode of an enclosing collection, in the middle of its text. -/
def resume (b : Buffer) (mode : SpaceMode) : Buffer := { b with mode := mode, atStart := false }

/-- Add one character. -/
def push (b : Buffer) (c : Char) : Buffer :=
  match b.mode with
  | .preserve => { b with text := b.text.push c }
  | .collapse =>
    if isSpace c then
      if b.atStart then b else { b with spaceDue := true }
    else
      { b with text := (if b.spaceDue then b.text.push ' ' else b.text).push c, spaceDue := false, atStart := false }

@[simp] theorem push_mode (b : Buffer) (c : Char) : (b.push c).mode = b.mode := by
  unfold push
  split
  · rfl
  · split
    · split <;> rfl
    · rfl

/-- Add the characters of a string. -/
def pushAll (b : Buffer) (s : String) : Buffer := s.toList.foldl push b

@[simp] theorem pushAll_empty (b : Buffer) : b.pushAll "" = b := by simp [pushAll]

theorem pushAll_append (b : Buffer) (s t : String) : b.pushAll (s ++ t) = (b.pushAll s).pushAll t := by
  simp [pushAll]

@[simp] theorem pushAll_mode (b : Buffer) (s : String) : (b.pushAll s).mode = b.mode := by
  unfold pushAll
  induction s.toList generalizing b with
  | nil => rfl
  | cons c cs ih => rw [List.foldl_cons, ih, push_mode]

/-- Empty the buffer. Before a sibling object, white space that is due becomes the one separating space. -/
def take (b : Buffer) (beforeSibling : Bool) : Option Piece × Buffer :=
  match b.mode with
  | .collapse =>
    let text := if beforeSibling && b.spaceDue then b.text.push ' ' else b.text
    (if text.isEmpty then none else some (.value text),
      { b with text := "", spaceDue := false, atStart := if beforeSibling then false else b.atStart })
  | .preserve =>
    (if b.text.isEmpty then none else some (.verbatim b.text), { b with text := "" })

@[simp] theorem take_mode (b : Buffer) (beforeSibling : Bool) : (b.take beforeSibling).2.mode = b.mode := by
  unfold take
  split <;> rfl

@[simp] theorem take_text (b : Buffer) (beforeSibling : Bool) : (b.take beforeSibling).2.text = "" := by
  unfold take
  split <;> rfl

end Buffer

/-- Runs of white space become one space and are dropped at both ends. -/
def collapse (s : String) : String :=
  match (((Buffer.empty .collapse).pushAll s).take false).1 with
  | some piece => piece.text
  | none => ""

end FlowDoc.Text
