import FlowDoc.Xml.Element

/-!
# Parts of a printed tree

The parts of a markup tree are its tags, its attributes and its texts (`Content.parts`). Its printed form is these parts
in order, with nothing but the ends of tags and the layout between them (`text_pieces`, `parts_pieces`).
-/

namespace FlowDoc.Xml

/-- Something that is printed of a tree. -/
inductive Part
  | tag (name : String)
  | attribute (name value : String)
  | text (s : String)
  deriving DecidableEq

/-- A part as it is printed. -/
def Part.spelling : Part → String
  | .tag name => "<" ++ name
  | .attribute name value => printAttribute (name, value)
  | .text s => escapeText s

/-- An attribute as a part. -/
def attributePart (a : String × String) : Part := .attribute a.1 a.2

mutual

/-- The parts of a tree, in order. A closed element has no children to print. -/
def Content.parts : Content → List Part
  | .text s => [.text s]
  | .element name attributes closed _ children =>
    .tag name :: attributes.map attributePart ++ if closed then [] else allParts children

def allParts : List Content → List Part
  | [] => []
  | n :: ns => n.parts ++ allParts ns

end

theorem allParts_append (ns ms : List Content) : allParts (ns ++ ms) = allParts ns ++ allParts ms := by
  induction ns with
  | nil => rfl
  | cons n ns ih => simp [allParts, ih]

/-! ## Pieces -/

/-- What a text is put together from, piece by piece. Some pieces are parts of what is printed. -/
class Piece (π : Type) (α : outParam Type) where
  /-- A piece as it is printed. -/
  spelling : π → String
  /-- The part that a piece is. -/
  part? : π → Option α

namespace Piece

variable {π α : Type} [Piece π α]

/-- The text of pieces. -/
def text (pieces : List π) : String := String.join (pieces.map spelling)

/-- The parts among pieces. -/
def parts (pieces : List π) : List α := pieces.filterMap part?

variable (p : π) (ps qs : List π)

@[simp] theorem text_nil : text ([] : List π) = "" := rfl

@[simp] theorem text_cons : text (p :: ps) = spelling p ++ text ps := by simp [text]

@[simp] theorem text_append : text (ps ++ qs) = text ps ++ text qs := by simp [text]

@[simp] theorem parts_nil : parts ([] : List π) = [] := rfl

@[simp] theorem parts_cons : parts (p :: ps) = (part? p).toList ++ parts ps := by
  cases h : part? p <;> simp [parts, h]

@[simp] theorem parts_append : parts (ps ++ qs) = parts ps ++ parts qs := by simp [parts]

end Piece

/-- A piece of a printed tree: a part of the tree, or what stands between its parts, which is the ends of tags and the
layout. -/
inductive MarkupPiece
  | part (p : Part)
  | tagEnd
  | emptyTagEnd
  | endTag (name : String)
  | lineEnd
  | spaces (n : Nat)

instance : Piece MarkupPiece Part where
  spelling
    | .part p => p.spelling
    | .tagEnd => ">"
    | .emptyTagEnd => "/>"
    | .endTag name => "</" ++ name ++ ">"
    | .lineEnd => "\n"
    | .spaces n => String.ofList (List.replicate n ' ')
  part?
    | .part p => some p
    | _ => none

/-- The layout before a node at a depth. -/
def indentationPieces (width : Nat) (inFlow : Bool) (depth : Nat) : List MarkupPiece :=
  if inFlow then [] else [.spaces (width * depth)]

/-- The layout after a node or a tag. -/
def lineEndPieces (inFlow : Bool) : List MarkupPiece := if inFlow then [] else [.lineEnd]

/-- Attributes, one after the other. -/
def attributePieces (attributes : List (String × String)) : List MarkupPiece :=
  attributes.map fun a => .part (attributePart a)

mutual

/-- The pieces of a printed tree, in order. -/
def Content.pieces (width : Nat) (inFlow : Bool) (depth : Nat) : Content → List MarkupPiece
  | .text s => [.part (.text s)]
  | .element name attributes closed flow children =>
    let inside := inFlow || flow
    indentationPieces width inFlow depth ++ .part (.tag name) :: attributePieces attributes ++
      (if closed then [.emptyTagEnd]
       else
        .tagEnd :: lineEndPieces inside ++ allPieces width inside (depth + 1) children ++
          indentationPieces width inside depth ++ [.endTag name]) ++
      lineEndPieces inFlow

def allPieces (width : Nat) (inFlow : Bool) (depth : Nat) : List Content → List MarkupPiece
  | [] => []
  | n :: ns => n.pieces width inFlow depth ++ allPieces width inFlow depth ns

end

variable (width : Nat) (inFlow : Bool) (depth : Nat)

@[simp] theorem text_indentationPieces :
    Piece.text (indentationPieces width inFlow depth) = indentation width inFlow depth := by
  cases inFlow <;> simp [indentation, indentationPieces, Piece.spelling]

@[simp] theorem parts_indentationPieces : Piece.parts (indentationPieces width inFlow depth) = [] := by
  cases inFlow <;> rfl

@[simp] theorem text_lineEndPieces : Piece.text (lineEndPieces inFlow) = lineEnd inFlow := by
  cases inFlow <;> simp [lineEnd, lineEndPieces, Piece.spelling]

@[simp] theorem parts_lineEndPieces : Piece.parts (lineEndPieces inFlow) = [] := by
  cases inFlow <;> rfl

@[simp] theorem text_attributePieces (attributes : List (String × String)) :
    Piece.text (attributePieces attributes) = String.join (attributes.map printAttribute) := by
  have spelled : Piece.spelling ∘ (fun a => MarkupPiece.part (attributePart a)) = printAttribute := rfl
  rw [attributePieces, Piece.text, List.map_map, spelled]

@[simp] theorem parts_attributePieces (attributes : List (String × String)) :
    Piece.parts (attributePieces attributes) = attributes.map attributePart := by
  have taken : Piece.part? ∘ (fun a => MarkupPiece.part (attributePart a)) = some ∘ attributePart := rfl
  rw [attributePieces, Piece.parts, List.filterMap_map, taken, List.filterMap_eq_map]

mutual

/-- **A tree is printed piece by piece.** -/
theorem text_pieces (inFlow : Bool) (depth : Nat) : ∀ c : Content,
    Piece.text (c.pieces width inFlow depth) = c.print width inFlow depth
  | .text s => by simp [Content.print, Content.pieces, Piece.spelling, Part.spelling]
  | .element name attributes closed flow children => by
    have inside := text_allPieces (inFlow || flow) (depth + 1) children
    rw [Content.print, Content.pieces]
    cases closed <;> simp [Piece.spelling, Part.spelling, openTag, inside, String.append_assoc]

theorem text_allPieces (inFlow : Bool) (depth : Nat) : ∀ cs : List Content,
    Piece.text (allPieces width inFlow depth cs) = printAll width inFlow depth cs
  | [] => rfl
  | c :: cs => by
    rw [printAll, allPieces, Piece.text_append, text_pieces inFlow depth c, text_allPieces inFlow depth cs]

end

mutual

/-- The parts among the pieces of a tree are the parts of the tree, in order. -/
theorem parts_pieces (inFlow : Bool) (depth : Nat) : ∀ c : Content,
    Piece.parts (c.pieces width inFlow depth) = c.parts
  | .text _ => rfl
  | .element name attributes closed flow children => by
    have inside := parts_allPieces (inFlow || flow) (depth + 1) children
    rw [Content.pieces, Content.parts]
    cases closed <;> simp [Piece.part?, inside]

theorem parts_allPieces (inFlow : Bool) (depth : Nat) : ∀ cs : List Content,
    Piece.parts (allPieces width inFlow depth cs) = allParts cs
  | [] => rfl
  | c :: cs => by
    rw [allPieces, allParts, Piece.parts_append, parts_pieces inFlow depth c, parts_allPieces inFlow depth cs]

end

end FlowDoc.Xml
