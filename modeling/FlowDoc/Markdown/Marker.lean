import FlowDoc.Markdown.Cursor
import FlowDoc.Markdown.Entity

/-!
# Markers

What a line of text may begin with: the marks of headings, breaks, fences and items of lists. All functions take the
line from its first character that is not blank.
-/

namespace FlowDoc.Markdown

/-! ## Headings and breaks -/

/-- The level of a heading, and what follows its number signs. -/
def readHeading? (cs : List Char) : Option (Nat × List Char) :=
  let level := (cs.takeWhile (· == '#')).length
  let rest := cs.drop level
  if 1 ≤ level && level ≤ 6 && (rest.head?.map isBlank).getD true then some (level, rest) else none

/-- The text of a heading, without the number signs that close it. -/
def headingText (cs : List Char) : List Char :=
  let text := Text.trimRight isGap cs
  let opened := Text.trimRight (· == '#') text
  let closed := opened.length < text.length && (opened.getLast?.map isBlank).getD false
  Text.trimLeft isBlank (if closed then Text.trimRight isGap opened else text)

/-- The level of the heading that a line of equals signs or hyphens makes of the paragraph before it. -/
def readUnderline? (cs : List Char) : Option Nat :=
  let blankAfter (mark : Char) := (cs.dropWhile (· == mark)).all isBlank
  match cs with
  | '=' :: _ => if blankAfter '=' then some 1 else none
  | '-' :: _ => if blankAfter '-' then some 2 else none
  | _ => none

/-- Whether a line is a thematic break: three or more of a mark, and blanks. -/
def isThematicBreak : List Char → Bool
  | [] => false
  | mark :: cs =>
    (mark == '*' || mark == '_' || mark == '-') && cs.all (fun c => c == mark || isBlank c) && 2 ≤ cs.count mark

/-! ## Fences -/

/-- The fence of a block of code: its mark, how many there are, and how far it is indented. -/
structure Fence where
  mark : Char
  length : Nat
  indent : Nat

/-- Read a fence that opens a block, and the information after it. -/
def readFence? (indent : Nat) : List Char → Option (Fence × List Char)
  | [] => none
  | mark :: cs =>
    let length := ((mark :: cs).takeWhile (· == mark)).length
    let info := (mark :: cs).drop length
    if length < 3 then none
    else if mark == '~' || (mark == '`' && !info.contains '`') then some (⟨mark, length, indent⟩, info)
    else none

/-- Whether a line closes the block that a fence opened. -/
def Fence.isClosedBy (f : Fence) (cs : List Char) : Bool :=
  let marks := cs.takeWhile (· == f.mark)
  3 ≤ marks.length && f.length ≤ marks.length && (cs.drop marks.length).all isBlank

/-- The information of a fence, as text. -/
def infoOf (cs : List Char) : String := String.ofList (dropEscapes (Text.trim isGap (decodeReferences cs)))

/-! ## Items -/

/-- The marker of an item. Items of one list have the same mark: a bullet, or what follows a number. -/
structure ListMarker where
  mark : Char
  start : Option Nat

/-- The most digits of a number before an item. -/
def numberLimit : Nat := 9

/-- Read the marker of an item, and its length. In a paragraph an item must have text and begin with one. -/
def readMarker? (inParagraph : Bool) (cs : List Char) : Option (ListMarker × Nat) := do
  let (marker, length) ← bullet? cs <|> number? cs
  let rest := cs.drop length
  if !(rest.head?.map isGap).getD true then none
  if inParagraph && (rest.all isBlank || marker.start.getD 1 != 1) then none
  return (marker, length)
where
  bullet? : List Char → Option (ListMarker × Nat)
    | c :: _ => if c == '*' || c == '-' || c == '+' then some (⟨c, none⟩, 1) else none
    | [] => none
  number? (cs : List Char) : Option (ListMarker × Nat) :=
    let digits := (cs.takeWhile Char.isDigit).take numberLimit
    match cs.drop digits.length with
    | c :: _ =>
      if !digits.isEmpty && (c == '.' || c == ')') then some (⟨c, some (decimalNumber digits)⟩, digits.length + 1)
      else none
    | [] => none

end FlowDoc.Markdown
