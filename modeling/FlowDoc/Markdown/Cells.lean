import FlowDoc.Text.Space
import FlowDoc.Document
import FlowDoc.Markdown.Character

/-!
# Cells of a table

A line of a table is parted into cells by bars; a bar after a backslash is text. The line below the header draws each
column with hyphens, and aligns it by colons.
-/

namespace FlowDoc.Markdown

/-- White space within a line. -/
def isInnerSpace (c : Char) : Bool := c == ' ' || c == '\t' || c == '\x0b' || c == '\x0c'

/-- The length of a cell: it ends before a bar that does not follow a backslash. -/
def cellLength : (escaped : Bool) → List Char → Nat
  | _, [] => 0
  | escaped, c :: cs => if c == '|' && !escaped then 0 else cellLength (c == '\\') cs + 1

/-- Drop the backslashes before bars. -/
def unescapeBars : List Char → List Char
  | [] => []
  | '\\' :: '|' :: cs => '|' :: unescapeBars cs
  | c :: cs => c :: unescapeBars cs

/-- Skip a bar with the white space after it. -/
def skipBar? : List Char → Option (List Char)
  | '|' :: rest => some (rest.dropWhile isInnerSpace)
  | _ => none

/-- The cells of the rest of a line, of which there are at most `fuel`. -/
def cellsFrom : (fuel : Nat) → List Char → List (List Char)
  | 0, _ => []
  | fuel + 1, cs =>
    let n := cellLength false cs
    let cell := Text.trim isGap (unescapeBars (cs.take n))
    match skipBar? (cs.drop n) with
    | some rest => cell :: cellsFrom fuel rest
    | none => if n = 0 then [] else [cell]

/-- The cells of a line. -/
def cells (line : List Char) : List (List Char) :=
  let start := (skipBar? line).getD line
  cellsFrom (start.length + 1) start

/-- Drop the last character if it is a bar. -/
def dropLastBar (cs : List Char) : List Char := if cs.getLast? == some '|' then cs.dropLast else cs

/-- Whether a text draws a column: hyphens, with a colon before or after them or both. -/
def drawsColumn (cs : List Char) : Bool :=
  let cs := Text.trim isInnerSpace cs
  let cs := if cs.head? == some ':' then cs.drop 1 else cs
  let cs := if cs.getLast? == some ':' then cs.dropLast else cs
  !cs.isEmpty && cs.all (· == '-')

/-- Whether a line draws columns between bars. -/
def drawsColumns (line : List Char) : Bool :=
  let line := dropLastBar (Text.trimRight isInnerSpace line)
  let line := if line.head? == some '|' then line.drop 1 else line
  (line.splitOn '|').all drawsColumn

/-- The alignment that a cell of the line below the header sets by the colons that it begins and ends with. -/
def alignmentOf (cell : List Char) : Option ColumnAlignment :=
  match cell.head? == some ':', cell.getLast? == some ':' with
  | true, true => some .center
  | true, false => some .left
  | false, true => some .right
  | false, false => none

/-- The alignments of the columns that the line below the header draws. -/
def readAlignments? (line : List Char) : Option (List (Option ColumnAlignment)) :=
  if drawsColumns line then some ((cells line).map alignmentOf) else none

/-- Make a list `n` long, with cells that are empty. -/
def padCells (n : Nat) (cells : List (List Char)) : List (List Char) :=
  cells.take n ++ List.replicate (n - cells.length) []

end FlowDoc.Markdown
