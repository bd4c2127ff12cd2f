import FlowDoc.Markdown.Character

/-!
# Places in a line

Indentation is counted in columns, and a tab leads to the next multiple of four. A container may end within a tab: the
columns it leaves are still owed, and stand for spaces.
-/

namespace FlowDoc.Markdown

/-- A place in a line. -/
structure Cursor where
  /-- The columns left of a tab that is passed in part. -/
  owed : Nat := 0
  rest : List Char
  column : Nat := 0

namespace Cursor

/-- The columns of a tab in a column. -/
def tabWidth (column : Nat) : Nat := 4 - column % 4

/-- Move on by a column. -/
def step (c : Cursor) : Cursor :=
  match c.owed, c.rest with
  | n + 1, _ => { c with owed := n, column := c.column + 1 }
  | 0, '\t' :: rest => ⟨tabWidth c.column - 1, rest, c.column + 1⟩
  | 0, _ :: rest => ⟨0, rest, c.column + 1⟩
  | 0, [] => c

/-- Move on by columns. -/
def advance : (columns : Nat) → Cursor → Cursor
  | 0, c => c
  | n + 1, c => advance n c.step

/-- Move past characters other than tabs. -/
def drop (c : Cursor) (n : Nat) : Cursor := ⟨0, c.rest.drop n, c.column + n⟩

/-- The column after blanks that begin in a column. -/
def columnAfter (column : Nat) (blanks : List Char) : Nat :=
  blanks.foldl (fun column c => column + if c == '\t' then tabWidth column else 1) column

/-- The first place at or after a cursor that is not blank. -/
def text (c : Cursor) : Cursor :=
  ⟨0, c.rest.dropWhile isBlank, columnAfter (c.column + c.owed) (c.rest.takeWhile isBlank)⟩

/-- The columns of the blanks at a cursor. -/
def indent (c : Cursor) : Nat := c.text.column - c.column

/-- Whether only blanks follow. -/
def isBlank (c : Cursor) : Bool := c.rest.all Markdown.isBlank

/-- Whether a blank follows. -/
def atBlank (c : Cursor) : Bool := c.owed != 0 || (c.rest.head?.map Markdown.isBlank).getD false

/-- The characters of the blanks at a cursor; a tab that is passed in part is one. -/
def blanks (c : Cursor) : Nat := (if c.owed = 0 then 0 else 1) + (c.rest.takeWhile Markdown.isBlank).length

/-- Move on by at most `n` columns of blanks. -/
def skipBlanks : (n : Nat) → Cursor → Cursor
  | 0, c => c
  | n + 1, c => if c.atBlank then skipBlanks n c.step else c

/-- The line from a cursor on, with its line feed. -/
def line (c : Cursor) : List Char := List.replicate c.owed ' ' ++ c.rest ++ ['\n']

end Cursor

end FlowDoc.Markdown
