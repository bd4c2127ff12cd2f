import FlowDoc.Text.Space

/-!
# Scanning

A scan reads something from the start of a text and leaves the rest, or fails. `many` repeats one for as long as it
succeeds.
-/

namespace FlowDoc.Config.Toml

/-- Reads from the start of a text, or fails. -/
abbrev Scan := StateT (List Char) Option

namespace Scan

/-- The character at the start, which must be in a class. -/
def one (p : Char → Bool) : Scan Char
  | c :: rest => if p c then some (c, rest) else none
  | [] => none

/-- A character. -/
def char (c : Char) : Scan Unit := discard (one (· == c))

/-- A word. -/
def word (w : List Char) : Scan Unit := fun s => (Text.stripPrefix? w s).map ((), ·)

/-- The characters of a class at the start. -/
def span (p : Char → Bool) : Scan (List Char) := fun s => some (s.takeWhile p, s.dropWhile p)

/-- The characters of a class at the start, at least one. -/
def span1 (p : Char → Bool) : Scan (List Char) := do
  let cs ← span p
  guard !cs.isEmpty
  return cs

/-- A number of characters of a class. -/
def exactly (p : Char → Bool) : Nat → Scan (List Char)
  | 0 => return []
  | n + 1 => do return (← one p) :: (← exactly p n)

/-- What an item is, if it is there. -/
def maybe {α : Type} (item : Scan α) : Scan (Option α) := some <$> item <|> pure none

/-- The items at the start; `fuel` bounds their number. -/
def repeated {α : Type} (item : Scan α) : (fuel : Nat) → Scan (List α)
  | 0 => return []
  | fuel + 1 => do
    match ← maybe item with
    | some a => return a :: (← repeated item fuel)
    | none => return []

/-- The items at the start. -/
def many {α : Type} (item : Scan α) : Scan (List α) := fun s => repeated item s.length s

/-- Items with a separator between them, at least one. -/
def separated {α : Type} (item : Scan α) (separator : Scan Unit) : Scan (List α) := do
  return (← item) :: (← many (do separator; item))

/-- The end of the text. -/
def atEnd : Scan Unit := fun s => if s.isEmpty then some ((), s) else none

/-- Read a whole text. -/
def whole {α : Type} (scan : Scan α) (s : List Char) : Option α :=
  match scan s with
  | some (a, []) => some a
  | _ => none

end Scan

/-! ## Blanks, line ends and comments -/

open Scan

/-- Characters that stand for themselves in texts and comments: all but the control characters of ASCII, and the tab. -/
def isPlain (c : Char) : Bool := c == '\t' || (' ' ≤ c && c != '\x7F')

def isBlank (c : Char) : Bool := c == ' ' || c == '\t'

/-- Blanks within a line. -/
def blanks : Scan Unit := discard (span isBlank)

/-- A line feed, after a carriage return or alone. -/
def newline : Scan Unit := word ['\n'] <|> word ['\r', '\n']

def comment : Scan Unit := do
  char '#'
  discard (span isPlain)

/-- The end of a line, which a comment may precede. -/
def lineEnd : Scan Unit := do
  blanks
  discard (maybe comment)
  newline <|> atEnd

/-- Blanks, line ends and comments. -/
def gap : Scan Unit := discard (many (discard (span1 isBlank) <|> newline <|> do comment; newline))

end FlowDoc.Config.Toml
