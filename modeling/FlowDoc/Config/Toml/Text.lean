import FlowDoc.Config.Toml.Scan
import FlowDoc.Uri.Percent

/-!
# Texts of a configuration file

A text stands between double quotes, where a backslash begins an escape, or between apostrophes, where nothing does. Three
quotes open a text of several lines. Its line ends are line feeds; one right after the opening quotes does not count.
-/

namespace FlowDoc.Config.Toml

open Scan

/-- The character that hexadecimal digits write. -/
def scalarValue? (digits : List Char) : Option Char := do
  let n ← digits.foldlM (fun n d => (Uri.hexValue? d).map (16 * n + ·)) 0
  if h : n.isValidChar then some (Char.ofNatAux n h) else none

/-- A number of hexadecimal digits, as a character. -/
def hexEscape (digits : Nat) : Scan Char := do
  match scalarValue? (← exactly Uri.isHexDigit digits) with
  | some c => return c
  | none => failure

/-- An escape. -/
def escape : Scan Char := do
  char '\\'
  match ← one fun _ => true with
  | 'b' => return '\x08'
  | 't' => return '\t'
  | 'n' => return '\n'
  | 'f' => return '\x0C'
  | 'r' => return '\r'
  | '"' => return '"'
  | '\\' => return '\\'
  | 'u' => hexEscape 4
  | 'U' => hexEscape 8
  | _ => failure

/-- A text on one line, from its quotes on. -/
def lineText (quote : Char) (piece : Scan Char) : Scan String := do
  char quote
  let cs ← many piece
  char quote
  return String.ofList cs

/-- Fewer than three quotes, which close no text. -/
def looseQuotes (quote : Char) : Scan (List Char) := do
  let cs ← span1 (· == quote)
  guard (cs.length < 3)
  return cs

/-- A text of several lines, from its quotes on; up to two quotes may stand before those that close it. -/
def blockText (quote : Char) (piece : Scan (List Char)) : Scan String := do
  word [quote, quote, quote]
  discard (maybe newline)
  let pieces ← many (piece <|> looseQuotes quote <|> (do newline; return ['\n']))
  let cs ← span (· == quote)
  guard (3 ≤ cs.length && cs.length ≤ 5)
  return String.ofList (pieces.flatten ++ cs.drop 3)

/-- A character that stands for itself, other than some. -/
def plainExcept (others : List Char) : Scan Char := one fun c => isPlain c && !others.contains c

/-- A backslash at the end of a line, which joins it to the next text. -/
def continuation : Scan (List Char) := do
  char '\\'
  blanks
  newline
  discard (many (discard (span1 isBlank) <|> newline))
  return []

/-- A text on one line. -/
def plainText : Scan String := lineText '"' (plainExcept ['"', '\\'] <|> escape) <|> lineText '\'' (plainExcept ['\''])

/-- A text. -/
def text : Scan String :=
  blockText '"' (continuation <|> (fun c => [c]) <$> (plainExcept ['"', '\\'] <|> escape)) <|>
    blockText '\'' ((fun c => [c]) <$> plainExcept ['\'']) <|> plainText

end FlowDoc.Config.Toml
