import FlowDoc.Text.Space
import FlowDoc.Markdown.Character
import FlowDoc.Markdown.EntityTable

/-!
# Character references and backslash escapes

A character may be written by its name or number between an ampersand and a semicolon, and punctuation after a
backslash. `unescape` undoes both, references first.
-/

namespace FlowDoc.Markdown

/-- The character of a number; one that no text may hold becomes the replacement character. -/
def ofNumber (n : Nat) : Char :=
  if n = 0 || (0xD800 ≤ n && n ≤ 0xE000) || 0x110000 ≤ n then '\ufffd' else Char.ofNat n

/-- The number that decimal digits write. -/
def decimalNumber (ds : List Char) : Nat := ds.foldl (fun n d => 10 * n + (d.toNat - '0'.toNat)) 0

/-- The most digits of a number. -/
def digitLimit : Nat := 7

/-- Read digits of a class, as many as a number may have, and the semicolon after them. -/
def readDigits? (p : Char → Bool) (cs : List Char) : Option (List Char × List Char) :=
  let digits := cs.takeWhile p
  match cs.dropWhile p with
  | ';' :: rest => if digits.isEmpty || digitLimit < digits.length then none else some (digits, rest)
  | _ => none

/-- Read a reference after its ampersand: the characters it stands for, and what follows it. -/
def readReference? : List Char → Option (List Char × List Char)
  | '#' :: 'x' :: cs | '#' :: 'X' :: cs =>
    (readDigits? isHexDigit cs).map fun (ds, rest) => ([ofNumber (hexNumber (ds.map Char.toUpper))], rest)
  | '#' :: cs => (readDigits? Char.isDigit cs).map fun (ds, rest) => ([ofNumber (decimalNumber ds)], rest)
  | cs =>
    match cs.dropWhile Char.isAlphanum with
    | ';' :: rest => (entities.lookup (cs.takeWhile Char.isAlphanum)).map (·, rest)
    | _ => none

/-- Decode the references of a text, of which `skip` characters belong to a reference already read. -/
def decodeFrom : (skip : Nat) → List Char → List Char
  | _, [] => []
  | skip + 1, _ :: cs => decodeFrom skip cs
  | 0, c :: cs =>
    match if c = '&' then readReference? cs else none with
    | some (decoded, rest) => decoded ++ decodeFrom (cs.length - rest.length) cs
    | none => c :: decodeFrom 0 cs

/-- Decode the references of a text. -/
def decodeReferences (cs : List Char) : List Char := decodeFrom 0 cs

/-- Drop the backslashes before punctuation. -/
def dropEscapes : List Char → List Char
  | [] => []
  | '\\' :: c :: cs => if isPunct c then c :: dropEscapes cs else '\\' :: dropEscapes (c :: cs)
  | c :: cs => c :: dropEscapes cs

/-- Undo references and escapes. -/
def unescape (cs : List Char) : List Char := dropEscapes (decodeReferences cs)

end FlowDoc.Markdown
