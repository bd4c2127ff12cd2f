import FlowDoc.Text.Space

/-!
# Front matter

A document may begin with lines of metadata between two lines of three hyphens. They are no part of its text, and
neither is one empty line after them.
-/

namespace FlowDoc.Markdown

/-- The line before and after the metadata. -/
def fence : List Char := "---".toList

/-- Skip a line end. -/
def skipLineEnd? : List Char → Option (List Char)
  | '\n' :: rest => some rest
  | '\r' :: '\n' :: rest => some rest
  | _ => none

/-- What follows the first occurrence of `mark`. -/
def after? (mark : List Char) : List Char → Option (List Char)
  | [] => if mark.isEmpty then some [] else none
  | c :: cs =>
    match Text.stripPrefix? mark (c :: cs) with
    | some rest => some rest
    | none => after? mark cs

/-- What follows the line that closes the metadata. One that a carriage return ends is looked for first. -/
def afterClosing? (cs : List Char) : Option (List Char) :=
  (after? ('\n' :: fence ++ ['\r', '\n']) cs).or (after? ('\n' :: fence ++ ['\n']) cs)

/-- The text after the metadata of a document that begins with such. -/
def skipFrontMatter? (cs : List Char) : Option (List Char) := do
  let cs := if cs.head? == some '\ufeff' then cs.drop 1 else cs
  let rest ← afterClosing? (← skipLineEnd? (← Text.stripPrefix? fence cs))
  return (skipLineEnd? rest).getD rest

end FlowDoc.Markdown
