import FlowDoc.Text.CaseFold
import FlowDoc.Markdown.Entity
import FlowDoc.Markdown.Syntax

/-!
# Labels, destinations and titles

The parts of a link, and the definitions at the head of a paragraph that give targets to labels. Labels are compared
with their white space collapsed and their case folded; of two definitions of a label the first counts.
-/

namespace FlowDoc.Markdown

/-! ## Labels -/

/-- The longest label, in bytes. -/
def labelLimit : Nat := 1000

/-- Read a label of at most `limit` bytes after its bracket, up to the bracket that closes it. -/
def scanLabel? : (limit : Nat) → List Char → Option (List Char × List Char)
  | _, [] => none
  | _, ']' :: rest => some ([], rest)
  | _, '[' :: _ => none
  | limit, '\\' :: c :: rest =>
    if isPunct c then
      if limit < 2 then none else (scanLabel? (limit - 2) rest).map fun (label, rest) => ('\\' :: c :: label, rest)
    else if limit < 1 then none
    else (scanLabel? (limit - 1) (c :: rest)).map fun (label, rest) => ('\\' :: label, rest)
  | limit, c :: rest =>
    if limit < c.utf8Size then none
    else (scanLabel? (limit - c.utf8Size) rest).map fun (label, rest) => (c :: label, rest)

/-- Read a label with its brackets, trimmed. -/
def readLabel? : List Char → Option (List Char × List Char)
  | '[' :: rest => (scanLabel? labelLimit rest).map fun (label, rest) => (Text.trim isGap label, rest)
  | _ => none

/-- Make every run of white space one space. -/
def collapseSpace : List Char → List Char
  | [] => []
  | c :: cs =>
    if Text.isSpace c then
      if (cs.head?.map Text.isSpace).getD false then collapseSpace cs else ' ' :: collapseSpace cs
    else c :: collapseSpace cs

/-- The form in which labels are compared. -/
def normalizeLabel (label : List Char) : List Char := Text.caseFold (collapseSpace (Text.trim isGap label))

/-! ## Destinations -/

/-- Read a destination in angle brackets, after the first of them. -/
def scanPointed? : List Char → Option (List Char × List Char)
  | [] => none
  | '>' :: rest => some ([], rest)
  | '\\' :: c :: rest => (scanPointed? rest).map fun (url, rest) => ('\\' :: c :: url, rest)
  | c :: rest =>
    if c == '\n' || c == '<' then none else (scanPointed? rest).map fun (url, rest) => (c :: url, rest)

/-- The deepest nesting of parentheses in a destination. -/
def parenthesisLimit : Nat := 32

/-- Read a bare destination inside `depth` parentheses of its own: it ends before white space, a control character or
a parenthesis that it did not open. -/
def scanBare? : (depth : Nat) → List Char → Option (List Char × List Char)
  | _, [] => none
  | depth, '\\' :: c :: rest =>
    if isPunct c then (scanBare? depth rest).map fun (url, rest) => ('\\' :: c :: url, rest)
    else (scanBare? depth (c :: rest)).map fun (url, rest) => ('\\' :: url, rest)
  | depth, '(' :: rest =>
    if parenthesisLimit ≤ depth then none
    else (scanBare? (depth + 1) rest).map fun (url, rest) => ('(' :: url, rest)
  | 0, ')' :: rest => some ([], ')' :: rest)
  | depth + 1, ')' :: rest => (scanBare? depth rest).map fun (url, rest) => (')' :: url, rest)
  | depth, c :: rest =>
    if isGap c || isAsciiControl c then if depth = 0 then some ([], c :: rest) else none
    else (scanBare? depth rest).map fun (url, rest) => (c :: url, rest)

/-- Read a destination as it is written. -/
def readDestination? : List Char → Option (List Char × List Char)
  | '<' :: rest => scanPointed? rest
  | c :: rest => if isGap c || isAsciiControl c then none else scanBare? 0 (c :: rest)
  | [] => none

/-- The address that a destination writes. -/
def urlOf (destination : List Char) : String := String.ofList (unescape (Text.trim isGap destination))

/-! ## Titles -/

/-- The length of a title after its opening mark, its closing mark included. A mark after a backslash closes the title
only if no other does; `best` is the last such. -/
def titleLength? (closing : Char) : (escaped : Bool) → (best : Option Nat) → (length : Nat) → List Char → Option Nat
  | _, best, _, [] => best
  | escaped, best, length, c :: rest =>
    if c == closing then
      if escaped then titleLength? closing false (some (length + 1)) (length + 1) rest else some (length + 1)
    else if closing == ')' && c == '(' && !escaped then best
    else titleLength? closing (c == '\\') best (length + 1) rest

/-- Read a title in quotes or parentheses, without them. -/
def readTitle? : List Char → Option (List Char × List Char)
  | [] => none
  | c :: rest => do
    let closing ← match c with
      | '"' => some '"'
      | '\'' => some '\''
      | '(' => some ')'
      | _ => none
    let length ← titleLength? closing false none 0 rest
    return (rest.take (length - 1), rest.drop length)

/-- The text that a title writes. -/
def titleOf (title : List Char) : String := String.ofList (unescape title)

/-! ## Definitions -/

/-- The targets of labels. -/
abbrev References := List (List Char × Target)

namespace References

/-- Define a label that is not defined yet and not empty. -/
def define (r : References) (label : List Char) (target : Target) : References :=
  if label.isEmpty || (r.lookup label).isSome then r else (label, target) :: r

end References

/-- Skip blanks, and a line end if there is one, with the blanks after it. -/
def skipLineBreak (cs : List Char) : List Char :=
  match cs.dropWhile isBlank with
  | '\n' :: rest => rest.dropWhile isBlank
  | rest => rest

/-- Skip the blanks up to and with the line end or the end of the text, if nothing else is there. -/
def endLine? (cs : List Char) : Option (List Char) :=
  match cs.dropWhile isBlank with
  | [] => some []
  | '\n' :: rest => some rest
  | _ => none

/-- Read what follows the destination of a definition: a title that ends its line, or none. -/
def readDefinitionTitle? (cs : List Char) : Option (List Char × List Char) :=
  let next := skipLineBreak cs
  match if next.length = cs.length then none else readTitle? next with
  | some (title, rest) =>
    match endLine? rest with
    | some rest => some (title, rest)
    | none => (endLine? cs).map fun rest => ([], rest)
  | none => (endLine? cs).map fun rest => ([], rest)

/-- Read a definition: its normal label, its target, and what follows it. -/
def readDefinition? (cs : List Char) : Option (List Char × Target × List Char) := do
  let (label, rest) ← readLabel? cs
  if label.isEmpty then none
  match rest with
  | ':' :: rest =>
    let (destination, rest) ← readDestination? (skipLineBreak rest)
    let (title, rest) ← readDefinitionTitle? rest
    return (normalizeLabel label, ⟨urlOf destination, titleOf title⟩, rest)
  | _ => none

/-- Take the definitions at the head of a text, of which there are at most `fuel`. -/
def takeDefinitionsFrom : (fuel : Nat) → References → List Char → References × List Char
  | 0, r, cs => (r, cs)
  | fuel + 1, r, cs =>
    match readDefinition? cs with
    | some (label, target, rest) => takeDefinitionsFrom fuel (r.define label target) rest
    | none => (r, cs)

/-- Take the definitions at the head of a text. -/
def takeDefinitions (r : References) (cs : List Char) : References × List Char := takeDefinitionsFrom cs.length r cs

end FlowDoc.Markdown
