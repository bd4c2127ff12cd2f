import FlowDoc.Markdown.Autolink
import FlowDoc.Markdown.Emphasis
import FlowDoc.Markdown.Html
import FlowDoc.Markdown.Link

/-!
# The inlines of a paragraph

A paragraph is read from left to right into pieces. Brackets that are open keep the pieces before them; the bracket that
closes one makes a link or an image of those after it, if a target follows or its label is defined.
-/

namespace FlowDoc.Markdown

/-- A bracket that is open. -/
structure OpenBracket where
  isImage : Bool
  /-- Whether another bracket was opened after it. -/
  hasInner : Bool := false
  /-- The text after it. -/
  text : List Char
  /-- The pieces before it, in reverse. -/
  before : List Piece

/-- A paragraph of which a part is read. -/
structure Reader where
  /-- What is read, in reverse. -/
  seen : List Char := []
  rest : List Char
  /-- The pieces since the innermost open bracket, in reverse. -/
  pieces : List Piece := []
  /-- The open brackets, innermost first. -/
  brackets : List OpenBracket := []
  /-- Whether the last bracket was an opening one. -/
  inBrackets : Bool := false
  /-- Whether a link was closed since a bracket was last opened, so that no bracket opens another. -/
  noLinks : Bool := true
  /-- Whether a comment was found open, so that no construct with an exclamation mark is looked for any more. -/
  noDeclarations : Bool := false
  /-- Whether a processing instruction was found open, so that no other is looked for any more. -/
  noInstructions : Bool := false
  /-- The bytes that the targets of labels may still take. -/
  allowance : Nat

namespace Reader

/-- Move on to a place in what is left to read. -/
def moveTo (rest : List Char) (r : Reader) : Reader :=
  { r with seen := (r.rest.take (r.rest.length - rest.length)).reverse ++ r.seen, rest }

/-- Move on by characters. -/
def move (n : Nat) (r : Reader) : Reader := { r with seen := (r.rest.take n).reverse ++ r.seen, rest := r.rest.drop n }

/-- Add an inline. -/
def add (i : Inline) (r : Reader) : Reader := { r with pieces := .inline i :: r.pieces }

/-- Add a text. -/
def addText (cs : List Char) (r : Reader) : Reader := r.add (.text (String.ofList cs))

/-- Move on by characters, which are text. -/
def text (n : Nat) (r : Reader) : Reader := (r.move n).addText (r.rest.take n)

/-! ## Line ends and escapes -/

/-- Take a line end, which two spaces before it make a hard one. -/
def lineEnd (r : Reader) : Reader :=
  let hard := match r.seen with
    | ' ' :: ' ' :: _ => true
    | _ => false
  (r.add (if hard then .hardBreak else .softBreak)).moveTo ((r.rest.drop 1).dropWhile isBlank)

/-- Take a backslash: punctuation after it is text, and a line end is a hard one. -/
def backslash (r : Reader) : Reader :=
  match r.rest.drop 1 with
  | '\n' :: rest => (r.add .hardBreak).moveTo (rest.dropWhile isBlank)
  | c :: _ => if isPunct c then (r.move 2).addText [c] else r.text 1
  | [] => r.text 1

/-- Take an ampersand, with the reference that it begins. -/
def ampersand (r : Reader) : Reader :=
  match readReference? (r.rest.drop 1) with
  | some (cs, rest) => (r.moveTo rest).addText cs
  | none => r.text 1

/-! ## Code -/

/-- The longest run of backticks around code. -/
def backtickLimit : Nat := 80

/-- The text before the next run of `n` backticks, of which `run` are just read, and the text after that. -/
def codeEnd? (n : Nat) : (run : Nat) → List Char → Option (List Char × List Char)
  | run, [] => if run = n then some ([], []) else none
  | run, c :: cs =>
    if c == '`' then (codeEnd? n (run + 1) cs).map fun (code, rest) => (c :: code, rest)
    else if run = n then some ([], c :: cs)
    else (codeEnd? n 0 cs).map fun (code, rest) => (c :: code, rest)

/-- The text of code: line ends are spaces, and a space at both ends is dropped if there is more than spaces. -/
def codeText (cs : List Char) : List Char :=
  let cs := cs.map fun c => if c == '\n' then ' ' else c
  if cs.any (· != ' ') && cs.head? == some ' ' && cs.getLast? == some ' ' then (cs.drop 1).dropLast else cs

/-- Take backticks, with the code between them and as many others. -/
def backticks (r : Reader) : Reader :=
  let n := (r.rest.takeWhile (· == '`')).length
  match if n ≤ backtickLimit then codeEnd? n 0 (r.rest.drop n) else none with
  | some (code, rest) => (r.moveTo rest).add (.code (String.ofList (codeText (code.take (code.length - n)))))
  | none => r.text n

/-! ## Angle brackets -/

/-- What follows a construct of markup after its angle bracket, the first of which is `cs`. -/
def skipHtml? (r : Reader) (cs : List Char) : Option (List Char) :=
  match cs with
  | '!' :: cs =>
    if r.noDeclarations then none
    else match cs with
      | '-' :: '-' :: '>' :: rest => some rest
      | '-' :: '-' :: '-' :: '>' :: rest => some rest
      | '-' :: '-' :: rest => skipComment? rest
      | '[' :: rest => (skipDataOpening? rest).bind skipCharacterData?
      | rest => skipDeclaration? rest
  | '?' :: rest => if r.noInstructions then none else skipInstruction? rest
  | _ => skipTag? cs

/-- Take an angle bracket, with the address or the markup that it begins. -/
def angleBracket (r : Reader) : Reader :=
  let cs := r.rest.drop 1
  match readPointedUri? cs, readPointedMail? cs with
  | some (url, rest), _ =>
    let shown := decodeReferences url
    (r.moveTo rest).add (linkOf (decodeReferences (Text.trim isGap url)) shown)
  | none, some (address, rest) =>
    let shown := decodeReferences address
    (r.moveTo rest).add (linkOf ("mailto:".toList ++ shown) shown)
  | none, none =>
    match r.skipHtml? cs with
    | some rest =>
      let r' := r.moveTo rest
      r'.add (.html (String.ofList (r.rest.take (r.rest.length - rest.length))))
    | none =>
      { r.text 1 with
        noDeclarations := r.noDeclarations || startsWith "!--" cs
        noInstructions := r.noInstructions || startsWith "?" cs }

/-! ## Addresses -/

/-- Drop the last characters of the texts that were added last. -/
def dropText : (n : Nat) → List Piece → List Piece
  | 0, ps => ps
  | n + 1, .inline (.text s) :: ps =>
    let cs := s.toList
    if n + 1 < cs.length then .inline (.text (String.ofList (cs.take (cs.length - (n + 1))))) :: ps
    else dropText (n + 1 - cs.length) ps
  | _ + 1, ps => ps
termination_by _ ps => ps.length

/-- Take a colon, with the address around it. -/
def colon (autolink : Bool) (r : Reader) : Reader :=
  match if autolink && !r.inBrackets then addressAfterColon? r.seen r.rest else none with
  | some (scheme, address) =>
    let url := scheme ++ address
    { r.move address.length with pieces := .inline (linkOf url url) :: dropText scheme.length r.pieces }
  | none => r.text 1

/-- Take a letter that may begin an address. -/
def hostStart (r : Reader) : Reader :=
  match if r.inBrackets then none else addressFromWww? r.seen r.rest with
  | some address => (r.move address.length).add (linkOf ("http://".toList ++ address) address)
  | none => r.text 1

/-! ## Delimiters -/

/-- Take a run of delimiters. Whether it may open or close depends on the characters beside it, of which those of a
class are passed over. -/
def delimiters (skipped : Char → Bool) (mark : Char) (r : Reader) : Reader :=
  let n := (r.rest.takeWhile (· == mark)).length
  let before := ((r.seen.dropWhile skipped).head?).getD '\n'
  let after := (((r.rest.drop n).dropWhile skipped).head?).getD '\n'
  let isPunct := Text.isPunctuation
  let opens := !Text.isSpace after && !(isPunct after && !Text.isSpace before && !isPunct before)
  let closes := !Text.isSpace before && !(isPunct before && !Text.isSpace after && !isPunct after)
  let canOpen := if mark == '_' then opens && (!closes || isPunct before) else opens
  let canClose := if mark == '_' then closes && (!opens || isPunct after) else closes
  if canOpen || canClose then
    { r.move n with pieces := .delimiters ⟨mark, n, canOpen, canClose⟩ :: r.pieces }
  else r.text n

/-! ## Brackets -/

/-- Open a bracket, written with `n` characters. -/
def openBracket (isImage : Bool) (n : Nat) (r : Reader) : Reader :=
  let outer := match r.brackets with
    | b :: bs => { b with hasInner := true } :: bs
    | [] => []
  { r.move n with
    pieces := []
    brackets := { isImage, text := r.rest.drop n, before := r.pieces } :: outer
    inBrackets := true
    noLinks := r.noLinks && isImage }

/-- The text that opened a bracket. -/
def OpenBracket.literal (b : OpenBracket) : Piece := .inline (.text (if b.isImage then "![" else "["))

/-- Give up the innermost open bracket. -/
def dropBracket (r : Reader) : Reader :=
  match r.brackets with
  | b :: bs => { r with pieces := r.pieces ++ OpenBracket.literal b :: b.before, brackets := bs }
  | [] => r

/-- Read a target in parentheses. -/
def readTarget? : List Char → Option (Target × List Char)
  | '(' :: cs => do
    let (destination, rest) ← readDestinationOrNone? (cs.dropWhile isWhite)
    let afterSpace := rest.dropWhile isWhite
    let (title, rest) := if afterSpace.length = rest.length then ([], rest)
      else (readTitle? afterSpace).getD ([], afterSpace)
    match rest.dropWhile isWhite with
    | ')' :: rest => some (⟨urlOf destination, titleOf title⟩, rest)
    | _ => none
  | _ => none
where
  /-- A destination may be missing. -/
  readDestinationOrNone? : List Char → Option (List Char × List Char)
    | ')' :: rest => some ([], ')' :: rest)
    | cs => readDestination? cs

/-- The target that follows a closing bracket, what is left after it, and what is left of an allowance: a target in
parentheses, or that of a label, which takes its bytes. The label may be what the brackets hold, if they hold no
bracket. -/
def targetAfter? (references : References) (b : OpenBracket) (allowance : Nat) (closing : List Char) :
    Option (Target × List Char × Nat) :=
  let rest := closing.drop 1
  match readTarget? rest with
  | some (target, rest) => some (target, rest, allowance)
  | none =>
    let (label, rest) := match readLabel? rest with
      | some (label, after) => if label.isEmpty && !b.hasInner then (some none, after) else (some (some label), after)
      | none => (if b.hasInner then none else some none, rest)
    let held := b.text.take (b.text.length - closing.length)
    match label.bind fun label => references.lookup (normalizeLabel (label.getD held)) with
    | some target => if target.size ≤ allowance then some (target, rest, allowance - target.size) else none
    | none => none

/-- Take a closing bracket. -/
def closeBracket (references : References) (r : Reader) : Reader :=
  let r := { r with inBrackets := false }
  match r.brackets with
  | [] => r.text 1
  | b :: bs =>
    if !b.isImage && r.noLinks then r.dropBracket.text 1
    else match targetAfter? references b r.allowance r.rest with
      | some (target, rest, allowance) =>
        let children := inlinesOf r.pieces.reverse
        let inline := if b.isImage then Inline.image target children else .link target children
        { r.moveTo rest with
          pieces := .inline inline :: b.before, brackets := bs, noLinks := r.noLinks || !b.isImage, allowance }
      | none => r.dropBracket.text 1

/-! ## Reading -/

/-- Whether a character ends a plain text. -/
def isSpecial (x : Extensions) (inBrackets : Bool) (c : Char) : Bool :=
  "\n_*\"`\\&<[]!$".toList.contains c || (x.autolink && (c == ':' || c == 'w')) || (x.strikethrough && c == '~')
    || (x.superscript && c == '^' && !inBrackets)

/-- Take a plain text; the white space before a line end is dropped. -/
def plain (x : Extensions) (r : Reader) : Reader :=
  let n := (r.rest.takeWhile (!isSpecial x r.inBrackets ·)).length
  let cs := r.rest.take n
  (r.move n).addText (if (r.rest.drop n).head? == some '\n' then Text.trimRight isGap cs else cs)

/-- Take what the next character begins. -/
def step (x : Extensions) (references : References) (r : Reader) : Reader :=
  let skipped (c : Char) := x.strikethrough && c == '~'
  match r.rest with
  | [] => r
  | '\n' :: _ => r.lineEnd
  | '`' :: _ => r.backticks
  | '\\' :: _ => r.backslash
  | '&' :: _ => r.ampersand
  | '<' :: _ => r.angleBracket
  | ':' :: _ => r.colon x.autolink
  | 'w' :: _ => if x.autolink then r.hostStart else r.plain x
  | '*' :: _ => r.delimiters skipped '*'
  | '_' :: _ => r.delimiters skipped '_'
  | '~' :: _ => if x.strikethrough then r.delimiters skipped '~' else r.plain x
  | '^' :: _ => if x.superscript && !r.inBrackets then r.delimiters skipped '^' else r.plain x
  | '\'' :: _ | '"' :: _ | '-' :: _ | '.' :: _ | '$' :: _ => r.text 1
  | '[' :: _ => r.openBracket false 1
  | ']' :: _ => r.closeBracket references
  | '!' :: '[' :: cs => if cs.head? == some '^' then r.text 1 else r.openBracket true 2
  | '!' :: _ => r.text 1
  | _ => r.plain x

/-- Take all that is left, in at most `fuel` steps. -/
def run (x : Extensions) (references : References) : (fuel : Nat) → Reader → Reader
  | 0, r => r
  | fuel + 1, r => if r.rest.isEmpty then r else run x references fuel (r.step x references)

/-- All pieces, in reverse, with the brackets that stayed open as text. -/
def allPieces (pieces : List Piece) : List OpenBracket → List Piece
  | [] => pieces
  | b :: bs => allPieces (pieces ++ OpenBracket.literal b :: b.before) bs

end Reader

/-- The inlines of a text. The state is the allowance for the targets of labels. -/
def readInlines (x : Extensions) (references : References) (cs : List Char) : StateM Nat (List Inline) := do
  let cs := Text.trimRight isGap cs
  let r := Reader.run x references cs.length { rest := cs, allowance := ← get }
  set r.allowance
  return inlinesOf (Reader.allPieces r.pieces r.brackets).reverse

end FlowDoc.Markdown
