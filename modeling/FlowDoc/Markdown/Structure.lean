import FlowDoc.Markdown.Container

/-!
# The blocks of a document

A line is taken in three steps. The open containers and the open block that it goes on with are found from the outside
in. What is left of it may begin new blocks, which closes those that were not found. The rest is text, and a paragraph
goes on with it even if the containers around the paragraph do not.
-/

namespace FlowDoc.Markdown

namespace OpenDocument

/-! ## Beginning blocks -/

/-- What a line does at a place. -/
inductive Opening
  /-- It is taken to its end. -/
  | all (d : OpenDocument)
  /-- It opens a container, which the rest of it belongs to. -/
  | container (d : OpenDocument) (c : Cursor)

/-- Begin a block of markup with a line. -/
def openHtml (d : OpenDocument) (kind : HtmlKind) (c : Cursor) : OpenDocument :=
  let d := d.beginLeaf (.html kind [c.line])
  if kind.endsIn c.text.rest then d.closeTip else d

/-- Make a heading of the paragraph that the line of a cursor underlines. If definitions are all it holds, the line is
text. -/
def underline (d : OpenDocument) (lines : List (List Char)) (level : Nat) (c : Cursor) : OpenDocument :=
  let (references, content) := takeDefinitions d.references (textOf lines)
  let d := { d with references }
  if content.all isGap then { d with tip := .leaf (.paragraph [c.text.line, content] false) }
  else { d with tip := .closed }.add (.heading level content)

/-- Begin a table if a line draws the columns of the last line of a paragraph; the lines before that stay one. -/
def openTable? (d : OpenDocument) (lines : List (List Char)) (c : Cursor) : Option OpenDocument :=
  (readAlignments? c.text.rest).map fun alignments =>
    let content := Text.trimRight (· == '\n') (textOf lines)
    let header := (content.splitOn '\n').getLast?.getD []
    let header' := cells header
    if header'.isEmpty || header'.length != alignments.length then
      { d with tip := .leaf (.paragraph lines true) }.addText c
    else
      let before := Text.trim isGap (unescapeBars (content.take (content.length - header.length)))
      let d := { d with tip := .closed }
      let d := if content.length = header.length then d else d.add (.paragraph before)
      { d with tip := .leaf (.table alignments [⟨true, header'⟩]) }

/-- The most containers that one line opens before a list. -/
def depthLimit : Nat := 100

/-- Begin an item at a place after `depth` containers of the line. The blanks after its marker indent its content; if
they are five columns or more, or nothing follows them, only the first does. -/
def openItem? (d : OpenDocument) (depth : Nat) (c : Cursor) : Option Opening := do
  if 4 ≤ c.indent || depthLimit ≤ depth + 1 then none
  let (marker, length) ← readMarker? d.inParagraph c.text.rest
  let after := c.text.drop length
  let gap := after.indent
  if gap = 0 || 5 ≤ gap || after.isBlank then
    return .container (d.pushItem marker (c.indent + length + 1)) (if gap = 0 then after else after.step)
  else
    return .container (d.pushItem marker (c.indent + length + gap)) after.text

/-- Begin a block at a place after `depth` containers of the line. In a paragraph that may go on, an indented line is no
code. -/
def openBlock? (tables : Bool) (d : OpenDocument) (mayGoOn : Bool) (depth : Nat) (c : Cursor) : Option Opening :=
  let text := c.text.rest
  if 4 ≤ c.indent then
    if mayGoOn || c.isBlank then none else some (.all (d.beginLeaf (.indentedCode [(c.advance 4).line])))
  else if text.head? == some '>' then
    let after := c.text.drop 1
    some (.container (d.push (.quote [])) (if after.atBlank then after.step else after))
  else if let some (level, rest) := readHeading? text then
    some (.all (d.addBlock (.heading level (headingText rest))))
  else if let some (fence, info) := readFence? c.blanks text then
    some (.all (d.beginLeaf (.fencedCode fence info [])))
  else if let some kind := htmlKind? d.inParagraph text then
    some (.all (d.openHtml kind c))
  else
    match d.tip, readUnderline? text with
    | .leaf (.paragraph lines _), some level => some (.all (d.underline lines level c))
    | _, _ =>
      if isThematicBreak text then some (.all (d.addBlock .thematicBreak))
      else (d.openItem? depth c).or <|
        match d.tip with
        | .leaf (.paragraph lines false) => if tables then (d.openTable? lines c).map .all else none
        | .leaf (.table alignments rows) =>
          if tables && !c.isBlank then
            let row := ⟨false, padCells alignments.length (cells text)⟩
            some (.all { d with tip := .leaf (.table alignments (row :: rows)) })
          else none
        | _ => none

/-- Take a line from a place on if it begins a block there, after `depth` containers of the line. -/
def openBlocks? (tables : Bool) : (fuel : Nat) → OpenDocument → (mayGoOn : Bool) → (depth : Nat) → Cursor →
    Option OpenDocument
  | 0, _, _, _, _ => none
  | fuel + 1, d, mayGoOn, depth, c =>
    match d.openBlock? tables mayGoOn depth c with
    | none => none
    | some (.all d) => some d
    | some (.container d c) => some ((openBlocks? tables fuel d false (depth + 1) c).getD (d.addText c))

/-! ## Going on with blocks -/

/-- How many containers, from the outside in, go on in a line, and where their content begins. -/
def goOn (tipHolds : Bool) : List Frame → Cursor → Nat × Cursor
  | [], c => (0, c)
  | f :: frames, c =>
    match f.continue? (tipHolds || !frames.isEmpty) c with
    | some c =>
      let (n, c) := goOn tipHolds frames c
      (n + 1, c)
    | none => (0, c)

/-- What a line does to the block of lines that is open, where the containers of that go on. -/
inductive Continuation
  | ends
  /-- It is the block's last line, and no part of it. -/
  | closes
  /-- It may begin blocks; else it belongs to the block. -/
  | mayEnd
  | belongs (l : Leaf)

/-- What a line does to an open block of lines. -/
def continuation (c : Cursor) : Leaf → Continuation
  | .paragraph _ _ => if c.isBlank then .ends else .mayEnd
  | .indentedCode lines =>
    if 4 ≤ c.indent then .belongs (.indentedCode ((c.advance 4).line :: lines))
    else if c.isBlank then .belongs (.indentedCode (c.text.line :: lines))
    else .ends
  | .fencedCode fence info lines =>
    if c.indent ≤ 3 && fence.isClosedBy c.text.rest then .closes
    else .belongs (.fencedCode fence info ((c.skipBlanks fence.indent).line :: lines))
  | .html kind lines =>
    if kind.endsAtBlank && c.isBlank then .ends else .belongs (.html kind (c.line :: lines))
  | .table _ _ => if (cells c.text.rest).isEmpty then .ends else .mayEnd

/-- Take a line. -/
def takeLine (tables : Bool) (d : OpenDocument) (line : Cursor) : OpenDocument :=
  let holds := match d.tip with
    | .closed => false
    | _ => true
  let (n, c) := goOn holds d.frames.reverse line
  let begins (d : OpenDocument) (mayGoOn : Bool) := openBlocks? tables (c.rest.length + 1) d mayGoOn 0 c
  if n < d.frames.length then
    let closed := d.closeFrames (d.frames.length - n)
    match begins closed d.inParagraph, d.tip with
    | some d, _ => d
    | none, .leaf (.paragraph lines settled) =>
      if c.isBlank then closed else { d with tip := .leaf (.paragraph (c.line :: lines) settled) }
    | none, _ => closed.addText c
  else
    match d.tip with
    | .leaf l =>
      match continuation c l with
      | .ends => let d' := d.closeTip; (begins d' d.inParagraph).getD (d'.addText c)
      | .closes => d.closeTip
      | .mayEnd => (begins d d.inParagraph).getD (d.addText c)
      | .belongs l =>
        let d := { d with tip := .leaf l }
        match l with
        | .html kind _ => if kind.endsIn c.text.rest then d.closeTip else d
        | _ => d
    | _ => (begins d false).getD (d.addText c)

end OpenDocument

/-- The lines of a text, each ended by a line feed, a carriage return or both. A null character becomes the replacement
character. -/
def linesOf : (line : List Char) → List Char → List (List Char)
  | [], [] => []
  | line, [] => [line.reverse]
  | line, '\r' :: '\n' :: cs => line.reverse :: linesOf [] cs
  | line, c :: cs =>
    if c == '\n' || c == '\r' then line.reverse :: linesOf [] cs
    else linesOf ((if c = '\x00' then '\ufffd' else c) :: line) cs

/-- The blocks of a text, and the targets that it defines. A mark of the byte order before the first line is skipped. -/
def readBlocks (tables : Bool) (cs : List Char) : List RawBlock × References :=
  let cs := if cs.head? == some '\ufeff' then cs.drop 1 else cs
  ((linesOf [] cs).foldl (fun (d : OpenDocument) line => d.takeLine tables { rest := line }) {}).close

end FlowDoc.Markdown
