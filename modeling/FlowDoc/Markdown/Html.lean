import FlowDoc.Text.Space
import FlowDoc.Markdown.Character

/-!
# Markup in Markdown

The constructs of markup that stand for themselves: tags, comments, declarations, processing instructions and sections
of character data. A scanner reads one from the beginning of a text and returns what follows it.
-/

namespace FlowDoc.Markdown

/-! ## Tags -/

/-- What follows the attributes of a tag. -/
def closeOpening? (cs : List Char) : Option (List Char) :=
  match cs.dropWhile isWhite with
  | '>' :: rest => some rest
  | '/' :: '>' :: rest => some rest
  | _ => none

/-- Read the name of a tag. -/
def readTagName? : List Char → Option (List Char × List Char)
  | [] => none
  | c :: rest =>
    let isNamePart (c : Char) := c.isAlphanum || c == '-'
    if c.isAlpha then some (c :: rest.takeWhile isNamePart, rest.dropWhile isNamePart) else none

/-- Skip the value of an attribute after its equals sign. -/
def skipValue? (cs : List Char) : Option (List Char) :=
  match cs.dropWhile isWhite with
  | '"' :: rest => (rest.dropWhile (· != '"')).tail?
  | '\'' :: rest => (rest.dropWhile (· != '\'')).tail?
  | rest =>
    let isPart (c : Char) := !isWhite c && !(['"', '\'', '=', '<', '>', '`'].contains c)
    if (rest.head?.map isPart).getD false then some (rest.dropWhile isPart) else none

/-- Skip an attribute with the white space before it. -/
def skipAttribute? (cs : List Char) : Option (List Char) :=
  match cs.dropWhile isWhite with
  | [] => none
  | c :: rest =>
    if (cs.head?.map isWhite).getD false && (c.isAlpha || c == '_' || c == ':') then
      let rest := rest.dropWhile fun c => c.isAlphanum || [':', '.', '_', '-'].contains c
      match rest.dropWhile isWhite with
      | '=' :: value => skipValue? value
      | _ => some rest
    else none

/-- Skip attributes, of which there are at most `fuel`, and the end of the tag. -/
def skipAttributes? : (fuel : Nat) → List Char → Option (List Char)
  | 0, cs => closeOpening? cs
  | fuel + 1, cs =>
    match closeOpening? cs with
    | some rest => some rest
    | none => (skipAttribute? cs).bind (skipAttributes? fuel)

/-- Skip a tag after its angle bracket. -/
def skipTag? : List Char → Option (List Char)
  | '/' :: cs => do
    let (_, rest) ← readTagName? cs
    match rest.dropWhile isWhite with
    | '>' :: rest => some rest
    | _ => none
  | cs => do
    let (_, rest) ← readTagName? cs
    skipAttributes? rest.length rest

/-! ## Other constructs -/

/-- Skip a comment after its opening, `<!--`. Two hyphens are taken with the character after them. -/
def skipComment? : List Char → Option (List Char)
  | [] => none
  | '-' :: '-' :: '>' :: rest => some rest
  | '-' :: '-' :: _ :: rest => skipComment? rest
  | '-' :: c :: rest => if c == '-' then none else skipComment? rest
  | _ :: rest => skipComment? rest

/-- Skip character data after its opening, `<![CDATA[`. -/
def skipCharacterData? : List Char → Option (List Char)
  | [] => none
  | ']' :: ']' :: '>' :: rest => some rest
  | ']' :: ']' :: _ :: rest => skipCharacterData? rest
  | ']' :: c :: rest => if c == ']' then none else skipCharacterData? rest
  | _ :: rest => skipCharacterData? rest

/-- Skip a processing instruction after its opening, `<?`. A question mark is taken with the character after it. -/
def skipInstruction? : List Char → Option (List Char)
  | [] => none
  | '?' :: '>' :: rest => some rest
  | '?' :: _ :: rest => skipInstruction? rest
  | _ :: rest => skipInstruction? rest

/-- Skip a declaration after its opening, `<!`: a name in capitals, and white space after it. -/
def skipDeclaration? (cs : List Char) : Option (List Char) :=
  let rest := cs.dropWhile Char.isUpper
  if rest.length < cs.length && (rest.head?.map isWhite).getD false then (rest.dropWhile (· != '>')).tail? else none

/-- Skip the letters that open character data, whatever their case. -/
def skipDataOpening? (cs : List Char) : Option (List Char) :=
  if (cs.take 6).map Char.toUpper == "CDATA[".toList then some (cs.drop 6) else none

/-! ## Blocks -/

/-- The kinds of a block of markup. The last two end at a blank line, the others with a mark of their own. -/
inductive HtmlKind
  /-- An element whose text is no markup, such as a script. -/
  | verbatim
  | comment
  | instruction
  | declaration
  | characterData
  /-- An element that is a block. -/
  | element
  /-- Any other tag, alone in its line. -/
  | tag
  deriving DecidableEq

/-- The elements whose text is no markup. -/
def verbatimElements : List String := ["script", "pre", "textarea", "style"]

/-- The elements that are blocks. -/
def blockElements : List String := [
  "address", "article", "aside", "base", "basefont", "blockquote", "body", "caption", "center", "col", "colgroup", "dd",
  "details", "dialog", "dir", "div", "dl", "dt", "fieldset", "figcaption", "figure", "footer", "form", "frame",
  "frameset", "h1", "h2", "h3", "h4", "h5", "h6", "head", "header", "hr", "html", "iframe", "legend", "li", "link",
  "main", "menu", "menuitem", "nav", "noframes", "ol", "optgroup", "option", "p", "param", "search", "section",
  "summary", "table", "tbody", "td", "tfoot", "th", "thead", "title", "tr", "track", "ul"]

/-- Whether a name is one of some elements, whatever its case. -/
def isNameIn (names : List String) (name : List Char) : Bool :=
  names.contains (String.ofList (name.map Char.toLower))

/-- Whether a text is at its end, at white space or at one of some continuations. -/
def endsName (continuations : List String) (cs : List Char) : Bool :=
  (cs.head?.map isWhite).getD true || continuations.any fun s => s.toList.isPrefixOf cs

/-- The kind of the block that a line begins. A lone tag begins none within a paragraph. -/
def htmlKind? (inParagraph : Bool) (line : List Char) : Option HtmlKind :=
  match line with
  | '<' :: '!' :: '-' :: '-' :: _ => some .comment
  | '<' :: '?' :: _ => some .instruction
  | '<' :: '!' :: cs =>
    if (cs.head?.map Char.isUpper).getD false then some .declaration
    else if cs.head? == some '[' && (skipDataOpening? (cs.drop 1)).isSome then some .characterData
    else none
  | '<' :: cs =>
    match readTagName? cs with
    | some (name, rest) =>
      if isNameIn verbatimElements name && endsName [">"] rest then some .verbatim
      else if isNameIn blockElements name && endsName [">", "/>"] rest then some .element
      else lone cs
    | none =>
      match cs with
      | '/' :: closing =>
        match readTagName? closing with
        | some (name, rest) =>
          if isNameIn blockElements name && endsName [">", "/>"] rest then some .element else lone cs
        | none => none
      | _ => none
  | _ => none
where
  /-- A tag that only blanks and form feeds follow. -/
  lone (cs : List Char) : Option HtmlKind :=
    match skipTag? cs with
    | some rest => if !inParagraph && rest.all (fun c => isBlank c || c == '\x0c') then some .tag else none
    | none => none

/-- Whether `mark` occurs in a text. -/
def occurs (mark : List Char) : List Char → Bool
  | [] => mark.isEmpty
  | c :: cs => mark.isPrefixOf (c :: cs) || occurs mark cs

namespace HtmlKind

/-- Whether a blank line ends a block. -/
def endsAtBlank : HtmlKind → Bool
  | element => true
  | tag => true
  | _ => false

/-- Whether a line ends a block, which it belongs to. -/
def endsIn (line : List Char) : HtmlKind → Bool
  | verbatim => verbatimElements.any fun name => occurs ("</" ++ name ++ ">").toList (line.map Char.toLower)
  | comment => occurs "-->".toList line
  | instruction => occurs "?>".toList line
  | declaration => occurs ">".toList line
  | characterData => occurs "]]>".toList line
  | element => false
  | tag => false

end HtmlKind

end FlowDoc.Markdown
