import FlowDoc.Xml.Name
import FlowDoc.Uri.Percent

/-!
# Tokens of markup

The tags and texts of a fragment, in order, with references decoded and line ends normalised. Comments and processing
instructions leave no token, and a marked section is text. A text that is not well-formed has no tokens.
-/

namespace FlowDoc.Xml

/-- A tag or a text. -/
inductive Token
  | text (s : String)
  /-- A start tag, with its attributes as written; `closed` if it is an empty-element tag. -/
  | opening (name : QName) (attributes : List (QName × String)) (closed : Bool)
  | closing (name : QName)
  deriving DecidableEq

/-! ## References -/

/-- The number that digits of a base spell, if there are any. -/
def readNumber? (base : Nat) (ds : List Char) : Option Nat :=
  if ds.isEmpty then none
  else ds.foldlM (fun n c => (Uri.hexValue? c).bind fun d => if d < base then some (base * n + d) else none) 0

/-- The character of a predefined entity. -/
def entity? (name : List Char) : Option Char :=
  match String.ofList name with
  | "quot" => some '"'
  | "amp" => some '&'
  | "apos" => some '\''
  | "lt" => some '<'
  | "gt" => some '>'
  | _ => none

/-- The character that a number stands for; a number that is none stands for the replacement character. -/
def charOfNumber? (n : Nat) : Option Char :=
  if 0xFFFFFFFF < n then none
  else
    let c := if h : n.isValidChar then Char.ofNatAux n h else '\uFFFD'
    if isChar c then some c else none

/-- The character of a reference, from after its ampersand on, and what follows it. -/
def readReference? (cs : List Char) : Option (Char × List Char) :=
  let body := cs.takeWhile (· != ';')
  match cs.dropWhile (· != ';') with
  | _ :: rest =>
    let c? := match body with
      | '#' :: 'x' :: ds => (readNumber? 16 ds).bind charOfNumber?
      | '#' :: ds => (readNumber? 10 ds).bind charOfNumber?
      | name => entity? name
    c?.map fun c => (c, rest)
  | [] => none

/-- Line ends as line feeds: a carriage return is one, with a line feed after it or without. -/
def normalizeLines : List Char → List Char
  | '\r' :: '\n' :: rest => '\n' :: normalizeLines rest
  | '\r' :: rest => '\n' :: normalizeLines rest
  | c :: rest => c :: normalizeLines rest
  | [] => []

/-- Decode the references of a value; `fuel` bounds its length. -/
def decodeValue : (fuel : Nat) → List Char → Option (List Char)
  | _, [] => some []
  | 0, _ :: _ => none
  | fuel + 1, '&' :: rest => do
    let (c, rest) ← readReference? rest
    return c :: (← decodeValue fuel rest)
  | fuel + 1, c :: rest => (decodeValue fuel rest).map (c :: ·)

/-- Decode the value of an attribute: line ends and tabs as they stand are spaces. -/
def decodeAttribute (cs : List Char) : Option (List Char) :=
  let blank (c : Char) := if c == '\n' || c == '\t' then ' ' else c
  decodeValue cs.length ((normalizeLines cs).map blank)

/-- Add a character to the characters before it, which are in reverse. A carriage return becomes a line feed when the
character after it, which may be that line feed, or the end of the text is reached. -/
def pushNormalized (before : List Char) (c : Char) (atEnd : Bool) : List Char :=
  let c' := if atEnd && c == '\r' then '\n' else c
  match before with
  | '\r' :: before => if c == '\n' then '\n' :: before else c' :: '\n' :: before
  | before => c' :: before

/-- Decode the references of a text and normalise its line ends, after characters in reverse. What a reference stands
for and, if `plain`, the character after it are taken as they are. `fuel` bounds the length of the text. -/
def decodeText : (fuel : Nat) → (plain : Bool) → (before : List Char) → List Char → Option (List Char)
  | _, _, before, [] => some before.reverse
  | 0, _, _, _ :: _ => none
  | fuel + 1, _, before, '&' :: rest => do
    let (c, rest) ← readReference? rest
    decodeText fuel true (c :: before) rest
  | fuel + 1, plain, before, c :: rest =>
    decodeText fuel false (if plain then c :: before else pushNormalized before c rest.isEmpty) rest

/-! ## Tags -/

def skipSpaces (cs : List Char) : List Char := cs.dropWhile Text.isMarkupSpace

/-- The text before `mark` and what follows it. -/
def splitAt? (mark : List Char) : List Char → Option (List Char × List Char)
  | [] => none
  | c :: cs =>
    match Text.stripPrefix? mark (c :: cs) with
    | some rest => some ([], rest)
    | none => (splitAt? mark cs).map fun (before, rest) => (c :: before, rest)

/-- Read an attribute. -/
def readAttribute? (cs : List Char) : Option ((QName × String) × List Char) := do
  let (name, rest) ← readQName? cs
  let rest ← Text.stripPrefix? ['='] (skipSpaces rest)
  match skipSpaces rest with
  | quote :: rest =>
    if quote != '"' && quote != '\'' then none
    else
      let value := rest.takeWhile (· != quote)
      if value.contains '<' || !value.all isChar then none
      else
        let rest ← Text.stripPrefix? [quote] (rest.dropWhile (· != quote))
        return ((name, String.ofList (← decodeAttribute value)), rest)
  | [] => none

/-- Read the attributes of a tag and its end; `fuel` bounds their number. -/
def readTag? : (fuel : Nat) → List Char → Option (List (QName × String) × Bool × List Char)
  | 0, _ => none
  | fuel + 1, cs =>
    match skipSpaces cs with
    | '>' :: rest => some ([], false, rest)
    | '/' :: '>' :: rest => some ([], true, rest)
    | rest =>
      if cs.head?.any Text.isMarkupSpace then do
        let (a, rest) ← readAttribute? rest
        let (attributes, closed, rest) ← readTag? fuel rest
        return (a :: attributes, closed, rest)
      else none

/-- Whether a text ends a marked section, which it may not outside one. -/
def holdsSectionEnd (cs : List Char) : Bool := (splitAt? "]]>".toList cs).isSome

/-- Whether a text may stand in a comment. -/
def isComment (cs : List Char) : Bool :=
  cs.all isChar && (splitAt? ['-', '-'] cs).isNone && cs.getLast? != some '-'

/-- Whether a text may stand in an instruction: it begins with a name, which may hold colons, and is no declaration. -/
def isInstruction (cs : List Char) : Bool :=
  cs.all isChar && cs.head?.any (fun c => isNameStart c || c == ':') && (Text.stripPrefix? "xml ".toList cs).isNone

/-- What a text begins with, and what follows it: a token, or a comment or an instruction, which is none. -/
def readToken? (cs : List Char) : Option (Option Token × List Char) :=
  match cs with
  | '<' :: '!' :: '-' :: '-' :: rest => do
    let (comment, rest) ← splitAt? "-->".toList rest
    if isComment comment then return (none, rest) else none
  | '<' :: '!' :: rest => do
    let rest ← Text.stripPrefix? "[CDATA[".toList rest
    let (section_, rest) ← splitAt? "]]>".toList rest
    if section_.all isChar then return (some (.text (String.ofList (normalizeLines section_))), rest) else none
  | '<' :: '?' :: rest => do
    let (instruction, rest) ← splitAt? ['?', '>'] rest
    if isInstruction instruction then return (none, rest) else none
  | '<' :: '/' :: rest => do
    let (name, rest) ← readQName? rest
    let rest ← Text.stripPrefix? ['>'] (skipSpaces rest)
    return (some (.closing name), rest)
  | '<' :: rest => do
    let (name, rest) ← readQName? rest
    let (attributes, closed, rest) ← readTag? (rest.length + 1) rest
    return (some (.opening name attributes closed), rest)
  | cs =>
    let text := cs.takeWhile (· != '<')
    if text.all isChar && !holdsSectionEnd text then do
      let decoded ← decodeText text.length false [] text
      return (some (.text (String.ofList decoded)), cs.dropWhile (· != '<'))
    else none

/-- The tokens of a text; `fuel` bounds their number. -/
def tokensFrom : (fuel : Nat) → List Char → Option (List Token)
  | _, [] => some []
  | 0, _ :: _ => none
  | fuel + 1, c :: cs => do
    let (token?, rest) ← readToken? (c :: cs)
    return token?.toList ++ (← tokensFrom fuel rest)

/-- The tokens of a text. -/
def tokens (s : String) : Option (List Token) := tokensFrom s.toList.length s.toList

end FlowDoc.Xml
