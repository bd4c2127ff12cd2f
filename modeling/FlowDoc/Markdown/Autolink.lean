import FlowDoc.Text.Punctuation
import FlowDoc.Text.Space
import FlowDoc.Markdown.Character
import FlowDoc.Markdown.Syntax

/-!
# Links without brackets

Addresses that are links as they stand: those in angle brackets (`readPointedUri?`, `readPointedMail?`), those that begin
with a scheme or with `www.` (`addressAfterColon?`, `addressFromWww?`), and mail addresses (`splitMail`). What a sentence
puts behind an address, such as a full stop, is no part of it.
-/

namespace FlowDoc.Markdown

/-- Whether a text begins with another. -/
def startsWith (s : String) (cs : List Char) : Bool := s.toList.isPrefixOf cs

/-- A link that shows its own text. -/
def linkOf (url text : List Char) : Inline := .link ⟨String.ofList url, ""⟩ [.text (String.ofList text)]

/-! ## In angle brackets -/

/-- Read an address with a scheme, up to and with the closing bracket. -/
def readPointedUri? (cs : List Char) : Option (List Char × List Char) :=
  let isSchemePart (c : Char) := c.isAlphanum || ['.', '+', '-'].contains c
  let scheme := cs.takeWhile isSchemePart
  match cs.drop scheme.length with
  | ':' :: rest =>
    let isPart (c : Char) := !(c.toNat ≤ 32 || c == '<' || c == '>')
    let path := rest.takeWhile isPart
    match rest.drop path.length with
    | '>' :: after =>
      if (scheme.head?.map Char.isAlpha).getD false && 2 ≤ scheme.length && scheme.length ≤ 32 then
        some (scheme ++ ':' :: path, after)
      else none
    | _ => none
  | _ => none

/-- Whether a text is a label of a host name in a mail address. -/
def isMailLabel (label : List Char) : Bool :=
  label.all (fun c => c.isAlphanum || c == '-') && 1 ≤ label.length && label.length ≤ 63 &&
    label.head? != some '-' && label.getLast? != some '-'

/-- Read a mail address, up to and with the closing bracket. -/
def readPointedMail? (cs : List Char) : Option (List Char × List Char) :=
  let isUserPart (c : Char) := c.isAlphanum || ".!#$%&'*+/=?^_`\x7b|\x7d~-".toList.contains c
  let user := cs.takeWhile isUserPart
  match cs.drop user.length with
  | '@' :: rest =>
    let host := rest.takeWhile fun c => c.isAlphanum || c == '-' || c == '.'
    match rest.drop host.length with
    | '>' :: after =>
      if !user.isEmpty && (host.splitOn '.').all isMailLabel then some (user ++ '@' :: host, after) else none
    | _ => none
  | _ => none

/-! ## In running text -/

/-- Whether a character may stand in a host name, besides the hyphen, the full stop and the underscore. -/
def isHostChar (c : Char) : Bool := !Text.isSpace c && !Text.isPunctuation c

/-- The counts of a host name that is read in part: its full stops, and the underscores in its last two labels. -/
structure HostCounts where
  stops : Nat := 0
  before : Nat := 0
  last : Nat := 0

/-- Whether the text begins with a host name. It may have no underscore in its last two labels, unless the text is the
name and has many labels; one without a full stop is a host name only if `short` names are. -/
def beginsWithHost (short : Bool) : HostCounts → List Char → Bool
  | n, [] => if (0 < n.before || 0 < n.last) && n.stops ≤ 10 then false else short || 0 < n.stops
  | n, c :: cs =>
    if c == '\\' && !cs.isEmpty then beginsWithHost short n cs
    else if c == '_' then beginsWithHost short { n with last := n.last + 1 } cs
    else if c == '.' then beginsWithHost short ⟨n.stops + 1, n.last, 0⟩ cs
    else if isHostChar c || c == '-' then beginsWithHost short n cs
    else n.before = 0 && n.last = 0 && (short || 0 < n.stops)

/-- Drop what ends a text, in reverse, but no address: punctuation, a reference to a character, and a parenthesis that
none opens. -/
def dropAfterAddress : (fuel : Nat) → List Char → List Char
  | 0, cs => cs
  | _, [] => []
  | fuel + 1, c :: cs =>
    if "?!.,:*_~'\"[".toList.contains c then dropAfterAddress fuel cs
    else if c == ';' then
      let name := cs.takeWhile Char.isAlpha
      match cs.drop name.length with
      | '&' :: before => dropAfterAddress fuel (if name.isEmpty then cs else before)
      | _ => dropAfterAddress fuel cs
    else if c == ')' && (c :: cs).count '(' < (c :: cs).count ')' then dropAfterAddress fuel cs
    else c :: cs

/-- The address that a text begins with, of which it may hold more than that. -/
def addressIn (cs : List Char) : List Char :=
  let cs := cs.takeWhile (· != '<')
  (dropAfterAddress cs.length cs.reverse).reverse

/-- The schemes of addresses in running text. -/
def plainSchemes : List String := ["http", "https", "ftp"]

/-- The address around a colon: the scheme before it, and the text from the colon on. -/
def addressAfterColon? (seen rest : List Char) : Option (List Char × List Char) :=
  let scheme := (seen.takeWhile Char.isAlpha).reverse
  if startsWith "://" rest && 4 ≤ rest.length && plainSchemes.contains (String.ofList scheme)
      && beginsWithHost true {} (rest.drop 3) then
    some (scheme, addressIn (rest.takeWhile (!isGap ·)))
  else none

/-- The address that begins with `www.`. -/
def addressFromWww? (seen rest : List Char) : Option (List Char) :=
  let free := match seen with
    | [] => true
    | c :: _ => isGap c || "*_~([".toList.contains c
  if free && startsWith "www." rest && beginsWithHost false {} rest then
    some (addressIn (rest.takeWhile (!isGap ·)))
  else none

/-! ## Mail -/

/-- Whether the letters before a colon, in reverse, are the name of a scheme. -/
def endsWithScheme (scheme : String) (seen : List Char) : Bool :=
  (seen.takeWhile Char.isAlpha).reverse == scheme.toList

/-- The scheme that is written before a mail address. -/
inductive MailScheme
  | none
  | mailto
  | xmpp
  deriving DecidableEq

/-- The user of a mail address before its at sign, with the scheme before it. The text before the sign is in reverse. -/
def mailUser : MailScheme → (seen : List Char) → MailScheme × List Char
  | scheme, [] => (scheme, [])
  | scheme, c :: seen =>
    if c.isAlphanum || ".+-_".toList.contains c then
      let (scheme, user) := mailUser scheme seen
      (scheme, user ++ [c])
    else if c == ':' && endsWithScheme "mailto" seen then
      let (scheme, user) := mailUser (if scheme = .xmpp then .xmpp else .mailto) seen
      (scheme, user ++ [c])
    else if c == ':' && endsWithScheme "xmpp" seen then
      let (scheme, user) := mailUser .xmpp seen
      (scheme, user ++ [c])
    else (scheme, [])

/-- The host of a mail address after its at sign: `none` if another such sign ends it. -/
def mailHost? (slashes : Bool) : List Char → Option (List Char)
  | [] => some []
  | c :: cs =>
    if c == '@' then none
    else if c.isAlphanum || (c == '.' && (cs.head?.map Char.isAlphanum).getD false) || (c == '/' && slashes)
        || c == '-' || c == '_' then
      (mailHost? slashes cs).map (c :: ·)
    else some []

/-- The mail address around an at sign: its link, how much of the text before the sign it takes, and what follows. -/
def mailAt? (seen rest : List Char) : Option (Inline × Nat × List Char) := do
  let (scheme, user) := mailUser .none seen
  if user.isEmpty then none
  let host ← mailHost? (scheme = .xmpp) (rest.drop 1)
  if !host.contains '.' || !((host.getLast?.map fun c => c.isAlpha || c == '.').getD false) then none
  let address := addressIn ('@' :: host)
  if address.isEmpty then none
  let text := user ++ address
  let url := if scheme = .none then "mailto:".toList ++ text else text
  return (linkOf url text, user.length, rest.drop address.length)

/-- The first mail address of a text that is not inside `depth` brackets: the text before it, its link, and the text
after it. -/
def findMail? : (depth : Int) → (seen : List Char) → List Char → Option (List Char × Inline × List Char)
  | _, _, [] => none
  | depth, seen, c :: cs =>
    let depth := if c == '[' then depth + 1 else if c == ']' then depth - 1 else depth
    match if depth ≤ 0 && c == '@' then mailAt? seen (c :: cs) else none with
    | some (link, length, rest) => some ((seen.drop length).reverse, link, rest)
    | none => findMail? depth (c :: seen) cs

/-- Split a text at its mail addresses, of which there are at most `fuel`. No text follows a last address. -/
def splitMail : (fuel : Nat) → List Char → List Inline
  | 0, cs => [.text (String.ofList cs)]
  | fuel + 1, cs =>
    match findMail? 0 [] cs with
    | some (before, link, rest) =>
      .text (String.ofList before) :: link :: if rest.isEmpty then [] else splitMail fuel rest
    | none => [.text (String.ofList cs)]

end FlowDoc.Markdown
