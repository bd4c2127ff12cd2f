import FlowDoc.Uri.Host
import FlowDoc.Uri.Path
import FlowDoc.Text.Space

/-!
# Addresses

An address in parts, its text, and how a text is read, alone or relative to a base address. Control characters and
spaces around the text and line breaks and tabs inside it are ignored.
-/

namespace FlowDoc.Uri

/-- Credentials (with their final `@`, if any), host and port. -/
structure Authority where
  credentials : List Char := []
  host : String := ""
  port : Option Nat := none
  deriving DecidableEq

/-- An address in parts. -/
structure Address where
  scheme : String
  authority : Option Authority := none
  path : List Char := []
  query : Option (List Char) := none
  fragment : Option (List Char) := none
  deriving DecidableEq

namespace Address

def kind (a : Address) : SchemeKind := SchemeKind.ofName a.scheme

/-- Whether the path is no list of segments, so that nothing is relative to the address. -/
def isOpaque (a : Address) : Bool := a.authority.isNone && a.path.head? != some '/'

end Address

def Authority.text (a : Authority) : List Char :=
  '/' :: '/' :: a.credentials ++ a.host.toList ++ (match a.port with
    | some p => ':' :: Nat.toDigits 10 p
    | none => [])

/-- A mark and the part after it, if there is one. -/
def markedPart (mark : Char) : Option (List Char) → List Char
  | some part => mark :: part
  | none => []

/-- The text of an address. A path that begins with two slashes would read as a host, so a dot comes before it. -/
def Address.toChars (a : Address) : List Char :=
  a.scheme.toList ++ ':' ::
    (match a.authority with
      | some authority => authority.text ++ a.path
      | none => if a.path.take 2 == ['/', '/'] then '/' :: '.' :: a.path else a.path) ++
    markedPart '?' a.query ++ markedPart '#' a.fragment

def Address.toString (a : Address) : String := String.ofList a.toChars

/-! ## Reading -/

/-- A text without the characters that are ignored. -/
def significant (s : String) : List Char :=
  (Text.trim (fun c => c.toNat ≤ 0x20) s.toList).filter fun c => !(c == '\t' || c == '\n' || c == '\r')

/-- The scheme at the start of a text, in lower case, and what follows its colon. -/
def readScheme? (cs : List Char) : Option (String × List Char) :=
  let isSchemeChar (c : Char) := c.isAlphanum || c == '+' || c == '-' || c == '.'
  match cs.dropWhile isSchemeChar with
  | ':' :: rest =>
    if cs.head?.any Char.isAlpha then some (String.ofList ((cs.takeWhile isSchemeChar).map Char.toLower), rest)
    else none
  | _ => none

/-- A text cut before its first `?` or `#`. -/
def spanPath (cs : List Char) : List Char × List Char := cs.span fun c => c != '?' && c != '#'

/-- Query and fragment of the rest of a text. -/
def readTail (kind : SchemeKind) (cs : List Char) : Option (List Char) × Option (List Char) :=
  let fragment : List Char → Option (List Char)
    | '#' :: f => some (encode inFragment f)
    | _ => none
  match cs with
  | '?' :: q =>
    let (q, rest) := q.span (· != '#')
    (some (encode (if kind.isSpecial then inSpecialQuery else inQuery) q), fragment rest)
  | cs => (none, fragment cs)

/-- An address with the query and fragment of the rest of a text. -/
def Address.withTail (a : Address) (rest : List Char) : Address :=
  let (query, fragment) := readTail a.kind rest
  { a with query, fragment }

/-- The port a scheme has without saying so. -/
def defaultPort? : String → Option Nat
  | "http" | "ws" => some 80
  | "https" | "wss" => some 443
  | "ftp" => some 21
  | _ => none

/-- The port after a colon, and the rest. -/
def readPort (scheme : String) (cs : List Char) : Except UriFault (Option Nat × List Char) :=
  let digits := cs.takeWhile Char.isDigit
  let rest := cs.dropWhile Char.isDigit
  let port := (digitsValue? 10 digits).getD 0
  if 65535 < port || rest.head?.any (fun c => !(['/', '\\', '?', '#'].contains c)) then .error .invalidPort
  else .ok (if digits.isEmpty || some port = defaultPort? scheme then none else some port, rest)

/-- Credentials with their final `@`; an empty password is left out, and empty credentials altogether. -/
def encodeCredentials (cs : List Char) : List Char :=
  let (user, rest) := cs.span (· != ':')
  let user := encode inUserinfo user
  let password := match rest.drop 1 with
    | [] => []
    | p => ':' :: encode inUserinfo p
  if user.isEmpty && password.isEmpty then [] else user ++ password ++ ['@']

/-- The characters of an authority before its host and after its last `@`, if there is one. -/
def splitCredentials (authority : List Char) : Option (List Char × List Char) :=
  if authority.contains '@' then
    let host := (authority.reverse.takeWhile (· != '@')).reverse
    some (authority.take (authority.length - host.length - 1), host)
  else none

/-- A host and what follows it: a colon ends it outside brackets. -/
def spanHost (inBrackets : Bool) : List Char → List Char × List Char
  | [] => ([], [])
  | c :: cs =>
    if c == ':' && !inBrackets then ([], c :: cs)
    else
      let (host, rest) := spanHost (if c == '[' then true else if c == ']' then false else inBrackets) cs
      (c :: host, rest)

/-- Host and port of an authority, and what follows them in it. -/
def readHost [Domains] (scheme : String) (cs : List Char) : Except UriFault (String × Option Nat × List Char) := do
  let kind := SchemeKind.ofName scheme
  let (host, rest) := spanHost false cs
  if host.isEmpty && (kind.isSpecial || !rest.isEmpty) then throw .emptyHost
  let host ← if kind.isSpecial then parseDomain host else parseOpaqueHost host
  match rest with
  | _ :: digits => do
    let (port, rest) ← readPort scheme digits
    return (host, port, rest)
  | [] => return (host, none, [])

/-- The path after an authority. -/
def pathAfterAuthority (kind : SchemeKind) (cs : List Char) : List Char :=
  match cs with
  | [] => if kind.isSpecial then ['/'] else []
  | c :: rest => readPath kind ['/'] (if kind.isSlash c then rest else cs)

/-- The address whose authority begins here. -/
def readAuthority [Domains] (scheme : String) (cs : List Char) : Except UriFault Address := do
  let kind := SchemeKind.ofName scheme
  let ends (c : Char) := kind.isSlash c || c == '?' || c == '#'
  let authority := cs.takeWhile fun c => !ends c
  let rest := cs.dropWhile fun c => !ends c
  let (credentials, host) := (splitCredentials authority).getD ([], authority)
  if authority == ['@'] && !rest.isEmpty then throw .emptyHost
  let credentials := encodeCredentials credentials
  let (host, port, more) ← readHost scheme host
  if host.isEmpty && !credentials.isEmpty then throw .emptyHost
  let (path, tail) := spanPath (more ++ rest)
  return { scheme, authority := some { credentials, host, port }, path := pathAfterAuthority kind path : Address }.withTail
    tail

/-- The address of a scheme that is not well known. -/
def readOther [Domains] (scheme : String) (cs : List Char) : Except UriFault Address :=
  match cs with
  | '/' :: '/' :: rest => readAuthority scheme rest
  | '/' :: rest =>
    let (path, tail) := spanPath rest
    .ok ({ scheme, path := readPath .other ['/'] path : Address }.withTail tail)
  | _ =>
    let (path, tail) := spanPath cs
    .ok ({ scheme, path := encode inControls path : Address }.withTail tail)

/-- The base address without what comes after its path. -/
def Address.bare (a : Address) : Address := { a with query := none, fragment := none }

/-- The host of a file address: none for the machine itself. -/
def readFileHost [Domains] (cs : List Char) : Except UriFault String :=
  if cs.isEmpty then .ok ""
  else (parseDomain cs).map fun h => if h == "localhost" then "" else h

/-- The address of a file after two slashes. A drive letter is no host, and a path with one has none. -/
def readFileAuthority [Domains] (cs : List Char) : Except UriFault Address := do
  let ends (c : Char) := c == '/' || c == '\\' || c == '?' || c == '#'
  let host := cs.takeWhile fun c => !ends c
  let (host, rest) ←
    if isDriveLetter host then pure ("", cs) else (readFileHost host).map fun h => (h, cs.dropWhile fun c => !ends c)
  let (path, tail) := spanPath rest
  let path := readPath .file ['/'] (if path.head?.any (SchemeKind.isSlash .file) then path.drop 1 else path)
  let host := if holdsDrive path then "" else host
  return { scheme := "file", authority := some { host }, path : Address }.withTail tail

/-- The address of a file, relative to that of another. -/
def readFile [Domains] (base? : Option Address) (cs : List Char) : Except UriFault Address :=
  let root : Address := { scheme := "file", authority := some {} }
  let slash (c : Char) := c == '/' || c == '\\'
  match cs with
  | a :: b :: rest =>
    if slash a && slash b then readFileAuthority rest else readFilePath root cs
  | _ => readFilePath root cs
where
  /-- The address of a file of which only the path is given. -/
  readFilePath (root : Address) (cs : List Char) : Except UriFault Address :=
    let (path, tail) := spanPath cs
    match base?, cs.head? with
    | some base, none => .ok { base with fragment := none }
    | some base, some '?' => .ok (base.bare.withTail cs)
    | some base, some '#' => .ok { base with fragment := (readTail .file cs).2 }
    | some base, some c =>
      if c == '/' || c == '\\' then
        let first := (base.path.drop 1).takeWhile (· != '/')
        if startsWithDrive (cs.drop 1) then .ok ({ root with path := readPath .file [] path }.withTail tail)
        else if isNormalizedDrive first then
          .ok ({ root with path := readPath .file ('/' :: first) path }.withTail tail)
        else .ok ({ root with authority := base.authority, path := readPath .file [] path }.withTail tail)
      else if startsWithDrive cs then .ok ({ root with path := readPath .file ['/'] path }.withTail tail)
      else .ok ({ base.bare with path := readPath .file (dropSegment .file base.path) path }.withTail tail)
    | none, some c =>
      .ok ({ root with path := readPath .file (if slash c then [] else ['/']) path }.withTail tail)
    | none, none => .ok { root with path := ['/'] }
  slash (c : Char) : Bool := c == '/' || c == '\\'

/-- The address that a text without a scheme names relative to a base that is no file. -/
def readRelative [Domains] (base : Address) (cs : List Char) : Except UriFault Address :=
  let kind := base.kind
  let slash (c : Char) := c == '/' || c == '\\'
  let (path, tail) := spanPath cs
  match cs with
  | [] => .ok { base with fragment := none }
  | '?' :: _ => .ok (base.bare.withTail cs)
  | '#' :: _ => .ok { base with fragment := (readTail kind cs).2 }
  | c :: rest =>
    if slash c then
      if rest.head?.any slash then
        readAuthority base.scheme (if cs.take 2 == ['/', '/'] then cs.drop 2 else cs.dropWhile slash)
      else .ok ({ base.bare with path := readPath kind ['/'] (path.drop 1) }.withTail tail)
    else
      let kept := dropSegment kind base.path
      .ok ({ base.bare with path := readPath kind (if kept.isEmpty then ['/'] else kept) path }.withTail tail)

/-- Read a text, relative to a base if it has no scheme of its own. -/
def read [Domains] (base? : Option Address) (s : String) : Except UriFault Address :=
  let cs := significant s
  match readScheme? cs with
  | some (scheme, rest) =>
    match SchemeKind.ofName scheme with
    | .file => readFile (base?.filter (·.scheme == "file")) rest
    | .special =>
      let slashes := rest.takeWhile fun c => c == '/' || c == '\\'
      match base? with
      | some base =>
        if slashes.length < 2 && base.scheme == scheme then readRelative base rest
        else readAuthority scheme (rest.drop slashes.length)
      | none => readAuthority scheme (rest.drop slashes.length)
    | .other => readOther scheme rest
  | none =>
    match base? with
    | none => .error .relativeWithoutBase
    | some base =>
      if cs.head? == some '#' then .ok { base with fragment := (readTail base.kind cs).2 }
      else if base.isOpaque then .error .relativeWithOpaqueBase
      else if base.kind = .file then readFile (some base) cs
      else readRelative base cs

/-- Read a text that stands alone. -/
def parse [Domains] (s : String) : Except UriFault Address := read none s

/-- Read a text relative to a base. -/
def Address.join [Domains] (base : Address) (s : String) : Except UriFault Address := read (some base) s

end FlowDoc.Uri
