import FlowDoc.RenderError
import FlowDoc.Uri.Percent

/-!
# Hosts

The host of an address with a well-known scheme is a domain in ASCII, an IPv4 address if its last label is a number, or
an IPv6 address in brackets. Any other scheme takes its host as it is, as long as no reserved character occurs in it.

How an international domain is mapped to ASCII is a matter of large tables, which are not part of this library: whatever
reads a host is parametric in the mapping (`Domains`).
-/

namespace FlowDoc.Uri

/-! ## IPv4 -/

/-- The number that the digits of a base spell, if each is one. -/
def digitsValue? (base : Nat) : List Char → Option Nat :=
  List.foldlM (fun n c => (hexValue? c).bind fun d => if d < base then some (base * n + d) else none) 0

/-- A label as a number, in the base its first characters announce. -/
def ipv4Number? : List Char → Option Nat
  | [] => none
  | '0' :: x :: rest => if x == 'x' || x == 'X' then digitsValue? 16 rest else digitsValue? 8 (x :: rest)
  | cs => digitsValue? 10 cs

/-- The labels of a domain, without the empty one after a final point. -/
def labels (domain : List Char) : List (List Char) :=
  let parts := domain.splitOn '.'
  if 1 < parts.length && parts.getLast? == some [] then parts.dropLast else parts

/-- Whether the last label of a domain makes it an IPv4 address. -/
def endsInNumber (domain : List Char) : Bool :=
  match (labels domain).getLast? with
  | some label => !label.isEmpty && (label.all Char.isDigit || (ipv4Number? label).isSome)
  | none => false

/-- The address that the labels spell: all but the last are bytes, and the last fills the bytes left. -/
def ipv4? (domain : List Char) : Option Nat := do
  let numbers ← (labels domain).mapM ipv4Number?
  let last ← numbers.getLast?
  let init := numbers.dropLast
  if 3 < init.length || init.any (255 < ·) || Nat.pow 256 (4 - init.length) ≤ last then none
  else some (init.zipIdx.foldl (fun total (n, i) => total + n * Nat.pow 256 (3 - i)) last)

/-- An IPv4 address in dotted form. -/
def ipv4Text (n : Nat) : String :=
  ".".intercalate ([n / 256 / 256 / 256, n / 256 / 256 % 256, n / 256 % 256, n % 256].map toString)

/-! ## IPv6 -/

/-- The two groups of an IPv4 address in dotted form, which four plain bytes without leading zeros spell. -/
def embeddedIpv4? (cs : List Char) : Option (List Nat) := do
  let parts := cs.splitOn '.'
  let bytes ← parts.mapM fun p => do
    let n ← if p.isEmpty || 3 < p.length then none else digitsValue? 10 p
    if 255 < n || (p.head? == some '0' && p.length != 1) then none else some n
  match bytes with
  | [a, b, c, d] => some [256 * a + b, 256 * c + d]
  | _ => none

/-- The groups of a part of an address; only the last may hold a dotted address, and only if `final`. -/
def ipv6Groups? (final : Bool) : List (List Char) → Option (List Nat)
  | [] => some []
  | p :: ps =>
    if ps.isEmpty && final && p.contains '.' then embeddedIpv4? p
    else do
      let n ← if p.isEmpty || 4 < p.length then none else digitsValue? 16 p
      return n :: (← ipv6Groups? final ps)

/-- The places of a text before which a pair of colons stands: the texts around the first one. -/
def splitAtPair : List Char → Option (List Char × List Char)
  | ':' :: ':' :: rest => some ([], rest)
  | c :: rest => (splitAtPair rest).map fun (l, r) => (c :: l, r)
  | [] => none

/-- The groups of one side of a pair of colons. -/
def sideGroups? (final : Bool) (side : List Char) : Option (List Nat) :=
  if side.isEmpty then some [] else ipv6Groups? final (side.splitOn ':')

/-- The eight groups of an address; a pair of colons stands for one or more groups of zero. -/
def ipv6? (cs : List Char) : Option (List Nat) :=
  match splitAtPair cs with
  | some (left, right) => do
    let l ← sideGroups? false left
    let r ← sideGroups? true right
    if 7 < l.length + r.length then none else some (l ++ List.replicate (8 - l.length - r.length) 0 ++ r)
  | none => do
    let groups ← ipv6Groups? true (cs.splitOn ':')
    if groups.length = 8 then some groups else none

/-- The length of the run of zeros at the start. -/
def zeroRun (groups : List Nat) : Nat := (groups.takeWhile (· == 0)).length

/-- Start and length of the first of the longest runs of zeros, from position `i` on. -/
def longestZeroRun (i : Nat) : List Nat → Nat × Nat
  | [] => (i, 0)
  | g :: gs =>
    let here := zeroRun (g :: gs)
    let (j, n) := longestZeroRun (i + 1) gs
    if n ≤ here then (i, here) else (j, n)

/-- An IPv6 address in brackets, its longest run of at least two zero groups left out. -/
def ipv6Text (groups : List Nat) : String :=
  let text (gs : List Nat) := ":".intercalate (gs.map fun g => String.ofList (Nat.toDigits 16 g))
  let (i, n) := longestZeroRun 0 groups
  if n < 2 then "[" ++ text groups ++ "]"
  else "[" ++ text (groups.take i) ++ "::" ++ text (groups.drop (i + n)) ++ "]"

/-- The text between brackets, as an address. -/
def bracketed (cs : List Char) : Except UriFault String :=
  if cs.getLast? != some ']' then .error .invalidIpv6
  else match ipv6? (cs.drop 1).dropLast with
    | some groups => .ok (ipv6Text groups)
    | none => .error .invalidIpv6

/-! ## Domains -/

/-- Characters that no domain holds. -/
def deniedInDomain (c : Char) : Bool :=
  c.toNat ≤ 0x20 || c.toNat == 0x7F
    || ['#', '%', '/', ':', '<', '>', '?', '@', '[', '\\', ']', '^', '|'].contains c

/-- Characters that no host holds, whatever its scheme. -/
def deniedInHost (c : Char) : Bool :=
  ['\x00', '\t', '\n', '\r', ' ', '#', '/', ':', '<', '>', '?', '@', '[', '\\', ']', '^', '|'].contains c

/-- The processing of international domain names: how a domain is mapped to ASCII, if it is valid. -/
class Domains where
  toAscii? : List Char → Option (List Char)
  /-- What a domain is mapped to is mapped to itself. -/
  again : ∀ {cs ds : List Char}, toAscii? cs = some ds → toAscii? ds = some ds
  /-- Digits and points are left as they are. -/
  numeric : ∀ {cs : List Char}, (∀ c ∈ cs, c.isDigit = true ∨ c = '.') → toAscii? cs = some cs
  /-- A domain in ASCII gets no characters but letters, digits and hyphens. -/
  plain : ∀ {cs ds : List Char}, (∀ c ∈ cs, c.toNat < 0x80) → toAscii? cs = some ds →
    ∀ d ∈ ds, d ∈ cs ∨ d.isAlphanum = true ∨ d = '-'

/-- The host of an address with a well-known scheme. -/
def parseDomain [Domains] (cs : List Char) : Except UriFault String :=
  if cs.head? == some '[' then bracketed cs
  else match (decode? cs).bind fun text => Domains.toAscii? text.toList with
    | none => .error .internationalDomain
    | some domain =>
      if domain.any deniedInDomain then .error .internationalDomain
      else if domain.isEmpty then .error .emptyHost
      else if endsInNumber domain then
        match ipv4? domain with
        | some n => .ok (ipv4Text n)
        | none => .error .invalidIpv4
      else .ok (String.ofList domain)

/-- The host of an address with any other scheme. -/
def parseOpaqueHost (cs : List Char) : Except UriFault String :=
  if cs.head? == some '[' then bracketed cs
  else if cs.any deniedInHost then .error .invalidDomainCharacter
  else .ok (String.ofList (encode inControls cs))

end FlowDoc.Uri
