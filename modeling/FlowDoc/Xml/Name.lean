import FlowDoc.Text.Space

/-!
# Characters and names of markup

Which characters may stand in a document at all, which in a name, and how a qualified name is read.
-/

namespace FlowDoc.Xml

/-- Whether a reader accepts the character. -/
def isChar (c : Char) : Bool :=
  if c.toNat < 0x20 then Text.isMarkupSpace c else c.toNat != 0xFFFE && c.toNat != 0xFFFF

/-- The ranges of characters that begin a name, other than the colon. -/
def nameStartRanges : List (Nat × Nat) :=
  [(0x41, 0x5A), (0x5F, 0x5F), (0x61, 0x7A), (0xC0, 0xD6), (0xD8, 0xF6), (0xF8, 0x2FF), (0x370, 0x37D),
    (0x37F, 0x1FFF), (0x200C, 0x200D), (0x2070, 0x218F), (0x2C00, 0x2FEF), (0x3001, 0xD7FF), (0xF900, 0xFDCF),
    (0xFDF0, 0xFFFD), (0x10000, 0xEFFFF)]

/-- The ranges of further characters of a name. -/
def nameRanges : List (Nat × Nat) := [(0x2D, 0x2E), (0x30, 0x39), (0xB7, 0xB7), (0x300, 0x36F), (0x203F, 0x2040)]

def inSomeRange (ranges : List (Nat × Nat)) (c : Char) : Bool :=
  ranges.any fun (a, b) => a ≤ c.toNat && c.toNat ≤ b

/-- Whether a character begins a name without a colon. -/
def isNameStart (c : Char) : Bool := inSomeRange nameStartRanges c

/-- Whether a character occurs in a name without a colon. -/
def isNameChar (c : Char) : Bool := isNameStart c || inSomeRange nameRanges c

/-- A qualified name; an empty prefix is none. -/
structure QName where
  pre : String
  name : String
  deriving DecidableEq

/-- Whether a text is a name without a colon. -/
def isName (cs : List Char) : Bool := cs.head?.any isNameStart

/-- Read a qualified name. -/
def readQName? (cs : List Char) : Option (QName × List Char) :=
  let first := cs.takeWhile isNameChar
  match cs.dropWhile isNameChar with
  | ':' :: rest =>
    let name := rest.takeWhile isNameChar
    let rest := rest.dropWhile isNameChar
    if isName name && (first.isEmpty || isName first) && rest.head? != some ':' then
      some (⟨String.ofList first, String.ofList name⟩, rest)
    else none
  | rest => if isName first then some (⟨"", String.ofList first⟩, rest) else none

end FlowDoc.Xml
