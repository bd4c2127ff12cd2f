/-!
# Percent-encoding

A part of an address writes the characters outside its set as `%` and two hexadecimal digits for each byte of their
UTF-8 form. Characters beyond ASCII are outside every set. `hasWholeEscapes` scans the bytes of a text for a `%` that
two hexadecimal digits do not follow; `validEscapes` says the same of its characters.
-/

namespace FlowDoc.Uri

/-- What holds of the ASCII characters one by one. -/
theorem forall_ascii {P : Char → Prop} (h : ∀ n < 0x80, P (Char.ofNat n)) {c : Char} (ascii : c.toNat < 0x80) : P c := by
  simpa using h c.toNat ascii

/-- The digits of a byte in upper case. -/
def hexByte (b : UInt8) : List Char :=
  let digit (n : Nat) : Char := (Nat.digitChar n).toUpper
  [digit (b.toNat / 16), digit (b.toNat % 16)]

/-- One character, encoded if `escapes` says so or it is not ASCII. -/
def encodeChar (escapes : Char → Bool) (c : Char) : List Char :=
  if 0x80 ≤ c.toNat || escapes c then (String.utf8EncodeChar c).flatMap fun b => '%' :: hexByte b else [c]

def encode (escapes : Char → Bool) (cs : List Char) : List Char := cs.flatMap (encodeChar escapes)

/-! ## The characters that each part escapes -/

def inControls (c : Char) : Bool := c.toNat < 0x20 || c.toNat == 0x7F

def inFragment (c : Char) : Bool := inControls c || [' ', '"', '<', '>', '`'].contains c

def inPath (c : Char) : Bool := inFragment c || ['#', '?', '{', '}'].contains c

def inUserinfo (c : Char) : Bool := inPath c || ['/', ':', ';', '=', '@', '[', '\\', ']', '^', '|'].contains c

def inQuery (c : Char) : Bool := inControls c || [' ', '"', '#', '<', '>'].contains c

def inSpecialQuery (c : Char) : Bool := inQuery c || c == '\''

/-! ## Decoding -/

/-- The value of a hexadecimal digit. -/
def hexValue? (c : Char) : Option Nat :=
  if c.isDigit then some (c.toNat - 48)
  else if 'a' ≤ c && c ≤ 'f' then some (c.toNat - 87)
  else if 'A' ≤ c && c ≤ 'F' then some (c.toNat - 55)
  else none

def isHexDigit (c : Char) : Bool := (hexValue? c).isSome

/-- The bytes of a text with its escapes decoded; a `%` that begins no escape stands for itself. -/
def decodeBytes : List Char → List UInt8
  | [] => []
  | '%' :: a :: b :: rest =>
    match hexValue? a, hexValue? b with
    | some h, some l => UInt8.ofNat (16 * h + l) :: decodeBytes rest
    | _, _ => 0x25 :: decodeBytes (a :: b :: rest)
  | c :: rest => String.utf8EncodeChar c ++ decodeBytes rest

/-- A text with its escapes decoded, if that is UTF-8. -/
def decode? (cs : List Char) : Option String := String.fromUTF8? ⟨(decodeBytes cs).toArray⟩

/-! ## Whole escapes -/

/-- A hexadecimal digit as a byte. -/
def isHexByte (b : UInt8) : Bool :=
  ('0'.toUInt8 ≤ b && b ≤ '9'.toUInt8) || ('A'.toUInt8 ≤ b && b ≤ 'F'.toUInt8) || ('a'.toUInt8 ≤ b && b ≤ 'f'.toUInt8)

/-- The bytes from one position up to another, if the text reaches that far. -/
def slice? (bytes : ByteArray) (first last : Nat) : Option ByteArray :=
  if first ≤ last ∧ last ≤ bytes.size then some (bytes.extract first last) else none

/-- What one turn of a scan comes to. -/
inductive ScanTurn where
  | over (valid : Bool)
  | goOn (i : Nat)

/-- One turn of the scan for whole escapes, which passes an escape in one go. It fails if it reads where the text has no
byte. -/
def scanTurn? (bytes : ByteArray) (i : Nat) : Option ScanTurn := do
  if i < bytes.size then
    let b ← bytes[i]?
    if b == '%'.toUInt8 then
      let digits? := slice? bytes (i + 1) (i + 3)
      return if digits?.any (·.data.all isHexByte) then .goOn (i + 3) else .over false
    else return .goOn (i + 1)
  else return .over true

/-- A turn goes on at a later position. -/
theorem lt_of_scanTurn? {bytes : ByteArray} {i next : Nat} (h : scanTurn? bytes i = some (.goOn next)) :
    i < bytes.size ∧ i < next := by
  rw [scanTurn?] at h
  split at h
  · rename_i inside
    refine ⟨inside, ?_⟩
    obtain ⟨b, -, h⟩ := Option.bind_eq_some_iff.mp h
    split at h
    · dsimp only at h
      split at h <;> cases h
      omega
    · cases h
      omega
  · cases h

/-- The answer of the scan from a position on. There is none if one of its turns fails. -/
def scanEscapes? (bytes : ByteArray) (i : Nat) : Option Bool :=
  match _turn : scanTurn? bytes i with
  | none => none
  | some (.over valid) => some valid
  | some (.goOn next) => scanEscapes? bytes next
termination_by bytes.size - i
decreasing_by
  have := lt_of_scanTurn? ‹_›
  omega

/-- Whether two hexadecimal digits follow every `%` of a text. -/
def hasWholeEscapes (s : String) : Bool := scanEscapes? s.toUTF8 0 == some true

/-- Whether two hexadecimal digits follow every `%` of some characters. -/
def validEscapes : List Char → Bool
  | [] => true
  | '%' :: a :: b :: rest => isHexDigit a && isHexDigit b && validEscapes rest
  | c :: rest => c != '%' && validEscapes rest

end FlowDoc.Uri
