/-!
# Double-precision numbers

A `Binary64` is its 64 bits; sign, significand and exponent are read off them, so every finite number is exactly
`± significand * 2 ^ exponent`. `ofDecimal` rounds a decimal fraction to the nearest double, a tie to the even
significand.
-/

namespace FlowDoc

/-- A double-precision number, given by its bits. -/
structure Binary64 where
  bits : UInt64
  deriving DecidableEq

namespace Binary64

def isNegative (x : Binary64) : Bool := x.bits >>> 63 == 1

/-- The biased exponent, `0 … 2047`. -/
def biased (x : Binary64) : Nat := ((x.bits >>> 52) &&& 0x7FF).toNat

/-- The stored bits of the significand. -/
def fraction (x : Binary64) : Nat := (x.bits &&& 0xFFFFFFFFFFFFF).toNat

def isNaN (x : Binary64) : Bool := x.biased == 2047 && x.fraction != 0

def isInfinite (x : Binary64) : Bool := x.biased == 2047 && x.fraction == 0

def isFinite (x : Binary64) : Bool := x.biased != 2047

def isZero (x : Binary64) : Bool := x.biased == 0 && x.fraction == 0

/-- Greater than zero, as numbers compare: neither `-0` nor a NaN. -/
def isPositive (x : Binary64) : Bool := !x.isNegative && !x.isNaN && !x.isZero

/-- The significand `m` of `± m * 2 ^ exponent`. -/
def significand (x : Binary64) : Nat := if x.biased = 0 then x.fraction else x.fraction + Nat.pow 2 52

/-- The exponent `q` of `± significand * 2 ^ q`. -/
def exponent (x : Binary64) : Int := (max x.biased 1 : Nat) - 1075

def zero : Binary64 := ⟨0⟩

def one : Binary64 := ⟨0x3FF0000000000000⟩

def infinity : Binary64 := ⟨0x7FF0000000000000⟩

def nan : Binary64 := ⟨0x7FF8000000000000⟩

/-- The number with its sign bit flipped. -/
def neg (x : Binary64) : Binary64 := ⟨x.bits ^^^ 0x8000000000000000⟩

/-- `num / den` rounded to an integer, a tie to the even one. -/
def roundQuotient (num den : Nat) : Nat :=
  let q := num / den
  let r := num % den
  if 2 * r < den then q else if den < 2 * r then q + 1 else q + q % 2

/-- The double nearest to `num / den`. A carry out of the significand runs into the exponent field, as it should. -/
def ofRatio (num den : Nat) : Binary64 :=
  if num = 0 then zero
  else
    let guess : Int := (num.log2 : Int) - den.log2 - 52
    let scaled (e : Int) : Nat × Nat := if 0 ≤ e then (num, den * Nat.pow 2 e.toNat) else (num * Nat.pow 2 (-e).toNat, den)
    -- `num / den` lies between `2 ^ (log2 num - log2 den - 1)` and twice that twice over
    let e := if (scaled guess).1 < (scaled guess).2 * Nat.pow 2 52 then guess - 1 else guess
    let e := max e (-1074)
    let (n, d) := scaled e
    let bits := (e + 1074).toNat * Nat.pow 2 52 + roundQuotient n d
    if infinity.bits.toNat ≤ bits then infinity else ⟨UInt64.ofNat bits⟩

/-- The double nearest to `digits * 10 ^ exponent`. -/
def ofDecimal (digits : Nat) (exponent : Int) : Binary64 :=
  let size : Int := (Nat.toDigits 10 digits).length + exponent
  if digits = 0 || size < -400 then zero
  else if 400 < size then infinity
  else if 0 ≤ exponent then ofRatio (digits * Nat.pow 10 exponent.toNat) 1
  else ofRatio digits (Nat.pow 10 (-exponent).toNat)

/-- The natural number nearest to a number, a half rounded up: zero for negative numbers and for no number, and at most
the greatest of 64 bits. -/
def roundToNat (x : Binary64) : Nat :=
  if x.isNaN || x.isNegative then 0
  else if x.isInfinite then Nat.pow 2 64 - 1
  else
    let n := match x.exponent with
      | .ofNat e => x.significand * Nat.pow 2 e
      | .negSucc e => (x.significand + Nat.pow 2 e) / Nat.pow 2 (e + 1)
    min n (Nat.pow 2 64 - 1)

/-- The digits at the start of a text, as a number, with their count and what follows. -/
def takeDigits (cs : List Char) : Nat × Nat × List Char :=
  let ds := cs.takeWhile Char.isDigit
  (ds.foldl (fun n c => 10 * n + (c.toNat - 48)) 0, ds.length, cs.dropWhile Char.isDigit)

/-- An optional exponent `e±digits` at the end of a text. -/
def readExponent? : List Char → Option Int
  | [] => some 0
  | c :: cs =>
    if c == 'e' || c == 'E' then
      let (negative, cs) := match cs with
        | '+' :: r => (false, r)
        | '-' :: r => (true, r)
        | r => (false, r)
      match takeDigits cs with
      | (n, k, []) => if k = 0 then none else some (if negative then -n else n)
      | _ => none
    else none

/-- An unsigned decimal literal: digits with an optional point and exponent, or the name of a special value. -/
def readUnsigned? (cs : List Char) : Option Binary64 :=
  let word := String.ofList (cs.map Char.toLower)
  if word == "nan" then some nan
  else if word == "inf" || word == "infinity" then some infinity
  else
    let (whole, k, rest) := takeDigits cs
    let (part, l, rest) := match rest with
      | '.' :: r => takeDigits r
      | r => (0, 0, r)
    if k + l = 0 then none
    else (readExponent? rest).map fun e => ofDecimal (whole * Nat.pow 10 l + part) (e - l)

/-- Read a decimal literal with an optional sign. -/
def ofString? (s : String) : Option Binary64 :=
  match s.toList with
  | '-' :: cs => (readUnsigned? cs).map neg
  | '+' :: cs => readUnsigned? cs
  | cs => readUnsigned? cs

end Binary64

end FlowDoc
