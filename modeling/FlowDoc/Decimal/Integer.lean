/-!
# Decimal texts of integers

An integer is written with one digit or more, after a sign or without one.
-/

namespace FlowDoc.Decimal

/-- The number that digits write. -/
def readDigits? (cs : List Char) : Option Nat :=
  if cs.isEmpty || !cs.all Char.isDigit then none
  else some (cs.foldl (fun n c => 10 * n + (c.toNat - '0'.toNat)) 0)

/-- A number with a plus sign or without. -/
def readNat? : List Char → Option Nat
  | '+' :: cs => readDigits? cs
  | cs => readDigits? cs

/-- A number with a sign or without. -/
def readInt? : List Char → Option Int
  | '-' :: cs => (readDigits? cs).map fun n => -n
  | cs => (readNat? cs).map fun n => n

/-- Whether an integer has a two's complement form of 64 bits. -/
def isInt64 : Int → Bool
  | .ofNat n => n < Nat.pow 2 63
  | .negSucc n => n < Nat.pow 2 63

/-- An integer of 64 bits. -/
def readInt64? (cs : List Char) : Option Int := (readInt? cs).filter isInt64

end FlowDoc.Decimal
