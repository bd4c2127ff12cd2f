import FlowDoc.Decimal.Shortest

/-!
# Decimal texts of doubles

All texts use the shortest digits that read back; a `NumberFormat` says which magnitudes are written positionally and
how the rest and whole numbers look.
-/

namespace FlowDoc

/-- How a double is written. -/
structure NumberFormat where
  /-- Scientific exponents written positionally; `none` for all. -/
  positional : Option (Int × Int)
  /-- Whether a whole number ends in `.0`. -/
  pointZero : Bool
  /-- Whether a positive exponent has a plus sign. -/
  plus : Bool

namespace NumberFormat

/-- Always positional, whole numbers without a point. -/
def plain : NumberFormat := ⟨none, false, false⟩

/-- Positional from `1e-4` up to below `1e16`; a point in every positional text. -/
def debug : NumberFormat := ⟨some (-4, 15), true, false⟩

/-- The numbers of JSON: positional from `1e-5` up to below `1e16`, exponents signed. -/
def json : NumberFormat := ⟨some (-5, 15), true, true⟩

def zeros (n : Nat) : List Char := List.replicate n '0'

/-- Positional text of the digits `ds` times `10 ^ e`. -/
def positionalText (f : NumberFormat) (ds : List Char) (e : Int) : List Char :=
  if 0 ≤ e then ds ++ zeros e.toNat ++ (if f.pointZero then ['.', '0'] else [])
  else
    let k := (-e).toNat
    if k < ds.length then ds.take (ds.length - k) ++ '.' :: ds.drop (ds.length - k)
    else '0' :: '.' :: zeros (k - ds.length) ++ ds

/-- Scientific text of the digits `ds` with the scientific exponent `e`. -/
def scientificText (f : NumberFormat) (ds : List Char) (e : Int) : List Char :=
  let sign := if e < 0 then ['-'] else if f.plus then ['+'] else []
  let tail := match ds.drop 1 with
    | [] => []
    | rest => '.' :: rest
  ds.take 1 ++ tail ++ 'e' :: sign ++ Nat.toDigits 10 e.natAbs

/-- The text of a number. -/
def write (f : NumberFormat) (x : Binary64) : String :=
  let sign := if x.isNegative && !x.isNaN then "-" else ""
  if x.isNaN then "NaN"
  else if x.isInfinite then sign ++ "inf"
  else
    let d := x.shortest
    let ds := Nat.toDigits 10 d.digits
    let magnitude := d.exponent + ds.length - 1
    let positional := x.isZero || match f.positional with
      | none => true
      | some (least, most) => least ≤ magnitude && magnitude ≤ most
    sign ++ String.ofList (if positional then f.positionalText ds d.exponent else f.scientificText ds magnitude)

end NumberFormat

end FlowDoc
