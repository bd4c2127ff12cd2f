import FlowDoc.Decimal.Binary64

/-!
# The shortest decimal that reads back

Of all decimals that round to a given finite double, `Binary64.shortest` is one with the fewest digits, and of those
the nearest. The reals that round to `m * 2 ^ q` form an interval between the midpoints to its two neighbours; for
1, 2, …, 17 digits the two neighbours of the number on that decimal grid are tried, and the first grid with a hit wins.
-/

namespace FlowDoc

/-- The number `digits * 10 ^ exponent`. -/
structure Decimal where
  digits : Nat
  exponent : Int
  deriving DecidableEq

namespace Decimal

/-- Positive numbers over one denominator: the number itself and the ends of the interval that rounds to it. -/
structure Interval where
  low : Nat
  value : Nat
  high : Nat
  denominator : Nat
  /-- Whether the ends round to the number too. -/
  closed : Bool

namespace Interval

/-- The reals that round to a finite positive double. Below a power of two the neighbour is half as far away. -/
def ofBinary64 (x : Binary64) : Interval :=
  let m := x.significand
  let below := if m = Nat.pow 2 52 && 1 < x.biased then 1 else 2
  let q := x.exponent - 2
  let up := Nat.pow 2 q.toNat
  ⟨(4 * m - below) * up, 4 * m * up, (4 * m + 2) * up, Nat.pow 2 (-q).toNat, m % 2 == 0⟩

/-- The `k` with `10 ^ k ≤ value < 10 ^ (k + 1)`. -/
def magnitude (i : Interval) : Int :=
  if i.denominator ≤ i.value then (Nat.toDigits 10 (i.value / i.denominator)).length - 1
  else -((Nat.toDigits 10 ((i.denominator + i.value - 1) / i.value - 1)).length : Int)

/-- `digits * 10 ^ exponent` over the interval's denominator, both sides scaled to integers: the pair of that and the
factor for the other side. -/
def scale (i : Interval) (d : Decimal) : Nat × Nat :=
  (d.digits * Nat.pow 10 d.exponent.toNat * i.denominator, Nat.pow 10 (-d.exponent).toNat)

/-- Whether a decimal rounds to the number. -/
def holds (i : Interval) (d : Decimal) : Bool :=
  let (n, f) := i.scale d
  if i.closed then i.low * f ≤ n && n ≤ i.high * f else i.low * f < n && n < i.high * f

/-- Distance of a decimal of the given exponent from the number, scaled alike for all of that exponent. -/
def distance (i : Interval) (d : Decimal) : Nat :=
  let (n, f) := i.scale d
  (n - i.value * f) + (i.value * f - n)

/-- The neighbours of the number on the grid of multiples of `10 ^ exponent`. -/
def neighbours (i : Interval) (exponent : Int) : Decimal × Decimal :=
  let c := i.value * Nat.pow 10 (-exponent).toNat / (i.denominator * Nat.pow 10 exponent.toNat)
  (⟨c, exponent⟩, ⟨c + 1, exponent⟩)

/-- The nearest decimal of the grid that rounds to the number. -/
def nearest? (i : Interval) (exponent : Int) : Option Decimal :=
  let (a, b) := i.neighbours exponent
  match i.holds a, i.holds b with
  | true, true => some (if i.distance b < i.distance a then b else a)
  | true, false => some a
  | false, true => some b
  | false, false => none

end Interval

/-- The same number without trailing zeros; `fuel` bounds their count. -/
def stripZeros : Nat → Decimal → Decimal
  | 0, d => d
  | fuel + 1, d => if d.digits % 10 = 0 && d.digits ≠ 0 then stripZeros fuel ⟨d.digits / 10, d.exponent + 1⟩ else d

end Decimal

/-- The fewest digits that read back as the magnitude of a finite double. -/
def Binary64.shortest (x : Binary64) : Decimal :=
  if x.isZero then ⟨0, 0⟩
  else
    let i := Decimal.Interval.ofBinary64 x
    let k := i.magnitude
    let found := (List.range 17).findSome? fun (n : Nat) => i.nearest? (k - n)
    (found.getD (i.neighbours (k - 17)).1).stripZeros 20

end FlowDoc
