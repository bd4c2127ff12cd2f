/-!
# Sets and maps of characters

A large set of characters is an ordered array of disjoint ranges of code points, searched by halving. A map of letters to
letters is a list of runs: most of the letters of an alphabet stand apart from their images by one distance, either one
after the other or each beside its own image.
-/

namespace FlowDoc.Text

/-! ## Sets -/

/-- Whether an ordered array of disjoint ranges holds `n`: a binary search between `lo` and `hi`, which `fuel` bounds. -/
def inRanges (ranges : Array (Nat × Nat)) (n : Nat) : (fuel lo hi : Nat) → Bool
  | 0, _, _ => false
  | fuel + 1, lo, hi =>
    if lo < hi then
      let mid := (lo + hi) / 2
      match ranges[mid]? with
      | some (a, b) =>
        if n < a then inRanges ranges n fuel lo mid
        else if b < n then inRanges ranges n fuel (mid + 1) hi
        else true
      | none => false
    else false

/-- Whether a character is in a set of ranges. -/
def isInRanges (ranges : Array (Nat × Nat)) (c : Char) : Bool := inRanges ranges c.toNat ranges.size 0 ranges.size

/-! ## Maps -/

/-- Characters with an image each: every `step`-th from `first` to `last`, the first of them to `image`. -/
structure CaseRun where
  first : Nat
  last : Nat
  step : Nat
  image : Nat

/-- The image of a code point under runs in order and disjoint. -/
def CaseRun.image? (runs : List CaseRun) (n : Nat) : Option Char := do
  let r ← runs.find? fun r => r.first ≤ n && n ≤ r.last
  if (n - r.first) % r.step = 0 then some (Char.ofNat (r.image + (n - r.first))) else none

end FlowDoc.Text
