/-!
# White space

Three classes of characters: the white space of Unicode (`isSpace`), the control characters (`isControl`), and the
white space of markup (`isMarkupSpace`), which is what an XML or XAML reader normalises. Every markup space is a
Unicode space (`isSpace_of_isMarkupSpace`), not conversely.
-/

namespace FlowDoc.Text

/-- The Unicode property `White_Space`. -/
def isSpace (c : Char) : Bool :=
  let n := c.toNat
  (0x09 ≤ n && n ≤ 0x0D) || n == 0x20 || n == 0x85 || n == 0xA0 || n == 0x1680 || (0x2000 ≤ n && n ≤ 0x200A)
    || n == 0x2028 || n == 0x2029 || n == 0x202F || n == 0x205F || n == 0x3000

/-- The general category `Cc`. -/
def isControl (c : Char) : Bool :=
  let n := c.toNat
  n < 0x20 || (0x7F ≤ n && n ≤ 0x9F)

/-- Space, tab, line feed and carriage return: the white space an XML or XAML reader knows. -/
def isMarkupSpace (c : Char) : Bool :=
  c == ' ' || c == '\t' || c == '\n' || c == '\r'

theorem isSpace_of_isMarkupSpace {c : Char} (h : isMarkupSpace c = true) : isSpace c = true := by
  simp only [isMarkupSpace, Bool.or_eq_true, beq_iff_eq] at h
  rcases h with ((rfl | rfl) | rfl) | rfl <;> decide

/-- Drop the leading characters of a class. -/
def trimLeft (p : Char → Bool) (cs : List Char) : List Char := cs.dropWhile p

/-- Drop the trailing characters of a class. -/
def trimRight (p : Char → Bool) (cs : List Char) : List Char := (cs.reverse.dropWhile p).reverse

/-- Drop the characters of a class at both ends. -/
def trim (p : Char → Bool) (cs : List Char) : List Char := trimRight p (trimLeft p cs)

/-- What follows `p` in `s`, if `s` starts with it. -/
def stripPrefix? : List Char → List Char → Option (List Char)
  | [], s => some s
  | _ :: _, [] => none
  | a :: p, c :: s => if a = c then stripPrefix? p s else none

theorem stripPrefix?_eq_some_iff {p s r : List Char} : stripPrefix? p s = some r ↔ s = p ++ r := by
  induction p generalizing s with
  | nil => simp [stripPrefix?, eq_comm]
  | cons a p ih =>
    cases s with
    | nil => simp [stripPrefix?]
    | cons c s =>
      by_cases h : a = c
      · simp [stripPrefix?, h, ih]
      · simp [stripPrefix?, h, Ne.symm h]

end FlowDoc.Text
