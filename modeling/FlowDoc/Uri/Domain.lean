import FlowDoc.Text.LowerCase
import FlowDoc.Uri.Host

/-!
# Domains in lower case

The mapping of domains that the library comes with. Letters are put in lower case, and a label beyond ASCII is written in
Punycode: its ASCII characters, then the others in the order of their code points, each as the distance from the one
before. Characters are not composed, and labels are not checked, so this is the processing of international domain names
only for domains that need neither.
-/

namespace FlowDoc.Uri

/-! ## Punycode -/

namespace Punycode

/-- A digit in base 36: the letters, then the decimal digits. -/
def digit (n : Nat) : Char := Char.ofNat (if n < 26 then 97 + n else 22 + n)

/-- The number below which a digit at a position is the last one. -/
def threshold (bias position : Nat) : Nat := min 26 (max 1 (position - bias))

/-- The digits of a distance, the lowest first. -/
def digits (bias position n : Nat) : List Char :=
  let t := threshold bias position
  if n < t then [digit n] else digit (t + (n - t) % (36 - t)) :: digits bias (position + 36) ((n - t) / (36 - t))
termination_by n
decreasing_by
  have : 0 < threshold bias position := by unfold threshold; omega
  exact Nat.lt_of_le_of_lt (Nat.div_le_self _ _) (by omega)

/-- Scale a distance down until three digits hold it, and count the positions. -/
def scaleDown (distance positions : Nat) : Nat × Nat :=
  if 455 < distance then scaleDown (distance / 35) (positions + 36) else (distance, positions)
termination_by distance

/-- The bias after a distance, the `count`-th character being at its end. -/
def adapt (distance count : Nat) (isFirst : Bool) : Nat :=
  let distance := distance / if isFirst then 700 else 2
  let (distance, positions) := scaleDown (distance + distance / count) 0
  positions + 36 * distance / (distance + 38)

/-- What was written so far, and the distance since the last character that was. -/
structure State where
  text : List Char := []
  distance : Nat := 0
  bias : Nat := 72
  /-- The number of characters that are written. -/
  count : Nat

/-- Pass a character on the way to the next one with a code point. -/
def pass (plain point : Nat) (s : State) (c : Char) : State :=
  if c.toNat < point then { s with distance := s.distance + 1 }
  else if c.toNat = point then
    { text := s.text ++ digits s.bias 36 s.distance
      bias := adapt s.distance (s.count + 1) (s.count == plain)
      count := s.count + 1 }
  else s

/-- Write the characters with the code points `points`, in order, from the code point `next` on. -/
def writeAll (label : List Char) (plain next : Nat) (s : State) : List Nat → List Char
  | [] => s.text
  | point :: points =>
    let s := label.foldl (pass plain point) { s with distance := s.distance + (point - next) * (s.count + 1) }
    writeAll label plain (point + 1) { s with distance := s.distance + 1 } points

/-- A label in Punycode. -/
def encode (label : List Char) : List Char :=
  let plain := label.filter fun c => c.toNat < 0x80
  let points := ((label.map Char.toNat).filter fun n => 0x80 ≤ n).eraseDups.mergeSort
  plain ++ (if plain.isEmpty then [] else ['-']) ++ writeAll label plain.length 0x80 { count := plain.length } points

end Punycode

/-! ## The mapping -/

/-- A label in ASCII, marked if it is encoded. -/
def asciiLabel (label : List Char) : List Char :=
  if label.all fun c => c.toNat < 0x80 then label else "xn--".toList ++ Punycode.encode label

/-- A domain in lower case and in ASCII. -/
def lowerDomain? (cs : List Char) : Option (List Char) :=
  if cs.all fun c => c.toNat < 0x80 then some (cs.map Char.toLower)
  else
    let domain := ['.'].intercalate (((Text.lowerAfter [] cs).splitOn '.').map asciiLabel)
    if domain.all fun c => c.toNat < 0x80 && c.toLower == c then some domain else none

example : lowerDomain? "Bücher.de".toList = some "xn--bcher-kva.de".toList := by cbv

/-- What lower case does in ASCII. -/
theorem toLower_ascii {c : Char} (h : c.toNat < 0x80) :
    c.toLower.toNat < 0x80 ∧ c.toLower.toLower = c.toLower ∧ (c.toLower = c ∨ c.toLower.isAlphanum = true) :=
  forall_ascii (P := fun c => c.toLower.toNat < 0x80 ∧ c.toLower.toLower = c.toLower ∧
    (c.toLower = c ∨ c.toLower.isAlphanum = true)) (by decide) h

/-- Digits are in ASCII and have no case. -/
theorem toLower_digit {c : Char} (h : c.isDigit = true) : c.toNat < 0x80 ∧ c.toLower = c := by
  have ascii : c.toNat < 0x80 := by
    simp only [Char.isDigit, Bool.and_eq_true, decide_eq_true_eq] at h
    have last : c.toNat ≤ 0x39 := h.2
    omega
  exact ⟨ascii, forall_ascii (P := fun c => c.isDigit = true → c.toLower = c) (by decide) ascii h⟩

theorem lowerDomain?_of_ascii {cs : List Char} (h : ∀ c ∈ cs, c.toNat < 0x80) :
    lowerDomain? cs = some (cs.map Char.toLower) := by
  rw [lowerDomain?, if_pos (List.all_eq_true.mpr fun c hc => decide_eq_true (h c hc))]

/-- A domain in ASCII and in lower case is left as it is. -/
theorem lowerDomain?_of_lower {cs : List Char} (h : ∀ c ∈ cs, c.toNat < 0x80 ∧ c.toLower = c) :
    lowerDomain? cs = some cs := by
  rw [lowerDomain?_of_ascii fun c hc => (h c hc).1, List.map_congr_left fun c hc => (h c hc).2, List.map_id']

instance lowerDomains : Domains where
  toAscii? := lowerDomain?
  again {cs ds} h := by
    refine lowerDomain?_of_lower ?_
    unfold lowerDomain? at h
    split at h
    · rename_i ascii
      cases h
      rw [List.forall_mem_map]
      intro c hc
      have lower := toLower_ascii (of_decide_eq_true (List.all_eq_true.mp ascii c hc))
      exact ⟨lower.1, lower.2.1⟩
    · dsimp only at h
      split at h
      · rename_i fine
        cases h
        simpa using fine
      · cases h
  numeric {cs} h := by
    refine lowerDomain?_of_lower fun c hc => ?_
    rcases h c hc with digit | rfl
    · exact toLower_digit digit
    · decide
  plain {cs ds} h mapped := by
    rw [lowerDomain?_of_ascii h] at mapped
    cases mapped
    rw [List.forall_mem_map]
    intro c hc
    rcases (toLower_ascii (h c hc)).2.2 with same | letter
    · rw [same]
      exact Or.inl hc
    · exact Or.inr (Or.inl letter)

end FlowDoc.Uri
