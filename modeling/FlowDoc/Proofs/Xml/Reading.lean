import FlowDoc.Xml.Escape
import FlowDoc.Xml.Token
import Mathlib.Tactic.SplitIfs

/-!
# Reading escaped characters back

What an XML reader makes of printed character data (`readText?`) and of a printed attribute value
(`readAttributeValue?`): line ends are normalised, references are decoded, and in an attribute the white space that
stands as it is becomes a space. Both readers refuse what may not stand in that place.

* An attribute value reads back as it was, whatever it is made of, if its characters are legal at all
  (**`readAttributeValue?_escape`**).
* Character data reads back with its line ends normalised (**`readText?_escape`**), so as it was exactly if it has no
  carriage return (`readText?_escape_eq_some_iff`): `escapeText` leaves a carriage return as it is.
-/

namespace FlowDoc.Xml

/-- Read character data: no markup in it, line ends normalised, references decoded. -/
def readText? (s : String) : Option String :=
  let cs := s.toList
  if cs.all isChar && !cs.contains '<' && !holdsSectionEnd cs then
    (decodeValue cs.length (normalizeLines cs)).map String.ofList
  else none

/-- Read an attribute value between double quotes: no tag and no quote in it, white space as spaces, references
decoded. -/
def readAttributeValue? (s : String) : Option String :=
  let cs := s.toList
  if cs.all isChar && !cs.contains '<' && !cs.contains '"' then (decodeAttribute cs).map String.ofList else none

/-! ## References -/

/-- The references that stand for a character when it is escaped, without ampersand and semicolon. -/
def references : List (Char × List Char) :=
  [('<', ['l', 't']), ('>', ['g', 't']), ('&', ['a', 'm', 'p']), ('\'', ['a', 'p', 'o', 's']),
    ('"', ['q', 'u', 'o', 't']), ('\n', ['#', '1', '0']), ('\r', ['#', '1', '3']), ('\t', ['#', '9'])]

/-- A spelling of a character: the character itself, unless it is among the ones to avoid, or a reference to it. -/
def IsSpelling (avoided : List Char) (c : Char) (w : List Char) : Prop :=
  (w = [c] ∧ c ∉ avoided) ∨ ∃ name, (c, name) ∈ references ∧ w = '&' :: name ++ [';']

theorem isSpelling_escapeChar (c : Char) : IsSpelling ['<', '>', '&'] c (escapeChar c) := by
  unfold escapeChar
  split_ifs with lt gt amp
  · cases eq_of_beq lt
    exact .inr ⟨['l', 't'], by decide, rfl⟩
  · cases eq_of_beq gt
    exact .inr ⟨['g', 't'], by decide, rfl⟩
  · cases eq_of_beq amp
    exact .inr ⟨['a', 'm', 'p'], by decide, rfl⟩
  · exact .inl ⟨rfl, by simp_all⟩

theorem isSpelling_escapeAttributeChar (c : Char) :
    IsSpelling ['<', '>', '&', '\'', '"', '\n', '\r', '\t'] c (escapeAttributeChar c) := by
  unfold escapeAttributeChar
  split_ifs with apos quot lf cr tab
  · cases eq_of_beq apos
    exact .inr ⟨['a', 'p', 'o', 's'], by decide, rfl⟩
  · cases eq_of_beq quot
    exact .inr ⟨['q', 'u', 'o', 't'], by decide, rfl⟩
  · cases eq_of_beq lf
    exact .inr ⟨['#', '1', '0'], by decide, rfl⟩
  · cases eq_of_beq cr
    exact .inr ⟨['#', '1', '3'], by decide, rfl⟩
  · cases eq_of_beq tab
    exact .inr ⟨['#', '9'], by decide, rfl⟩
  · rcases isSpelling_escapeChar c with ⟨self, free⟩ | reference
    · exact .inl ⟨self, by simp_all⟩
    · exact .inr reference

/-- A reference is read up to its semicolon. -/
theorem readReference?_append {name : List Char} {c : Char} (h : (c, name) ∈ references) (rest : List Char) :
    readReference? (name ++ ';' :: rest) = some (c, rest) := by
  have noMark : ∀ p ∈ references, ∀ d ∈ p.2, (d != ';') = true := by simp [references]
  have known : ∀ p ∈ references, (readReference? (p.2 ++ [';'])).map Prod.fst = some p.1 := by decide
  have := known _ h
  simp only [readReference?, List.takeWhile_append_of_pos (noMark _ h), List.dropWhile_append_of_pos (noMark _ h),
    List.takeWhile_cons, List.dropWhile_cons, bne_self_eq_false, Bool.false_eq_true, if_false] at this ⊢
  rw [Option.map_map] at this
  obtain ⟨d, found, rfl⟩ := Option.map_eq_some_iff.mp this
  rw [found]
  rfl

/-- A spelling is decoded in one step. -/
theorem IsSpelling.decode {avoided : List Char} {c : Char} {w : List Char} (h : IsSpelling avoided c w)
    (amp : '&' ∈ avoided) (fuel : Nat) (rest : List Char) :
    decodeValue (fuel + 1) (w ++ rest) = (decodeValue fuel rest).map (c :: ·) := by
  rcases h with ⟨rfl, free⟩ | ⟨name, known, rfl⟩
  · have plain : c ≠ '&' := fun e => free (e ▸ amp)
    rw [List.singleton_append, decodeValue]
    exact plain
  · rw [List.cons_append, List.cons_append, List.append_assoc, List.singleton_append, decodeValue,
      readReference?_append known]
    exact Option.map_eq_bind.symm

/-- A spelling is legal exactly if its character is. -/
theorem IsSpelling.all_isChar {avoided : List Char} {c : Char} {w : List Char} (h : IsSpelling avoided c w) :
    w.all isChar = isChar c := by
  rcases h with ⟨rfl, -⟩ | ⟨name, known, rfl⟩
  · simp
  · have legal : ∀ p ∈ references, ('&' :: p.2 ++ [';']).all isChar = isChar p.1 := by decide
    exact legal _ known

/-- A spelling has no character to avoid, unless references need it. -/
theorem IsSpelling.not_mem {avoided : List Char} {c d : Char} {w : List Char} (h : IsSpelling avoided c w)
    (bad : d ∈ avoided) (needless : ∀ p ∈ references, d ∉ '&' :: p.2 ++ [';']) : d ∉ w := by
  rcases h with ⟨rfl, free⟩ | ⟨name, known, rfl⟩
  · intro mem
    exact free (List.mem_singleton.mp mem ▸ bad)
  · exact needless _ known

section Spelled

variable {avoided : List Char} {spell : Char → List Char}

/-- What is spelled character by character is decoded. -/
theorem decodeValue_flatMap (h : ∀ c, IsSpelling avoided c (spell c)) (amp : '&' ∈ avoided) :
    ∀ {cs : List Char} {fuel : Nat}, cs.length ≤ fuel → decodeValue fuel (cs.flatMap spell) = some cs
  | [], _, _ => by simp [decodeValue]
  | c :: cs, fuel + 1, enough => by
    rw [List.flatMap_cons, (h c).decode amp, decodeValue_flatMap h amp (Nat.le_of_succ_le_succ enough)]
    rfl

theorem length_le_flatMap (h : ∀ c, IsSpelling avoided c (spell c)) (cs : List Char) :
    cs.length ≤ (cs.flatMap spell).length := by
  induction cs with
  | nil => exact Nat.le_refl 0
  | cons c cs ih =>
    have one : 1 ≤ (spell c).length := by
      rcases h c with ⟨self, -⟩ | ⟨name, -, reference⟩
      · simp [self]
      · simp [reference]
    rw [List.flatMap_cons, List.length_append, List.length_cons]
    omega

theorem all_isChar_flatMap (h : ∀ c, IsSpelling avoided c (spell c)) (cs : List Char) :
    (cs.flatMap spell).all isChar = cs.all isChar := by
  rw [List.all_flatMap]
  exact congrArg cs.all (funext fun c => (h c).all_isChar)

theorem not_mem_flatMap (h : ∀ c, IsSpelling avoided c (spell c)) {d : Char} (bad : d ∈ avoided)
    (needless : ∀ p ∈ references, d ∉ '&' :: p.2 ++ [';']) (cs : List Char) : d ∉ cs.flatMap spell := by
  intro mem
  obtain ⟨c, -, inside⟩ := List.mem_flatMap.mp mem
  exact (h c).not_mem bad needless inside

end Spelled

/-! ## Line ends -/

theorem normalizeLines_append {w : List Char} (h : '\r' ∉ w) (cs : List Char) :
    normalizeLines (w ++ cs) = w ++ normalizeLines cs := by
  induction w with
  | nil => rfl
  | cons c w ih =>
    have plain : c ≠ '\r' := fun e => h (e ▸ List.mem_cons_self)
    rw [List.cons_append, normalizeLines, ih fun mem => h (List.mem_cons_of_mem _ mem), List.cons_append]
    · exact fun _ e => absurd e plain
    · exact plain

/-- Normalisation leaves no carriage return. -/
theorem not_mem_normalizeLines (cs : List Char) : '\r' ∉ normalizeLines cs := by
  induction cs using normalizeLines.induct with
  | case1 rest ih => simpa [normalizeLines] using ih
  | case2 rest noFeed ih =>
    rw [normalizeLines]
    · simpa using ih
    · exact noFeed
  | case3 c rest noFeed plain ih =>
    rw [normalizeLines]
    · simpa using ⟨fun e => plain e.symm, ih⟩
    · exact noFeed
    · exact plain
  | case4 => simp [normalizeLines]

theorem normalizeLines_eq_self_iff (cs : List Char) : normalizeLines cs = cs ↔ '\r' ∉ cs := by
  constructor
  · intro same
    rw [← same]
    exact not_mem_normalizeLines cs
  · intro free
    have := normalizeLines_append free []
    rwa [List.append_nil, normalizeLines, List.append_nil] at this

theorem length_normalizeLines_le (cs : List Char) : (normalizeLines cs).length ≤ cs.length := by
  induction cs using normalizeLines.induct with
  | case1 rest ih =>
    simp only [normalizeLines, List.length_cons]
    omega
  | case2 rest noFeed ih =>
    rw [normalizeLines, List.length_cons, List.length_cons]
    · omega
    · exact noFeed
  | case3 c rest noFeed plain ih =>
    rw [normalizeLines, List.length_cons, List.length_cons]
    · omega
    · exact noFeed
    · exact plain
  | case4 => exact Nat.le_refl 0

/-- Escaped character data begins with a line feed only if the data does. -/
theorem flatMap_escapeChar_eq_feed {cs rest : List Char} (h : cs.flatMap escapeChar = '\n' :: rest) :
    ∃ cs', cs = '\n' :: cs' := by
  cases cs with
  | nil => simp at h
  | cons c cs =>
    rw [List.flatMap_cons] at h
    rcases isSpelling_escapeChar c with ⟨self, -⟩ | ⟨name, -, reference⟩
    · rw [self] at h
      exact ⟨cs, by rw [(List.cons.inj h).1]⟩
    · rw [reference] at h
      exact absurd (List.cons.inj h).1 (by decide)

/-- Line ends are escaped as they are, so normalisation sees them. -/
theorem normalizeLines_flatMap (cs : List Char) :
    normalizeLines (cs.flatMap escapeChar) = (normalizeLines cs).flatMap escapeChar := by
  induction cs using normalizeLines.induct with
  | case1 rest ih =>
    have feed : ('\r' :: '\n' :: rest).flatMap escapeChar = '\r' :: '\n' :: rest.flatMap escapeChar := rfl
    rw [feed, normalizeLines, normalizeLines, ih]
    rfl
  | case2 rest noFeed ih =>
    have lone : ('\r' :: rest).flatMap escapeChar = '\r' :: rest.flatMap escapeChar := rfl
    rw [lone, normalizeLines, normalizeLines, ih]
    · rfl
    · exact noFeed
    · intro rest' eq
      obtain ⟨cs', rfl⟩ := flatMap_escapeChar_eq_feed eq
      exact noFeed cs' rfl
  | case3 c rest noFeed plain ih =>
    have free : '\r' ∉ escapeChar c := by
      rcases isSpelling_escapeChar c with ⟨self, -⟩ | ⟨name, known, reference⟩
      · simpa [self] using fun e => plain e.symm
      · have needless : ∀ p ∈ references, '\r' ∉ '&' :: p.2 ++ [';'] := by decide
        exact reference ▸ needless _ known
    rw [List.flatMap_cons, normalizeLines_append free, ih, normalizeLines, List.flatMap_cons]
    · exact noFeed
    · exact plain
  | case4 => rfl

/-! ## Character data and attribute values -/

theorem splitAt?_eq_some {mark : List Char} : ∀ {cs before rest : List Char},
    splitAt? mark cs = some (before, rest) → cs = before ++ mark ++ rest
  | [], _, _, h => by simp [splitAt?] at h
  | c :: cs, before, rest, h => by
    rw [splitAt?] at h
    cases found : Text.stripPrefix? mark (c :: cs) with
    | some rest' =>
      simp only [found, Option.some.injEq, Prod.mk.injEq] at h
      obtain ⟨rfl, rfl⟩ := h
      exact Text.stripPrefix?_eq_some_iff.mp found
    | none =>
      simp only [found, Option.map_eq_some_iff, Prod.mk.injEq] at h
      obtain ⟨⟨before', rest'⟩, later, rfl, rfl⟩ := h
      rw [splitAt?_eq_some later]
      rfl

theorem holdsSectionEnd_of_not_mem {cs : List Char} (h : '>' ∉ cs) : holdsSectionEnd cs = false := by
  cases found : splitAt? "]]>".toList cs with
  | none => rw [holdsSectionEnd, found, Option.isSome_none]
  | some split =>
    have mem : '>' ∈ cs := by rw [splitAt?_eq_some found]; simp
    exact absurd mem h

/-- **Character data reads back with its line ends normalised**, if it is legal at all. -/
theorem readText?_escape (s : String) :
    readText? (escapeText s) =
      if s.toList.all isChar then some (String.ofList (normalizeLines s.toList)) else none := by
  have noTag := not_mem_flatMap isSpelling_escapeChar (d := '<') (by decide) (by decide) s.toList
  have noEnd := not_mem_flatMap isSpelling_escapeChar (d := '>') (by decide) (by decide) s.toList
  have enough := Nat.le_trans (length_normalizeLines_le s.toList) (length_le_flatMap isSpelling_escapeChar s.toList)
  simp only [readText?, escapeText, String.toList_ofList, all_isChar_flatMap isSpelling_escapeChar,
    normalizeLines_flatMap, decodeValue_flatMap isSpelling_escapeChar (by decide) enough,
    holdsSectionEnd_of_not_mem noEnd, List.contains_eq_mem, noTag]
  simp

/-- Character data reads back as it was exactly if it is legal and has no carriage return. -/
theorem readText?_escape_eq_some_iff (s : String) :
    readText? (escapeText s) = some s ↔ s.toList.all isChar ∧ '\r' ∉ s.toList := by
  rw [readText?_escape, ← normalizeLines_eq_self_iff]
  by_cases legal : s.toList.all isChar = true
  · simp [legal, ← String.toList_inj]
  · simp [legal]

/-- A value without white space other than spaces is only decoded. -/
theorem decodeAttribute_eq {cs : List Char} (noReturn : '\r' ∉ cs) (noFeed : '\n' ∉ cs) (noTab : '\t' ∉ cs) :
    decodeAttribute cs = decodeValue cs.length cs := by
  have kept : ∀ c ∈ cs, (if c == '\n' || c == '\t' then ' ' else c) = c := by
    intro c mem
    have feed : c ≠ '\n' := fun e => noFeed (e ▸ mem)
    have tab : c ≠ '\t' := fun e => noTab (e ▸ mem)
    simp [feed, tab]
  rw [decodeAttribute, (normalizeLines_eq_self_iff cs).mpr noReturn, List.map_congr_left kept, List.map_id']

/-- The value of an attribute is decoded as it was. -/
theorem decodeAttribute_escape (s : String) :
    decodeAttribute (s.toList.flatMap escapeAttributeChar) = some s.toList := by
  have spelled := isSpelling_escapeAttributeChar
  rw [decodeAttribute_eq (not_mem_flatMap spelled (by decide) (by decide) s.toList)
    (not_mem_flatMap spelled (by decide) (by decide) s.toList)
    (not_mem_flatMap spelled (by decide) (by decide) s.toList)]
  exact decodeValue_flatMap spelled (by decide) (length_le_flatMap spelled s.toList)

/-- **An attribute value reads back as it was**, if it is legal at all. -/
theorem readAttributeValue?_escape (s : String) :
    readAttributeValue? (escapeAttribute s) = if s.toList.all isChar then some s else none := by
  have spelled := isSpelling_escapeAttributeChar
  have noTag := not_mem_flatMap spelled (d := '<') (by decide) (by decide) s.toList
  have noQuote := not_mem_flatMap spelled (d := '"') (by decide) (by decide) s.toList
  simp only [readAttributeValue?, escapeAttribute, String.toList_ofList, all_isChar_flatMap spelled,
    decodeAttribute_escape, List.contains_eq_mem, noTag, noQuote]
  simp

end FlowDoc.Xml
