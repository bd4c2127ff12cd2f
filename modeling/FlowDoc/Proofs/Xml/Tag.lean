import FlowDoc.Proofs.Xml.Legal
import FlowDoc.Proofs.Xml.Name

/-!
# Reading printed markup token by token

What a reader makes of a printed tag does not depend on what follows it: a start tag is refused if a value in it is not
legal, and else read with its attributes as they were (**`readToken?_openTag`**), and an end tag is read. Characters
before a tag are one text (`readToken?_data`).
-/

namespace FlowDoc.Xml

/-- The end of a start tag, or of an empty-element tag. -/
def tagEnd (closed : Bool) : List Char := if closed then ['/', '>'] else ['>']

/-- Whether attributes are those that were printed, with their names as they are read. -/
inductive AreRead : List (String × String) → List (QName × String) → Prop
  | nil : AreRead [] []
  | cons {name value : String} {n : QName} {attributes : List (String × String)} {as : List (QName × String)} :
      Spells name n → AreRead attributes as → AreRead ((name, value) :: attributes) ((n, value) :: as)

/-- Whether the values of attributes are legal. -/
def valuesLegal (attributes : List (String × String)) : Bool := attributes.all fun a => isLegal a.2

theorem exists_areRead {attributes : List (String × String)} (h : ∀ a ∈ attributes, IsQualified a.1) :
    ∃ as, AreRead attributes as := by
  induction attributes with
  | nil => exact ⟨[], .nil⟩
  | cons a attributes ih =>
    rw [List.forall_mem_cons] at h
    obtain ⟨n, spelled⟩ := h.1.spells
    obtain ⟨as, read⟩ := ih h.2
    exact ⟨(n, a.2) :: as, .cons spelled read⟩

/-! ## Characters that end names -/

theorem stopsName_tagEnd (closed : Bool) (rest : List Char) : StopsName (tagEnd closed ++ rest) := by
  cases closed <;> exact stopsName_cons (by decide) _

/-- What a name begins with opens no other markup. -/
theorem isNameStart_ne {c : Char} (h : isNameStart c = true) :
    c ≠ '!' ∧ c ≠ '?' ∧ c ≠ '/' ∧ c ≠ '>' ∧ Text.isMarkupSpace c = false := by
  have none : ['!', '?', '/', '>', ' ', '\t', '\n', '\r'].any isNameStart = false := by decide
  have other : ∀ d ∈ ['!', '?', '/', '>', ' ', '\t', '\n', '\r'], c ≠ d := by
    rintro d hd rfl
    exact List.any_eq_false.mp none c hd h
  simp only [List.forall_mem_cons] at other
  obtain ⟨mark, question, slash, bracket, space, tab, feed, ret, -⟩ := other
  exact ⟨mark, question, slash, bracket, by simp [Text.isMarkupSpace, space, tab, feed, ret]⟩

theorem skipSpaces_cons {c : Char} (h : Text.isMarkupSpace c = false) (cs : List Char) :
    skipSpaces (c :: cs) = c :: cs := by
  rw [skipSpaces, List.dropWhile_cons, h]
  rfl

/-! ## Tags -/

/-- **Attributes.** A printed attribute is read back if its value is legal. -/
theorem readAttribute?_print {name : String} {n : QName} (h : Spells name n) (value : String) (rest : List Char) :
    readAttribute? (name.toList ++ '=' :: '"' :: ((escapeAttribute value).toList ++ '"' :: rest)) =
      if isLegal value then some ((n, value), rest) else none := by
  have spelled := isSpelling_escapeAttributeChar
  have noTag := not_mem_flatMap spelled (d := '<') (by decide) (by decide) value.toList
  have noQuote := not_mem_flatMap spelled (d := '"') (by decide) (by decide) value.toList
  have inside : ∀ c ∈ value.toList.flatMap escapeAttributeChar, (c != '"') = true := by
    intro c hc
    rw [bne_iff_ne]
    rintro rfl
    exact noQuote hc
  have equals : skipSpaces ('=' :: '"' :: ((escapeAttribute value).toList ++ '"' :: rest)) = _ :=
    skipSpaces_cons (by decide) _
  have quote : skipSpaces ('"' :: ((escapeAttribute value).toList ++ '"' :: rest)) = _ :=
    skipSpaces_cons (by decide) _
  rw [readAttribute?, h.read (stopsName_cons (by decide) _)]
  simp only [Option.bind_eq_bind, Option.bind_some, equals, Text.stripPrefix?, if_true, quote]
  rw [escapeAttribute, String.toList_ofList, List.takeWhile_append_of_pos inside, List.dropWhile_append_of_pos inside,
    isLegal]
  cases legal : value.toList.all isChar <;>
    simp [noTag, all_isChar_flatMap spelled, legal, decodeAttribute_escape, Text.stripPrefix?,
      -List.all_flatMap]

/-- The characters of a printed attribute. -/
theorem toList_printAttribute (name value : String) (rest : List Char) :
    (printAttribute (name, value)).toList ++ rest =
      ' ' :: (name.toList ++ '=' :: '"' :: ((escapeAttribute value).toList ++ '"' :: rest)) := by
  simp [printAttribute]

/-- A space and the start of a name are followed by an attribute. -/
theorem readTag?_name {c : Char} (h : isNameStart c = true) (fuel : Nat) (cs : List Char) :
    readTag? (fuel + 1) (' ' :: c :: cs) = (readAttribute? (c :: cs)).bind fun r =>
      (readTag? fuel r.2).map fun t => (r.1 :: t.1, t.2) := by
  obtain ⟨-, -, slash, bracket, other⟩ := isNameStart_ne h
  have space : Text.isMarkupSpace ' ' = true := by decide
  have skipped : skipSpaces (' ' :: c :: cs) = c :: cs := skipSpaces_cons other cs
  rw [readTag?, skipped]
  simp only [List.head?_cons, Option.any_some, space, if_true, Option.map_eq_bind]
  split
  · next same => exact absurd (List.cons.inj same).1 bracket
  · next same => exact absurd (List.cons.inj same).1 slash
  · rfl

/-- The attributes of a printed tag, up to its end. -/
theorem readTag?_print {attributes : List (String × String)} {as : List (QName × String)}
    (h : AreRead attributes as) (closed : Bool) (rest : List Char) {fuel : Nat} (enough : attributes.length < fuel) :
    readTag? fuel ((String.join (attributes.map printAttribute)).toList ++ (tagEnd closed ++ rest)) =
      if valuesLegal attributes then some (as, closed, rest) else none := by
  induction h generalizing fuel with
  | nil =>
    obtain ⟨fuel, rfl⟩ : ∃ k, fuel = k + 1 := ⟨fuel - 1, by omega⟩
    cases closed <;> rfl
  | @cons name value n attributes as spelled read ih =>
    obtain ⟨fuel, rfl⟩ : ∃ k, fuel = k + 1 := ⟨fuel - 1, by omega⟩
    obtain ⟨c, cs, chars, start⟩ := spelled.start
    rw [List.length_cons] at enough
    have inner := ih (Nat.lt_of_succ_lt_succ enough)
    have first := readAttribute?_print spelled value
      ((String.join (attributes.map printAttribute)).toList ++ (tagEnd closed ++ rest))
    rw [List.map_cons, String.join_cons, String.toList_append, List.append_assoc, toList_printAttribute]
    rw [chars, List.cons_append] at first ⊢
    rw [readTag?_name start, first, valuesLegal, List.all_cons]
    cases isLegal value with
    | false => rfl
    | true =>
      simp only [if_true, Option.bind_some, inner, Bool.true_and]
      rw [← valuesLegal]
      cases valuesLegal attributes <;> rfl

/-! ## Tokens -/

/-- The text that characters without a tag are read to. -/
def readData? (p : List Char) : Option String :=
  if p.all isChar && !holdsSectionEnd p then (decodeText p.length false [] p).map String.ofList else none

theorem length_le_join (attributes : List (String × String)) (rest : List Char) :
    attributes.length ≤ ((String.join (attributes.map printAttribute)).toList ++ rest).length := by
  induction attributes with
  | nil => exact Nat.zero_le _
  | cons a attributes ih =>
    obtain ⟨name, value⟩ := a
    rw [List.map_cons, String.join_cons, String.toList_append, List.append_assoc, toList_printAttribute]
    simp only [List.length_cons, List.length_append] at ih ⊢
    omega

/-- A bracket and the start of a name are a start tag. -/
theorem readToken?_name {c : Char} (h : isNameStart c = true) (cs : List Char) :
    readToken? ('<' :: c :: cs) = (readQName? (c :: cs)).bind fun r =>
      (readTag? (r.2.length + 1) r.2).map fun t => (some (.opening r.1 t.1 t.2.1), t.2.2) := by
  obtain ⟨mark, question, slash, -, -⟩ := isNameStart_ne h
  simp only [Option.map_eq_bind]
  unfold readToken?
  split
  · next same => exact absurd (List.cons.inj (List.cons.inj same).2).1 mark
  · next same => exact absurd (List.cons.inj (List.cons.inj same).2).1 mark
  · next same => exact absurd (List.cons.inj (List.cons.inj same).2).1 question
  · next same => exact absurd (List.cons.inj (List.cons.inj same).2).1 slash
  · next same =>
    cases same
    rfl
  · next none => exact absurd rfl (none _)

/-- **Start tags.** -/
theorem readToken?_openTag {name : String} {n : QName} (hn : Spells name n) {attributes : List (String × String)}
    {as : List (QName × String)} (ha : AreRead attributes as) (closed : Bool) (rest : List Char) :
    readToken? ((openTag name attributes).toList ++ (tagEnd closed ++ rest)) =
      if valuesLegal attributes then some (some (.opening n as closed), rest) else none := by
  obtain ⟨c, cs, chars, start⟩ := hn.start
  have stop : StopsName ((String.join (attributes.map printAttribute)).toList ++ (tagEnd closed ++ rest)) := by
    cases attributes with
    | nil => exact stopsName_tagEnd closed rest
    | cons a attributes =>
      rw [List.map_cons, String.join_cons, String.toList_append, List.append_assoc, toList_printAttribute]
      exact stopsName_cons (by decide) _
  have tag := readTag?_print ha closed rest (Nat.lt_succ_of_le (length_le_join attributes (tagEnd closed ++ rest)))
  have read := hn.read stop
  have printed : (openTag name attributes).toList ++ (tagEnd closed ++ rest) =
      '<' :: (name.toList ++ ((String.join (attributes.map printAttribute)).toList ++ (tagEnd closed ++ rest))) := by
    simp [openTag]
  rw [printed]
  rw [chars, List.cons_append] at read ⊢
  rw [readToken?_name start, read, Option.bind_some, tag]
  cases valuesLegal attributes <;> rfl

/-- **End tags.** -/
theorem readToken?_endTag {name : String} {n : QName} (hn : Spells name n) (rest : List Char) :
    readToken? ('<' :: '/' :: (name.toList ++ '>' :: rest)) = some (some (.closing n), rest) := by
  have read := hn.read (stopsName_cons (show isNameChar '>' = false ∧ '>' ≠ ':' by decide) rest)
  have bracket : skipSpaces ('>' :: rest) = '>' :: rest := skipSpaces_cons (by decide) rest
  rw [readToken?, read]
  simp [bracket, Text.stripPrefix?]

/-- **Character data** up to the next tag. -/
theorem readToken?_data {p rest : List Char} (nonempty : p ≠ []) (noTag : '<' ∉ p)
    (stop : ∀ c ∈ rest.head?, c = '<') :
    readToken? (p ++ rest) = (readData? p).map fun s => (some (.text s), rest) := by
  have inside : ∀ c ∈ p, (c != '<') = true := by
    intro c hc
    rw [bne_iff_ne]
    rintro rfl
    exact noTag hc
  have taken : (p ++ rest).takeWhile (· != '<') = p ∧ (p ++ rest).dropWhile (· != '<') = rest :=
    span_append inside fun c hc => by rw [stop c hc]; rfl
  obtain ⟨c, p, rfl⟩ := List.exists_cons_of_ne_nil nonempty
  have other : c ≠ '<' := fun e => noTag (e ▸ List.mem_cons_self)
  unfold readToken?
  split
  all_goals first
    | next same => exact absurd (List.cons.inj same).1 other
    | skip
  rw [taken.1, taken.2, readData?]
  dsimp only
  cases (c :: p).all isChar && !holdsSectionEnd (c :: p) with
  | false => rfl
  | true => cases decodeText (c :: p).length false [] (c :: p) <;> rfl

end FlowDoc.Xml
