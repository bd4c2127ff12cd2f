import FlowDoc.Proofs.Xml.Part
import FlowDoc.Proofs.Xml.Reading
import FlowDoc.Xml.Fragment

/-!
# Legal characters

Markup may hold only the characters that a reader accepts (`isChar`). Escaping replaces no character that is not legal,
and all else that is printed is, so a printed tree is legal exactly if its names, values and texts are
(**`isLegal_print`**). A reader refuses the other characters, also those that a reference stands for: what a fragment is
read to is legal throughout (**`isLegal_parseFragment`**).
-/

namespace FlowDoc.Xml

/-- Whether a reader accepts all characters of a text. -/
def isLegal (s : String) : Bool := s.toList.all isChar

/-- The legal characters: tab, line feed, carriage return, and all from the space on but for two code points. -/
theorem isChar_iff (c : Char) : isChar c = true ↔
    c = '\t' ∨ c = '\n' ∨ c = '\r' ∨ (0x20 ≤ c.toNat ∧ c.toNat ≤ 0xD7FF) ∨ (0xE000 ≤ c.toNat ∧ c.toNat ≤ 0xFFFD) ∨
      (0x10000 ≤ c.toNat ∧ c.toNat ≤ 0x10FFFF) := by
  have scalar : c.toNat < 0xD800 ∨ 0xDFFF < c.toNat ∧ c.toNat < 0x110000 := c.valid
  have code : ∀ d : Char, c = d ↔ c.toNat = d.toNat := fun d => Char.toNat_inj.symm
  have codes : '\t'.toNat = 9 ∧ '\n'.toNat = 10 ∧ '\r'.toNat = 13 ∧ ' '.toNat = 32 := by decide
  unfold isChar
  split
  · simp only [Text.isMarkupSpace, Bool.or_eq_true, beq_iff_eq, code, codes]
    omega
  · simp only [Bool.and_eq_true, bne_iff_ne, code, codes]
    omega

@[simp] theorem isLegal_append (s t : String) : isLegal (s ++ t) = (isLegal s && isLegal t) := by simp [isLegal]

@[simp] theorem isLegal_ofList (cs : List Char) : isLegal (String.ofList cs) = cs.all isChar := by simp [isLegal]

theorem isLegal_join (l : List String) : isLegal (String.join l) = l.all isLegal := by
  induction l with
  | nil => rfl
  | cons s l ih => rw [String.join_cons, isLegal_append, ih, List.all_cons]

theorem isLegal_intercalate {sep : String} (h : isLegal sep = true) (l : List String) :
    isLegal (sep.intercalate l) = l.all isLegal := by
  induction l with
  | nil => rfl
  | cons s l ih =>
    cases l with
    | nil => simp
    | cons t l =>
      rw [String.intercalate_cons_cons, isLegal_append, isLegal_append, ih, h, Bool.and_true]
      rfl

/-! ## Printing -/

/-- Whether a part is made of legal characters. -/
def Part.isLegal : Part → Bool
  | .tag name => Xml.isLegal name
  | .attribute name value => Xml.isLegal name && Xml.isLegal value
  | .text s => Xml.isLegal s

theorem isLegal_escapeText (s : String) : isLegal (escapeText s) = isLegal s := by
  rw [escapeText, isLegal_ofList, all_isChar_flatMap isSpelling_escapeChar, isLegal]

theorem isLegal_escapeAttribute (s : String) : isLegal (escapeAttribute s) = isLegal s := by
  rw [escapeAttribute, isLegal_ofList, all_isChar_flatMap isSpelling_escapeAttributeChar, isLegal]

theorem isLegal_indentation (width : Nat) (inFlow : Bool) (depth : Nat) :
    isLegal (indentation width inFlow depth) = true := by
  rw [indentation]
  split
  · rfl
  · rw [isLegal_ofList, List.all_eq_true]
    intro c hc
    rw [List.eq_of_mem_replicate hc]
    decide

theorem isLegal_lineEnd (inFlow : Bool) : isLegal (lineEnd inFlow) = true := by
  cases inFlow <;> decide

theorem isLegal_openTag (name : String) (attributes : List (String × String)) :
    isLegal (openTag name attributes) = (isLegal name && (attributes.map attributePart).all Part.isLegal) := by
  have punctuation : isLegal "<" = true ∧ isLegal " " = true ∧ isLegal "=\"" = true ∧ isLegal "\"" = true := by decide
  obtain ⟨bracket, space, equals, quote⟩ := punctuation
  have printed : ∀ a : String × String, isLegal (printAttribute a) = (attributePart a).isLegal := by
    intro a
    simp only [printAttribute, isLegal_append, space, equals, quote, isLegal_escapeAttribute, Bool.true_and,
      Bool.and_true, attributePart, Part.isLegal]
  rw [openTag, isLegal_append, isLegal_append, bracket, Bool.true_and, isLegal_join, List.all_map, List.all_map]
  exact congrArg (isLegal name && ·) (congrArg attributes.all (funext printed))

mutual

/-- **A printed tree is legal exactly if its parts are.** -/
theorem isLegal_print (width : Nat) (inFlow : Bool) (depth : Nat) :
    ∀ c : Content, isLegal (c.print width inFlow depth) = c.parts.all Part.isLegal
  | .text s => by
    rw [Content.print, Content.parts, isLegal_escapeText, List.all_cons, List.all_nil, Bool.and_true, Part.isLegal]
  | .element name attributes closed flow children => by
    have inside := isLegal_printAll width (inFlow || flow) (depth + 1) children
    have tag := isLegal_openTag name attributes
    have punctuation : isLegal "/>" = true ∧ isLegal ">" = true ∧ isLegal "</" = true := by decide
    obtain ⟨slash, bracket, ending⟩ := punctuation
    rw [Content.print, Content.parts, List.all_append, List.all_cons, Part.isLegal]
    cases closed with
    | true => simp only [isLegal_append, isLegal_indentation, isLegal_lineEnd, tag, slash, if_true, Bool.true_and,
        Bool.and_true, List.all_nil]
    | false =>
      simp only [isLegal_append, isLegal_indentation, isLegal_lineEnd, tag, bracket, ending, inside, Bool.false_eq_true,
        if_false, Bool.true_and, Bool.and_true]
      -- the name stands in the end tag again
      cases isLegal name <;> simp

theorem isLegal_printAll (width : Nat) (inFlow : Bool) (depth : Nat) :
    ∀ cs : List Content, isLegal (printAll width inFlow depth cs) = (allParts cs).all Part.isLegal
  | [] => rfl
  | c :: cs => by
    rw [printAll, allParts, isLegal_append, List.all_append, isLegal_print, isLegal_printAll]

end

/-- Characters of names are legal. -/
theorem isChar_of_isNameChar {c : Char} (h : isNameChar c = true) : isChar c = true := by
  have bounded : ∀ r ∈ nameStartRanges ++ nameRanges, 0x20 ≤ r.1 ∧ (r.2 < 0xFFFE ∨ 0xFFFF < r.1) := by decide
  simp only [isNameChar, isNameStart, inSomeRange, Bool.or_eq_true, List.any_eq_true, Bool.and_eq_true,
    decide_eq_true_eq] at h
  obtain ⟨r, hr, least, most⟩ : ∃ r ∈ nameStartRanges ++ nameRanges, r.1 ≤ c.toNat ∧ c.toNat ≤ r.2 := by
    rcases h with ⟨r, hr, inside⟩ | ⟨r, hr, inside⟩
    · exact ⟨r, List.mem_append_left _ hr, inside⟩
    · exact ⟨r, List.mem_append_right _ hr, inside⟩
  obtain ⟨low, high⟩ := bounded r hr
  rw [isChar, if_neg (by omega), Bool.and_eq_true, bne_iff_ne, bne_iff_ne]
  omega

/-! ## Reading -/

theorem isChar_of_readReference? {cs rest : List Char} {c : Char} (h : readReference? cs = some (c, rest)) :
    isChar c = true ∧ ∀ d ∈ rest, d ∈ cs := by
  have named : ∀ {name : List Char}, entity? name = some c → isChar c = true := by
    intro name found
    rw [entity?] at found
    split at found <;> first | (cases found; decide) | cases found
  have numbered : ∀ {n : Option Nat}, n.bind charOfNumber? = some c → isChar c = true := by
    intro n found
    obtain ⟨k, -, found⟩ := Option.bind_eq_some_iff.mp found
    obtain ⟨-, found⟩ := Option.ite_none_left_eq_some.mp found
    obtain ⟨legal, same⟩ := Option.ite_none_right_eq_some.mp found
    cases same
    exact legal
  rw [readReference?] at h
  cases hrest : cs.dropWhile (· != ';') with
  | nil => rw [hrest] at h; cases h
  | cons d rest' =>
    rw [hrest] at h
    obtain ⟨c', found, same⟩ := Option.map_eq_some_iff.mp h
    cases same
    refine ⟨?_, fun d hd => (List.dropWhile_sublist (· != ';')).subset (hrest ▸ List.mem_cons_of_mem _ hd)⟩
    split at found
    · exact numbered found
    · exact numbered found
    · exact named found

theorem all_isChar_decodeValue {fuel : Nat} {cs ds : List Char} (h : decodeValue fuel cs = some ds)
    (legal : ∀ c ∈ cs, isChar c = true) : ∀ d ∈ ds, isChar d = true := by
  induction fuel, cs using decodeValue.induct generalizing ds with
  | case1 fuel =>
    rw [decodeValue] at h
    cases h
    exact List.forall_mem_nil _
  | case2 c cs => cases h
  | case3 fuel rest ih =>
    rw [decodeValue] at h
    obtain ⟨⟨c, rest'⟩, read, h⟩ := Option.bind_eq_some_iff.mp h
    obtain ⟨ds', decoded, same⟩ := Option.bind_eq_some_iff.mp h
    cases same
    obtain ⟨first, inside⟩ := isChar_of_readReference? read
    rw [List.forall_mem_cons] at legal ⊢
    exact ⟨first, ih rest' decoded fun d hd => legal.2 d (inside d hd)⟩
  | case4 fuel c rest plain ih =>
    rw [decodeValue] at h
    · obtain ⟨ds', decoded, rfl⟩ := Option.map_eq_some_iff.mp h
      rw [List.forall_mem_cons] at legal ⊢
      exact ⟨legal.1, ih decoded legal.2⟩
    · exact plain

theorem all_isChar_normalizeLines {cs : List Char} (legal : ∀ c ∈ cs, isChar c = true) :
    ∀ c ∈ normalizeLines cs, isChar c = true := by
  have feed : isChar '\n' = true := by decide
  induction cs using normalizeLines.induct with
  | case1 rest ih =>
    rw [List.forall_mem_cons, List.forall_mem_cons] at legal
    rw [normalizeLines, List.forall_mem_cons]
    exact ⟨feed, ih legal.2.2⟩
  | case2 rest noFeed ih =>
    rw [List.forall_mem_cons] at legal
    rw [normalizeLines, List.forall_mem_cons]
    · exact ⟨feed, ih legal.2⟩
    · exact noFeed
  | case3 c rest noFeed plain ih =>
    rw [List.forall_mem_cons] at legal
    rw [normalizeLines, List.forall_mem_cons]
    · exact ⟨legal.1, ih legal.2⟩
    · exact noFeed
    · exact plain
  | case4 =>
    rw [normalizeLines]
    exact List.forall_mem_nil _

theorem all_isChar_decodeAttribute {cs ds : List Char} (h : decodeAttribute cs = some ds)
    (legal : ∀ c ∈ cs, isChar c = true) : ∀ d ∈ ds, isChar d = true := by
  refine all_isChar_decodeValue h fun c hc => ?_
  obtain ⟨d, hd, rfl⟩ := List.mem_map.mp hc
  split
  · decide
  · exact all_isChar_normalizeLines legal d hd

theorem all_isChar_pushNormalized {before : List Char} {c : Char} (atEnd : Bool)
    (legal : ∀ d ∈ before, isChar d = true) (hc : isChar c = true) :
    ∀ d ∈ pushNormalized before c atEnd, isChar d = true := by
  have feed : isChar '\n' = true := by decide
  have last : isChar (if atEnd && c == '\r' then '\n' else c) = true := by
    split
    · exact feed
    · exact hc
  unfold pushNormalized
  dsimp only
  split
  · rw [List.forall_mem_cons] at legal
    split <;> simp only [List.forall_mem_cons, feed, last, true_and]
    · exact legal.2
    · exact legal.2
  · rw [List.forall_mem_cons]
    exact ⟨last, legal⟩

theorem all_isChar_decodeText {fuel : Nat} {plain : Bool} {before cs ds : List Char}
    (h : decodeText fuel plain before cs = some ds) (legal : ∀ c ∈ cs, isChar c = true)
    (done : ∀ c ∈ before, isChar c = true) : ∀ d ∈ ds, isChar d = true := by
  induction fuel, plain, before, cs using decodeText.induct generalizing ds with
  | case1 fuel plain before =>
    rw [decodeText] at h
    cases h
    exact fun d hd => done d (List.mem_reverse.mp hd)
  | case2 plain before c cs => cases h
  | case3 fuel plain before rest ih =>
    rw [decodeText] at h
    obtain ⟨⟨c, rest'⟩, read, h⟩ := Option.bind_eq_some_iff.mp h
    obtain ⟨first, inside⟩ := isChar_of_readReference? read
    rw [List.forall_mem_cons] at legal
    exact ih c rest' h (fun d hd => legal.2 d (inside d hd)) (List.forall_mem_cons.mpr ⟨first, done⟩)
  | case4 fuel plain before c rest notMark ih =>
    rw [decodeText] at h
    · rw [List.forall_mem_cons] at legal
      refine ih h legal.2 ?_
      split
      · exact List.forall_mem_cons.mpr ⟨legal.1, done⟩
      · exact all_isChar_pushNormalized _ done legal.1
    · exact notMark

/-! ### Tokens -/

/-- Whether the texts and the values of a token are legal. -/
def Token.isLegal : Token → Bool
  | .text s => Xml.isLegal s
  | .opening _ attributes _ => attributes.all fun a => Xml.isLegal a.2
  | .closing _ => true

theorem isLegal_of_readAttribute? {cs rest : List Char} {a : QName × String}
    (h : readAttribute? cs = some (a, rest)) : isLegal a.2 = true := by
  rw [readAttribute?] at h
  obtain ⟨⟨name, rest₁⟩, -, h⟩ := Option.bind_eq_some_iff.mp h
  obtain ⟨rest₂, -, h⟩ := Option.bind_eq_some_iff.mp h
  split at h
  · next quote rest₃ _ =>
    split at h
    · cases h
    · dsimp only at h
      split at h
      · cases h
      · next allowed =>
        obtain ⟨rest₄, -, h⟩ := Option.bind_eq_some_iff.mp h
        obtain ⟨decoded, found, same⟩ := Option.bind_eq_some_iff.mp h
        cases same
        have legal : (rest₃.takeWhile (· != quote)).all isChar = true := by
          simp only [Bool.or_eq_true, Bool.not_eq_true', not_or, Bool.not_eq_false] at allowed
          exact allowed.2
        rw [isLegal_ofList, List.all_eq_true]
        exact all_isChar_decodeAttribute found (List.all_eq_true.mp legal)
  · cases h

theorem isLegal_of_readTag? {fuel : Nat} {cs rest : List Char} {attributes : List (QName × String)} {closed : Bool}
    (h : readTag? fuel cs = some (attributes, closed, rest)) : attributes.all (fun a => isLegal a.2) = true := by
  induction fuel generalizing cs attributes closed rest with
  | zero => cases h
  | succ fuel ih =>
    rw [readTag?] at h
    split at h
    · cases h; rfl
    · cases h; rfl
    · split at h
      · obtain ⟨⟨a, rest₁⟩, read, h⟩ := Option.bind_eq_some_iff.mp h
        obtain ⟨⟨others, closed', rest₂⟩, more, same⟩ := Option.bind_eq_some_iff.mp h
        cases same
        rw [List.all_cons, isLegal_of_readAttribute? read, ih more]
        rfl
      · cases h

theorem isLegal_of_readToken? {cs rest : List Char} {t : Token} (h : readToken? cs = some (some t, rest)) :
    t.isLegal = true := by
  unfold readToken? at h
  split at h
  · obtain ⟨⟨comment, rest₁⟩, -, h⟩ := Option.bind_eq_some_iff.mp h
    dsimp only at h
    split at h <;> cases h
  · obtain ⟨rest₁, -, h⟩ := Option.bind_eq_some_iff.mp h
    obtain ⟨⟨marked, rest₂⟩, -, h⟩ := Option.bind_eq_some_iff.mp h
    dsimp only at h
    split at h
    · next legal =>
      cases h
      rw [Token.isLegal, isLegal_ofList, List.all_eq_true]
      exact all_isChar_normalizeLines (List.all_eq_true.mp legal)
    · cases h
  · obtain ⟨⟨instruction, rest₁⟩, -, h⟩ := Option.bind_eq_some_iff.mp h
    dsimp only at h
    split at h <;> cases h
  · obtain ⟨⟨name, rest₁⟩, -, h⟩ := Option.bind_eq_some_iff.mp h
    obtain ⟨rest₂, -, h⟩ := Option.bind_eq_some_iff.mp h
    cases h
    rfl
  · obtain ⟨⟨name, rest₁⟩, -, h⟩ := Option.bind_eq_some_iff.mp h
    obtain ⟨⟨attributes, closed, rest₂⟩, read, h⟩ := Option.bind_eq_some_iff.mp h
    cases h
    exact isLegal_of_readTag? read
  · dsimp only at h
    split at h
    · next allowed =>
      obtain ⟨decoded, found, h⟩ := Option.bind_eq_some_iff.mp h
      cases h
      rw [Token.isLegal, isLegal_ofList, List.all_eq_true]
      exact all_isChar_decodeText found (List.all_eq_true.mp (Bool.and_eq_true_iff.mp allowed).1)
        (List.forall_mem_nil _)
    · cases h

/-- Tokens are legal. -/
theorem isLegal_of_tokensFrom {fuel : Nat} {cs : List Char} {ts : List Token} (h : tokensFrom fuel cs = some ts) :
    ∀ t ∈ ts, t.isLegal = true := by
  induction fuel generalizing cs ts with
  | zero =>
    cases cs with
    | nil => cases h; exact List.forall_mem_nil _
    | cons c cs => cases h
  | succ fuel ih =>
    cases cs with
    | nil => cases h; exact List.forall_mem_nil _
    | cons c cs =>
      rw [tokensFrom] at h
      obtain ⟨⟨token?, rest⟩, read, h⟩ := Option.bind_eq_some_iff.mp h
      obtain ⟨more, later, same⟩ := Option.bind_eq_some_iff.mp h
      cases same
      refine List.forall_mem_append.mpr ⟨fun t ht => ?_, ih later⟩
      obtain rfl := Option.mem_toList.mp ht
      exact isLegal_of_readToken? read

/-! ### Nodes -/

mutual

/-- Whether the texts and the values in a node are legal. -/
def Node.isLegal : Node → Bool
  | .text s => Xml.isLegal s
  | .element _ _ attributes children => (attributes.all fun a => Xml.isLegal a.value) && nodesLegal children

def nodesLegal : List Node → Bool
  | [] => true
  | n :: ns => n.isLegal && nodesLegal ns

end

theorem nodesLegal_eq (ns : List Node) : nodesLegal ns = ns.all Node.isLegal := by
  induction ns with
  | nil => rfl
  | cons n ns ih => rw [nodesLegal, ih, List.all_cons]

/-- What is mapped from a list comes from it. -/
theorem exists_of_mapM {α β : Type} {f : α → Option β} : ∀ {l : List α} {r : List β}, l.mapM f = some r →
    ∀ b ∈ r, ∃ a ∈ l, f a = some b
  | [], _, h => by
    cases h
    exact List.forall_mem_nil _
  | a :: l, r, h => by
    rw [List.mapM_cons] at h
    obtain ⟨b, first, h⟩ := Option.bind_eq_some_iff.mp h
    obtain ⟨bs, rest, same⟩ := Option.bind_eq_some_iff.mp h
    cases same
    rw [List.forall_mem_cons]
    refine ⟨⟨a, List.mem_cons_self, first⟩, fun b' hb' => ?_⟩
    obtain ⟨a', ha', found⟩ := exists_of_mapM rest b' hb'
    exact ⟨a', List.mem_cons_of_mem a ha', found⟩

theorem value_of_attribute? {scope : Scope} {a : QName × String} {b : Attribute} (h : attribute? scope a = some b) :
    b.value = a.2 := by
  unfold attribute? at h
  split at h
  · cases h; rfl
  · split at h
    · cases h; rfl
    · obtain ⟨space, -, rfl⟩ := Option.map_eq_some_iff.mp h
      rfl

/-- What a start tag opens: its declarations are ahead of the scope, in which its other attributes are resolved. -/
theorem openElement?_eq_some {scope : Scope} {name : QName} {attributes : List (QName × String)} {e : OpenElement}
    (h : openElement? scope name attributes = some e) :
    ∃ declarations, (attributes.filter isDeclaration).mapM declaration? = some declarations ∧
      e.scope = declarations.flatten ++ scope ∧
      (attributes.filter (!isDeclaration ·)).mapM (attribute? e.scope) = some e.attributes ∧
      e.tag = name ∧ e.children = [] := by
  rw [openElement?] at h
  split at h
  · cases h
  obtain ⟨-, -, h⟩ := Option.bind_eq_some_iff.mp h
  obtain ⟨declarations, declared, h⟩ := Option.bind_eq_some_iff.mp h
  dsimp only at h
  split at h
  · cases h
  obtain ⟨-, -, h⟩ := Option.bind_eq_some_iff.mp h
  obtain ⟨space, -, h⟩ := Option.bind_eq_some_iff.mp h
  obtain ⟨resolved, found, h⟩ := Option.bind_eq_some_iff.mp h
  split at h
  · cases h
  cases h
  exact ⟨declarations, declared, rfl, found, rfl, rfl⟩

theorem isLegal_of_openElement? {scope : Scope} {name : QName} {attributes : List (QName × String)} {e : OpenElement}
    (h : openElement? scope name attributes = some e) (legal : attributes.all (fun a => isLegal a.2) = true) :
    (e.attributes.all fun a => isLegal a.value) = true ∧ e.children = [] := by
  obtain ⟨-, -, -, found, -, none⟩ := openElement?_eq_some h
  refine ⟨List.all_eq_true.mpr fun b hb => ?_, none⟩
  obtain ⟨a, ha, same⟩ := exists_of_mapM found b hb
  rw [value_of_attribute? same]
  exact List.all_eq_true.mp legal a (List.mem_filter.mp ha).1

namespace Assembly

/-- Whether all that has been read is legal. -/
structure IsLegal (a : Assembly) : Prop where
  stack : ∀ e ∈ a.stack, (e.attributes.all fun b => isLegal b.value) = true ∧ ∀ n ∈ e.children, n.isLegal = true
  nodes : ∀ n ∈ a.nodes, n.isLegal = true

theorem IsLegal.add {a : Assembly} (h : a.IsLegal) {n : Node} (hn : n.isLegal = true) : (a.add n).IsLegal := by
  obtain ⟨stack, nodes⟩ := a
  obtain ⟨opened, closed⟩ := h
  cases stack with
  | nil => exact ⟨List.forall_mem_nil _, List.forall_mem_cons.mpr ⟨hn, closed⟩⟩
  | cons e rest =>
    rw [List.forall_mem_cons] at opened
    exact ⟨List.forall_mem_cons.mpr ⟨⟨opened.1.1, List.forall_mem_cons.mpr ⟨hn, opened.1.2⟩⟩, opened.2⟩, closed⟩

theorem isLegal_close {e : OpenElement} (attributes : (e.attributes.all fun b => isLegal b.value) = true)
    (children : ∀ n ∈ e.children, n.isLegal = true) : e.close.isLegal = true := by
  rw [OpenElement.close, Node.isLegal, attributes, Bool.true_and, nodesLegal_eq, List.all_eq_true]
  exact fun n hn => children n (List.mem_reverse.mp hn)

theorem IsLegal.step {base : Scope} {a a' : Assembly} {t : Token} (h : a.IsLegal) (ht : t.isLegal = true)
    (hs : a.step base t = some a') : a'.IsLegal := by
  cases t with
  | text s => cases hs; exact h.add ht
  | opening name attributes closed =>
    rw [Assembly.step] at hs
    obtain ⟨e, opened, same⟩ := Option.bind_eq_some_iff.mp hs
    obtain ⟨legal, none⟩ := isLegal_of_openElement? opened ht
    have children : ∀ n ∈ e.children, n.isLegal = true := none ▸ List.forall_mem_nil _
    cases closed with
    | true => cases same; exact h.add (isLegal_close legal children)
    | false => cases same; exact ⟨List.forall_mem_cons.mpr ⟨⟨legal, children⟩, h.stack⟩, h.nodes⟩
  | closing name =>
    obtain ⟨stack, nodes⟩ := a
    obtain ⟨opened, closed⟩ := h
    cases stack with
    | nil => cases hs
    | cons e rest =>
      rw [List.forall_mem_cons] at opened
      obtain ⟨-, same⟩ := Option.ite_none_right_eq_some.mp hs
      cases same
      have outside : Assembly.IsLegal ⟨rest, nodes⟩ := ⟨opened.2, closed⟩
      exact outside.add (isLegal_close opened.1.1 opened.1.2)

theorem IsLegal.run {base : Scope} {ts : List Token} {a a' : Assembly} (h : a.IsLegal)
    (ht : ∀ t ∈ ts, t.isLegal = true) (hs : ts.foldlM (Assembly.step base) a = some a') : a'.IsLegal := by
  induction ts generalizing a with
  | nil => cases hs; exact h
  | cons t ts ih =>
    rw [List.foldlM_cons] at hs
    obtain ⟨b, first, rest⟩ := Option.bind_eq_some_iff.mp hs
    rw [List.forall_mem_cons] at ht
    exact ih (h.step ht.1 first) ht.2 rest

end Assembly

/-- **What a fragment is read to is legal.** -/
theorem isLegal_parseFragment {scope : Scope} {s : String} {nodes : List Node}
    (h : parseFragment? scope s = some nodes) : ∀ n ∈ nodes, n.isLegal = true := by
  rw [parseFragment?] at h
  obtain ⟨ts, read, h⟩ := Option.bind_eq_some_iff.mp h
  obtain ⟨a, assembled, h⟩ := Option.bind_eq_some_iff.mp h
  have empty : Assembly.IsLegal {} := ⟨List.forall_mem_nil _, List.forall_mem_nil _⟩
  have legal := empty.run (isLegal_of_tokensFrom read) assembled
  obtain ⟨-, same⟩ := Option.ite_none_right_eq_some.mp h
  cases same
  exact fun n hn => legal.nodes n (List.mem_reverse.mp hn)

end FlowDoc.Xml
