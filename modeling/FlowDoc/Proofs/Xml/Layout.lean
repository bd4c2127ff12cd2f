import FlowDoc.Proofs.Xml.Run

/-!
# Layout of printed markup

Flow content is printed without layout at any width (`print_isFlow`). Elsewhere layout is a text of its own before each
child and after the last one, if all texts of a tree, and all elements that are marked to keep white space, are flow
content (`Content.IsPrintable`). So what is printed at two widths is read to trees that differ in that layout alone
(**`sameLayout_print`**).

The proof reads the two texts side by side: element by element both are refused, or both are read to nodes that differ
in layout (`reads_core`), and so with the children behind the same tags (`reads_printAll`). Flow content is the same
text at both widths, so that it is read to anything at all is enough (`exists_reads`).
-/

namespace FlowDoc.Xml

/-! ## Markup without layout -/

mutual

/-- A node as it is printed without any layout. -/
def Content.bare : Content → String
  | .text s => escapeText s
  | .element name attributes closed _ children =>
    openTag name attributes ++ if closed then "/>" else ">" ++ bareAll children ++ "</" ++ name ++ ">"

/-- Nodes without any layout. -/
def bareAll : List Content → String
  | [] => ""
  | c :: cs => c.bare ++ bareAll cs

end

mutual

/-- In flow content there is no layout. -/
theorem print_inFlow (width depth : Nat) : ∀ c : Content, c.print width true depth = c.bare
  | .text s => by rw [Content.print, Content.bare]
  | .element name attributes closed flow children => by
    have inside := printAll_inFlow width (depth + 1) children
    rw [Content.print, Content.bare, Bool.true_or, inside]
    simp [indentation, lineEnd]

theorem printAll_inFlow (width depth : Nat) : ∀ cs : List Content, printAll width true depth cs = bareAll cs
  | [] => by rw [printAll, bareAll]
  | c :: cs => by rw [printAll, bareAll, print_inFlow, printAll_inFlow]

end

/-- Whether an element is flow content. -/
def Content.isFlow : Content → Bool
  | .text _ => false
  | .element _ _ _ flow _ => flow

/-- Whether an element is marked to keep white space. -/
def Content.keepsSpace : Content → Bool
  | .text _ => false
  | .element _ attributes _ _ _ => attributes.contains ("xml:space", "preserve")

/-- An element with flow content has layout around it, but not inside. -/
theorem print_isFlow {c : Content} (h : c.isFlow = true) (width : Nat) (inFlow : Bool) (depth : Nat) :
    c.print width inFlow depth = indentation width inFlow depth ++ c.bare ++ lineEnd inFlow := by
  cases c with
  | text s => cases h
  | element name attributes closed flow children =>
    obtain rfl : flow = true := h
    have inside := printAll_inFlow width (depth + 1) children
    rw [Content.print, Content.bare, Bool.or_true, inside]
    simp [indentation, lineEnd, String.append_assoc]

/-- That a node stands somewhere in a tree. -/
inductive Content.Within (c : Content) : Content → Prop
  | self : Within c c
  | child {name : String} {attributes : List (String × String)} {closed flow : Bool} {children : List Content}
      {d : Content} : d ∈ children → Within c d → Within c (.element name attributes closed flow children)

mutual

/-- That the names in a tree are names, and that text, and an element that keeps white space, is flow content. -/
def Content.IsPrintable (inFlow : Bool) : Content → Prop
  | .text _ => inFlow = true
  | .element name attributes _ flow children =>
    IsQualified name ∧ (∀ a ∈ attributes, IsQualified a.1) ∧ (("xml:space", "preserve") ∈ attributes → flow = true) ∧
      ArePrintable (inFlow || flow) children

def ArePrintable (inFlow : Bool) : List Content → Prop
  | [] => True
  | c :: cs => c.IsPrintable inFlow ∧ ArePrintable inFlow cs

end

theorem arePrintable_iff {inFlow : Bool} {cs : List Content} :
    ArePrintable inFlow cs ↔ ∀ c ∈ cs, c.IsPrintable inFlow := by
  induction cs with
  | nil => simp [ArePrintable]
  | cons c cs ih => rw [ArePrintable, ih, List.forall_mem_cons]

theorem arePrintable_append {inFlow : Bool} {cs ds : List Content} :
    ArePrintable inFlow (cs ++ ds) ↔ ArePrintable inFlow cs ∧ ArePrintable inFlow ds := by
  simp only [arePrintable_iff, List.forall_mem_append]

/-- Elements that keep white space are flow content. -/
theorem Content.IsPrintable.isFlow {inFlow : Bool} {c d : Content} (h : d.IsPrintable inFlow) (within : c.Within d)
    (keeps : c.keepsSpace = true) : c.isFlow = true := by
  induction within generalizing inFlow with
  | self =>
    cases c with
    | text s => cases keeps
    | element name attributes closed flow children => exact h.2.2.1 (List.contains_iff_mem.mp keeps)
  | child mem _ ih => exact ih (arePrintable_iff.mp h.2.2.2 _ mem)

/-! ## Two readings of one tree -/

/-- White space between tags. -/
def IsLayout (p : List Char) : Prop := p ≠ [] ∧ ∀ c ∈ p, c = '\n' ∨ c = ' '

/-- Whether attributes as they are read say that white space is kept. -/
def keepsSpace (attributes : List Attribute) : Bool := attributes.contains ⟨some xmlNamespace, "space", "preserve"⟩

mutual

/-- **That two readings of an element differ in layout alone.** They are the same if it is one tag or flow content.
Else they have the same name and attributes, none of which says that white space is kept, and there is layout before
each child and after the last one. -/
inductive SameLayout : Content → Node → Node → Prop
  | same {name : String} {attributes : List (String × String)} {closed flow : Bool} {children : List Content}
      {n : Node} : closed = true ∨ flow = true → SameLayout (.element name attributes closed flow children) n n
  | laidOut {name own : String} {attributes : List (String × String)} {children : List Content}
      {space : Option String} {as : List Attribute} {ns ms : List Node} {s t : String} : keepsSpace as = false →
      SameLayouts children ns ms → IsLayout s.toList → IsLayout t.toList →
      SameLayout (.element name attributes false false children) (.element space own as (ns ++ [.text s]))
        (.element space own as (ms ++ [.text t]))

inductive SameLayouts : List Content → List Node → List Node → Prop
  | nil : SameLayouts [] [] []
  | cons {c : Content} {cs : List Content} {n m : Node} {ns ms : List Node} {s t : String} : IsLayout s.toList →
      IsLayout t.toList → SameLayout c n m → SameLayouts cs ns ms →
      SameLayouts (c :: cs) (.text s :: n :: ns) (.text t :: m :: ms)

end

/-! ## Reading layout -/

theorem IsLayout.ne {p : List Char} (h : IsLayout p) {c : Char} (feed : c ≠ '\n') (space : c ≠ ' ') : c ∉ p :=
  fun mem => (h.2 c mem).elim feed space

/-- Characters without references and carriage returns are a text as they are. -/
theorem decodeText_eq : ∀ {fuel : Nat} {before p : List Char}, p.length ≤ fuel → '&' ∉ p → '\r' ∉ p → '\r' ∉ before →
    decodeText fuel false before p = some (before.reverse ++ p)
  | fuel, before, [], _, _, _, _ => by rw [decodeText, List.append_nil]
  | fuel + 1, before, c :: p, enough, noMark, noReturn, ahead => by
    simp only [List.mem_cons, not_or] at noMark noReturn
    have pushed : pushNormalized before c p.isEmpty = c :: before := by
      have kept : (if p.isEmpty && c == '\r' then '\n' else c) = c := by simp [Ne.symm noReturn.1]
      rw [pushNormalized, kept]
      rintro before' rfl
      exact ahead List.mem_cons_self
    have ahead' : '\r' ∉ c :: before := by simpa using ⟨noReturn.1, ahead⟩
    have rest := decodeText_eq (Nat.le_of_succ_le_succ enough) noMark.2 noReturn.2 ahead'
    rw [decodeText, pushed]
    · simpa using rest
    · exact Ne.symm noMark.1

/-- **Layout is read as a text of its own.** -/
theorem flush_layout {p : List Char} (h : IsLayout p) : flush p = some [.text (String.ofList p)] := by
  have legal : p.all isChar = true := by
    rw [List.all_eq_true]
    intro c hc
    rcases h.2 c hc with rfl | rfl <;> decide
  have noEnd : holdsSectionEnd p = false := holdsSectionEnd_of_not_mem (h.ne (by decide) (by decide))
  have decoded : decodeText p.length false [] p = some p :=
    decodeText_eq (Nat.le_refl _) (h.ne (by decide) (by decide)) (h.ne (by decide) (by decide)) List.not_mem_nil
  rw [flush, List.isEmpty_eq_false_iff.mpr h.1, readData?, legal, noEnd, decoded]
  rfl

theorem IsLayout.ofList {p : List Char} (h : IsLayout p) : IsLayout (String.ofList p).toList := by
  rwa [String.toList_ofList]

theorem isLayout_lineEnd : IsLayout (lineEnd false).toList := by
  have feed : (lineEnd false).toList = ['\n'] := by decide
  rw [feed]
  exact ⟨List.cons_ne_nil _ _, fun c hc => .inl (List.mem_singleton.mp hc)⟩

theorem IsLayout.indented {p : List Char} (h : IsLayout p) (width depth : Nat) :
    IsLayout (p ++ (indentation width false depth).toList) := by
  refine ⟨fun e => h.1 (List.append_eq_nil_iff.mp e).1, fun c hc => ?_⟩
  rcases List.mem_append.mp hc with hc | hc
  · exact h.2 c hc
  · rw [indentation, if_neg Bool.false_ne_true, String.toList_ofList] at hc
    exact .inr (List.eq_of_mem_replicate hc)

/-! ## Reading elements -/

/-- The characters of an element around those of its content. -/
def elementChars (name : String) (attributes : List (String × String)) (closed : Bool) (body : List Char) : List Char :=
  (openTag name attributes).toList ++
    (tagEnd closed ++ if closed then [] else body ++ '<' :: '/' :: (name.toList ++ ['>']))

/-- The content of an element as it is printed. -/
def bodyChars (width : Nat) (inside : Bool) (depth : Nat) (children : List Content) : List Char :=
  (lineEnd inside).toList ++ ((printAll width inside (depth + 1) children).toList ++
    (indentation width inside depth).toList)

theorem exists_elementChars (name : String) (attributes : List (String × String)) (closed : Bool) (body : List Char) :
    ∃ cs, elementChars name attributes closed body = '<' :: cs := by
  simp [elementChars, openTag]

theorem toList_print_element (width : Nat) (inFlow : Bool) (depth : Nat) (name : String)
    (attributes : List (String × String)) (closed flow : Bool) (children : List Content) :
    ((Content.element name attributes closed flow children).print width inFlow depth).toList =
      (indentation width inFlow depth).toList ++
        (elementChars name attributes closed (bodyChars width (inFlow || flow) depth children) ++
          (lineEnd inFlow).toList) := by
  cases closed <;> simp [Content.print, elementChars, bodyChars, tagEnd, List.append_assoc]

theorem bodyChars_inFlow (width depth : Nat) (children : List Content) :
    bodyChars width true depth children = (bareAll children).toList := by
  simp [bodyChars, printAll_inFlow, indentation, lineEnd]

/-- What the content of an element is read to, up to a tag. -/
def ReadsContent (σ : Scope) (cs : List Char) (r : Option (List Node)) : Prop :=
  ∀ base (a : Assembly) rest, a.scope base = σ →
    a.read base (cs ++ '<' :: rest) = r.bind fun ns => (a.addAll ns).read base ('<' :: rest)

theorem Reads.content {σ : Scope} {cs : List Char} {r : Option (List Node × List Char)} (h : Reads σ cs r)
    (free : ∀ x, r = some x → '<' ∉ x.2) :
    ReadsContent σ cs (r.bind fun x => (flush x.2).map (x.1 ++ ·)) := by
  intro base a rest scope
  rw [h base a ('<' :: rest) scope]
  cases r with
  | none => rfl
  | some x =>
    rw [Option.bind_some, Option.bind_some, Assembly.read_data (free x rfl) (by simp)]
    cases flush x.2 with
    | none => rfl
    | some ns => rw [Option.bind_some, Option.map_some, Option.bind_some, Assembly.addAll_append]

/-- Whether no prefix in scope stands for the namespace of the prefix that needs no declaration. -/
def IsClean (σ : Scope) : Prop := ∀ d ∈ σ, d.2 ≠ xmlNamespace

theorem isClean_of_declaration? {a : QName × String} {declared : List (String × String)}
    (h : declaration? a = some declared) : IsClean declared := by
  intro d hd
  unfold declaration? at h
  dsimp only at h
  split at h
  · cases h
  split at h
  · split at h
    · split at h
      · cases h; cases hd
      · cases h
    · split at h
      · cases h
      · next other =>
        cases h
        rw [List.mem_singleton.mp hd]
        exact fun same => other (beq_iff_eq.mpr same)
  · split at h
    · cases h
    · next other =>
      cases h
      rw [List.mem_singleton.mp hd]
      exact fun same => other (beq_iff_eq.mpr same)

/-- In a clean scope one name is that of the attribute that keeps white space. -/
theorem attribute?_space {σ : Scope} (clean : IsClean σ) {a : QName × String} {value : String}
    (h : attribute? σ a = some ⟨some xmlNamespace, "space", value⟩) : a = (⟨"xml", "space"⟩, value) := by
  obtain ⟨⟨pre, name⟩, v⟩ := a
  rw [attribute?] at h
  split at h
  · cases h
  · split at h
    · next xml =>
      cases h
      obtain rfl : pre = "xml" := eq_of_beq xml
      rfl
    · obtain ⟨space, found, same⟩ := Option.map_eq_some_iff.mp h
      cases same
      rw [elementSpace?] at found
      split at found
      · next uri bound =>
        cases found
        obtain ⟨ahead, behind, rfl, -⟩ := List.lookup_eq_some_iff.mp bound
        exact absurd rfl (clean (_, xmlNamespace) (List.mem_append_right ahead List.mem_cons_self))
      · split at found <;> cases found

theorem AreRead.exists_mem {attributes : List (String × String)} {as : List (QName × String)}
    (h : AreRead attributes as) {a : QName × String} (ha : a ∈ as) :
    ∃ name, Spells name a.1 ∧ (name, a.2) ∈ attributes := by
  induction h with
  | nil => cases ha
  | cons spelled _ ih =>
    rcases List.mem_cons.mp ha with rfl | ha
    · exact ⟨_, spelled, List.mem_cons_self⟩
    · obtain ⟨name, spelled', mem⟩ := ih ha
      exact ⟨name, spelled', List.mem_cons_of_mem _ mem⟩

section Element

variable {σ : Scope} {name : String} {n : QName} {attributes : List (String × String)} {as : List (QName × String)}
  {closed : Bool}

/-- What a tag opens has the name of the tag and nothing in it yet, and keeps scopes clean. -/
theorem opened?_eq_some {e : OpenElement} (h : opened? σ n attributes as = some e) :
    e.tag = n ∧ e.children = [] ∧ (IsClean σ → IsClean e.scope) := by
  obtain ⟨-, opened⟩ := Option.ite_none_right_eq_some.mp h
  obtain ⟨declarations, declared, scope, -, tag, empty⟩ := openElement?_eq_some opened
  refine ⟨tag, empty, fun clean d hd => ?_⟩
  rw [scope] at hd
  rcases List.mem_append.mp hd with hd | hd
  · obtain ⟨b, hb, inside⟩ := List.mem_flatten.mp hd
    obtain ⟨a, -, found⟩ := exists_of_mapM declared b hb
    exact isClean_of_declaration? found d inside
  · exact clean d hd

/-- A tag keeps white space only if that is one of its attributes as it is printed. -/
theorem keepsSpace_eq_false {e : OpenElement} (h : opened? σ n attributes as = some e) (clean : IsClean σ)
    (ha : AreRead attributes as) (unmarked : ("xml:space", "preserve") ∉ attributes) :
    keepsSpace e.attributes = false := by
  obtain ⟨-, opened⟩ := Option.ite_none_right_eq_some.mp h
  obtain ⟨-, -, -, resolved, -, -⟩ := openElement?_eq_some opened
  rw [Bool.eq_false_iff]
  intro keeps
  obtain ⟨a, mem, found⟩ := exists_of_mapM resolved _ (List.contains_iff_mem.mp keeps)
  obtain rfl := attribute?_space ((opened?_eq_some h).2.2 clean) found
  obtain ⟨name, spelled, listed⟩ := ha.exists_mem (List.mem_filter.mp mem).1
  have space : Spells "xml:space" ⟨"xml", "space"⟩ :=
    .prefixed (show isPlainName "xml" = true by decide) (show isPlainName "space" = true by decide)
  have same : name = "xml:space" := spelled.injective space (by decide)
  exact unmarked (same ▸ listed)

/-- The node of an element with its content. -/
def OpenElement.node (e : OpenElement) (ns : List Node) : Node := .element e.space e.tag.name e.attributes ns

/-- The start tag of an element, and what is then left of it. -/
theorem read_elementChars (hn : Spells name n) (ha : AreRead attributes as) (body : List Char) {base : Scope}
    {a : Assembly} (scope : a.scope base = σ) (rest : List Char) :
    a.read base (elementChars name attributes closed body ++ rest) =
      (opened? σ n attributes as).bind fun e =>
        if closed then (a.addAll [e.close]).read base rest
        else (a.push e).read base (body ++ '<' :: '/' :: (name.toList ++ '>' :: rest)) := by
  rw [elementChars, List.append_assoc, List.append_assoc, Assembly.read_openTag hn ha, scope]
  cases opened? σ n attributes as with
  | none => rfl
  | some e => cases closed <;> simp

theorem reads_refused (hn : Spells name n) (ha : AreRead attributes as) (ho : opened? σ n attributes as = none)
    (body : List Char) : Reads σ (elementChars name attributes closed body) none := by
  intro base a rest scope
  rw [read_elementChars hn ha body scope, ho]
  rfl

theorem reads_closed (hn : Spells name n) (ha : AreRead attributes as) {e : OpenElement}
    (ho : opened? σ n attributes as = some e) (empty : e.children = []) (body : List Char) :
    Reads σ (elementChars name attributes true body) (some ([e.node []], [])) := by
  intro base a rest scope
  rw [read_elementChars hn ha body scope, ho, Option.bind_some, if_pos rfl, OpenElement.close, empty]
  rfl

theorem reads_pair (hn : Spells name n) (ha : AreRead attributes as) {e : OpenElement}
    (ho : opened? σ n attributes as = some e) (empty : e.children = []) (tag : e.tag = n) {body : List Char}
    {r : Option (List Node)} (hb : ReadsContent e.scope body r) :
    Reads σ (elementChars name attributes false body) (r.map fun ns => ([e.node ns], [])) := by
  intro base a rest scope
  have inside := hb base (a.push e) ('/' :: (name.toList ++ '>' :: rest)) rfl
  rw [read_elementChars hn ha body scope, ho, Option.bind_some, if_neg Bool.false_ne_true, inside]
  cases r with
  | none => rfl
  | some ns =>
    have closing : (a.push { e with children := ns.reverse }).read base
        ('<' :: '/' :: (name.toList ++ '>' :: rest)) = _ := Assembly.read_endTag hn tag
    rw [Option.bind_some, Assembly.addAll_push, empty, List.append_nil, closing, OpenElement.close,
      List.reverse_reverse]
    rfl

end Element

/-! ## Flow content -/

/-- An element whose content is read in any scope is read itself. -/
theorem exists_reads_element {name : String} {attributes : List (String × String)} (hn : IsQualified name)
    (ha : ∀ a ∈ attributes, IsQualified a.1) (closed : Bool) {body : List Char}
    (hb : ∀ σ, ∃ r, Reads σ body r ∧ ∀ x, r = some x → '<' ∉ x.2) (σ : Scope) :
    ∃ r : Option Node, Reads σ (elementChars name attributes closed body) (r.map fun n => ([n], [])) := by
  obtain ⟨n, spelled⟩ := hn.spells
  obtain ⟨as, read⟩ := exists_areRead ha
  cases opened : opened? σ n attributes as with
  | none => exact ⟨none, reads_refused spelled read opened body⟩
  | some e =>
    obtain ⟨tag, empty, -⟩ := opened?_eq_some opened
    cases closed with
    | true => exact ⟨some (e.node []), reads_closed spelled read opened empty body⟩
    | false =>
      obtain ⟨r, inside, free⟩ := hb e.scope
      have element := reads_pair spelled read opened empty tag (inside.content free)
      exact ⟨Option.map e.node _, by rwa [Option.map_map]⟩

mutual

/-- **Flow content** is read to something, in any scope and behind any pending characters. -/
theorem exists_reads : ∀ (c : Content) (σ : Scope) (p : List Char), c.IsPrintable true → '<' ∉ p →
    ∃ r, Reads σ (p ++ c.bare.toList) r ∧ ∀ x, r = some x → '<' ∉ x.2
  | .text s, σ, p, _, free => by
    have escaped : '<' ∉ (escapeText s).toList := by
      rw [escapeText, String.toList_ofList]
      exact not_mem_flatMap isSpelling_escapeChar (by decide) (by decide) s.toList
    -- a reader takes adjacent texts as one, so this one joins what is pending
    refine ⟨_, Reads.pending σ _, fun x hx => ?_⟩
    cases hx
    exact List.not_mem_append free escaped
  | .element name attributes closed flow children, σ, p, h, free => by
    obtain ⟨hn, ha, -, inside⟩ := h
    obtain ⟨r, read⟩ := exists_reads_element hn ha closed
      (fun σ => exists_readsAll children σ [] inside List.not_mem_nil) σ
    obtain ⟨cs, chars⟩ := exists_elementChars name attributes closed (bareAll children).toList
    have bare : (Content.element name attributes closed flow children).bare.toList =
        elementChars name attributes closed (bareAll children).toList := by
      cases closed <;> simp [Content.bare, elementChars, tagEnd]
    rw [bare, chars]
    rw [List.nil_append, chars] at read
    refine ⟨_, read.data free, ?_⟩
    cases flush p with
    | none => exact fun x hx => by cases hx
    | some ns =>
      cases r with
      | none => exact fun x hx => by cases hx
      | some n => exact fun x hx => by cases hx; exact List.not_mem_nil

theorem exists_readsAll : ∀ (cs : List Content) (σ : Scope) (p : List Char), ArePrintable true cs → '<' ∉ p →
    ∃ r, Reads σ (p ++ (bareAll cs).toList) r ∧ ∀ x, r = some x → '<' ∉ x.2
  | [], σ, p, _, free => by
    refine ⟨_, Reads.pending σ _, fun x hx => ?_⟩
    cases hx
    exact List.not_mem_append free List.not_mem_nil
  | c :: cs, σ, p, h, free => by
    obtain ⟨first, read, pending⟩ := exists_reads c σ p h.1 free
    rw [bareAll, String.toList_append, ← List.append_assoc]
    cases first with
    | none => exact ⟨none, read.refused _, fun x hx => by cases hx⟩
    | some x =>
      obtain ⟨rest, more, last⟩ := exists_readsAll cs σ x.2 h.2 (pending x rfl)
      refine ⟨_, read.append more, fun y hy => ?_⟩
      obtain ⟨z, rfl, rfl⟩ := Option.map_eq_some_iff.mp hy
      exact last z rfl

end

/-! ## Layout around children -/

/-- The text of an element between the layout around it. -/
def Content.core (width depth : Nat) : Content → List Char
  | .text s => (escapeText s).toList
  | .element name attributes closed flow children =>
    elementChars name attributes closed (bodyChars width flow depth children)

/-- One child, with the layout before it and what comes after it. -/
theorem Reads.laidOut {σ : Scope} {p cs ds : List Char} {n : Node} {r : Option (List Node × List Char)}
    (hp : IsLayout p) (h : Reads σ ('<' :: cs) (some ([n], []))) (more : Reads σ ds r) :
    Reads σ (p ++ '<' :: cs ++ ds) (r.map fun y => (.text (String.ofList p) :: n :: y.1, y.2)) := by
  have child := h.data (p := p) (hp.ne (by decide) (by decide))
  rw [flush_layout hp] at child
  exact child.append more

/-- A child that is refused. -/
theorem Reads.laidOut_refused {σ : Scope} {p cs : List Char} (hp : IsLayout p) (h : Reads σ ('<' :: cs) none)
    (ds : List Char) : Reads σ (p ++ '<' :: cs ++ ds) none := by
  have child := h.data (p := p) (hp.ne (by decide) (by decide))
  rw [flush_layout hp] at child
  exact Reads.refused child ds

/-- The characters of a child and of those after it. -/
theorem toList_printAll_cons {c : Content} (h : c.IsPrintable false) (width depth : Nat) (p : List Char)
    (cs : List Content) : ∃ core, c.core width depth = '<' :: core ∧
      p ++ (printAll width false depth (c :: cs)).toList =
        p ++ (indentation width false depth).toList ++ '<' :: core ++
          ((lineEnd false).toList ++ (printAll width false depth cs).toList) := by
  cases c with
  | text s => cases h
  | element name attributes closed flow children =>
    obtain ⟨core, chars⟩ := exists_elementChars name attributes closed (bodyChars width flow depth children)
    refine ⟨core, chars, ?_⟩
    rw [printAll, String.toList_append, toList_print_element, Bool.false_or, chars]
    simp only [List.append_assoc, List.cons_append]

/-- The layout after the last child. -/
theorem readsContent_body {σ : Scope} {width depth : Nat} {children : List Content}
    {r : Option (List Node × List Char)}
    (h : Reads σ ((lineEnd false).toList ++ (printAll width false (depth + 1) children).toList) r)
    (layout : ∀ x, r = some x → IsLayout x.2) :
    ReadsContent σ (bodyChars width false depth children)
      (r.map fun x => x.1 ++ [.text (String.ofList (x.2 ++ (indentation width false depth).toList))]) := by
  rw [bodyChars, ← List.append_assoc]
  cases r with
  | none => exact (h.refused _).content fun x hx => by cases hx
  | some x =>
    have last : IsLayout (x.2 ++ (indentation width false depth).toList) := (layout x rfl).indented width depth
    have content := (h.append (Reads.pending σ _)).content fun y hy => by
      cases hy
      exact last.ne (by decide) (by decide)
    simpa only [Option.map_some, Option.bind_some, flush_layout last, List.append_nil] using content

/-- An element with layout around its children. -/
theorem reads_laidOut {σ : Scope} {name : String} {n : QName} {attributes : List (String × String)}
    {as : List (QName × String)} {e : OpenElement} {w₁ w₂ depth : Nat} {children : List Content}
    {r₁ r₂ : Option (List Node × List Char)} (hn : Spells name n) (ha : AreRead attributes as)
    (opened : opened? σ n attributes as = some e) (keeps : keepsSpace e.attributes = false)
    (read₁ : Reads e.scope ((lineEnd false).toList ++ (printAll w₁ false (depth + 1) children).toList) r₁)
    (read₂ : Reads e.scope ((lineEnd false).toList ++ (printAll w₂ false (depth + 1) children).toList) r₂)
    (same : Option.Rel (fun x y => IsLayout x.2 ∧ IsLayout y.2 ∧ SameLayouts children x.1 y.1) r₁ r₂) :
    ∃ r₁ r₂ : Option Node,
      Reads σ (elementChars name attributes false (bodyChars w₁ false depth children)) (r₁.map fun n => ([n], [])) ∧
      Reads σ (elementChars name attributes false (bodyChars w₂ false depth children)) (r₂.map fun n => ([n], [])) ∧
      Option.Rel (SameLayout (.element name attributes false false children)) r₁ r₂ := by
  obtain ⟨tag, empty, -⟩ := opened?_eq_some opened
  cases same with
  | none =>
    have body₁ := readsContent_body read₁ fun x hx => by cases hx
    have body₂ := readsContent_body read₂ fun x hx => by cases hx
    exact ⟨none, none, reads_pair hn ha opened empty tag body₁, reads_pair hn ha opened empty tag body₂, .none⟩
  | some same =>
    obtain ⟨last₁, last₂, alike⟩ := same
    have body₁ := readsContent_body read₁ fun x hx => by cases hx; exact last₁
    have body₂ := readsContent_body read₂ fun x hx => by cases hx; exact last₂
    exact ⟨some _, some _, reads_pair hn ha opened empty tag body₁, reads_pair hn ha opened empty tag body₂,
      .some (.laidOut keeps alike (last₁.indented w₁ depth).ofList (last₂.indented w₂ depth).ofList)⟩

mutual

/-- **Elements.** At two widths an element is read alike. -/
theorem reads_core (w₁ w₂ : Nat) : ∀ (c : Content) (depth : Nat) (σ : Scope), c.IsPrintable false → IsClean σ →
    ∃ r₁ r₂ : Option Node, Reads σ (c.core w₁ depth) (r₁.map fun n => ([n], [])) ∧
      Reads σ (c.core w₂ depth) (r₂.map fun n => ([n], [])) ∧ Option.Rel (SameLayout c) r₁ r₂
  | .text _, _, _, h, _ => by cases h
  | .element name attributes closed true children, depth, σ, ⟨hn, ha, _, inside⟩, _ => by
    obtain ⟨r, read⟩ := exists_reads_element hn ha closed
      (fun σ => exists_readsAll children σ [] inside List.not_mem_nil) σ
    -- both texts are one, so one reading serves twice
    rw [Content.core, Content.core, bodyChars_inFlow, bodyChars_inFlow]
    refine ⟨r, r, read, read, ?_⟩
    cases r with
    | none => exact .none
    | some n => exact .some (.same (.inr rfl))
  | .element name attributes closed false children, depth, σ, ⟨hn, ha, marked, inside⟩, clean => by
    obtain ⟨n, spelled⟩ := hn.spells
    obtain ⟨as, read⟩ := exists_areRead ha
    rw [Content.core, Content.core]
    cases opened : opened? σ n attributes as with
    | none =>
      exact ⟨none, none, reads_refused spelled read opened _, reads_refused spelled read opened _, .none⟩
    | some e =>
      obtain ⟨tag, empty, scope⟩ := opened?_eq_some opened
      cases closed with
      | true =>
        exact ⟨some (e.node []), some (e.node []), reads_closed spelled read opened empty _,
          reads_closed spelled read opened empty _, .some (.same (.inl rfl))⟩
      | false =>
        have unmarked : ("xml:space", "preserve") ∉ attributes := fun mem => absurd (marked mem) Bool.false_ne_true
        have keeps := keepsSpace_eq_false opened clean read unmarked
        obtain ⟨r₁, r₂, read₁, read₂, same⟩ := reads_printAll w₁ w₂ children (depth + 1) e.scope _ _ inside
          (scope clean) isLayout_lineEnd isLayout_lineEnd
        exact reads_laidOut spelled read opened keeps read₁ read₂ same

/-- **Children.** -/
theorem reads_printAll (w₁ w₂ : Nat) : ∀ (cs : List Content) (depth : Nat) (σ : Scope) (p₁ p₂ : List Char),
    ArePrintable false cs → IsClean σ → IsLayout p₁ → IsLayout p₂ →
      ∃ r₁ r₂ : Option (List Node × List Char), Reads σ (p₁ ++ (printAll w₁ false depth cs).toList) r₁ ∧
        Reads σ (p₂ ++ (printAll w₂ false depth cs).toList) r₂ ∧
          Option.Rel (fun x y => IsLayout x.2 ∧ IsLayout y.2 ∧ SameLayouts cs x.1 y.1) r₁ r₂
  | [], _, σ, p₁, p₂, _, _, h₁, h₂ => by
    rw [printAll, printAll, String.toList_empty, List.append_nil, List.append_nil]
    exact ⟨_, _, Reads.pending σ p₁, Reads.pending σ p₂, .some ⟨h₁, h₂, .nil⟩⟩
  | c :: cs, depth, σ, p₁, p₂, h, clean, h₁, h₂ => by
    obtain ⟨core₁, chars₁, printed₁⟩ := toList_printAll_cons h.1 w₁ depth p₁ cs
    obtain ⟨core₂, chars₂, printed₂⟩ := toList_printAll_cons h.1 w₂ depth p₂ cs
    obtain ⟨first₁, first₂, read₁, read₂, same⟩ := reads_core w₁ w₂ c depth σ h.1 clean
    have ahead₁ := h₁.indented w₁ depth
    have ahead₂ := h₂.indented w₂ depth
    rw [chars₁] at read₁
    rw [chars₂] at read₂
    rw [printed₁, printed₂]
    cases same with
    | none => exact ⟨none, none, Reads.laidOut_refused ahead₁ read₁ _, Reads.laidOut_refused ahead₂ read₂ _, .none⟩
    | @some n m same =>
      obtain ⟨r₁, r₂, more₁, more₂, alike⟩ := reads_printAll w₁ w₂ cs depth σ _ _ h.2 clean isLayout_lineEnd
        isLayout_lineEnd
      refine ⟨_, _, Reads.laidOut ahead₁ read₁ more₁, Reads.laidOut ahead₂ read₂ more₂, ?_⟩
      cases alike with
      | none => exact .none
      | some alike =>
        obtain ⟨last₁, last₂, children⟩ := alike
        exact .some ⟨last₁, last₂, .cons ahead₁.ofList ahead₂.ofList same children⟩

end

/-- A printed root element stands alone on its lines. -/
theorem parseFragment?_print {c : Content} (h : c.IsPrintable false) {width : Nat} {r : Option Node}
    (read : Reads [] (c.core width 0) (r.map fun n => ([n], []))) :
    parseFragment? [] (c.print width false 0) = r.map fun n => [n, .text "\n"] := by
  have printed : (c.print width false 0).toList = c.core width 0 ++ (lineEnd false).toList := by
    cases c with
    | text s => cases h
    | element name attributes closed flow children =>
      rw [toList_print_element, Content.core, Bool.false_or]
      simp [indentation]
  cases r with
  | none => exact parseFragment?_of_reads (printed ▸ read.refused _) fun x hx => by cases hx
  | some n =>
    have ending : Reads [] ([] ++ (lineEnd false).toList) (some ([], (lineEnd false).toList)) := Reads.pending [] _
    have whole := read.append ending
    rw [← printed] at whole
    rw [parseFragment?_of_reads whole fun x hx => by cases hx; exact isLayout_lineEnd.ne (by decide) (by decide)]
    simp only [Option.map_some, Option.bind_some, flush_layout isLayout_lineEnd]
    rfl

/-- **A printed element at two widths** is refused at both, or read as elements that differ in layout alone. -/
theorem sameLayout_print {c : Content} (h : c.IsPrintable false) (w₁ w₂ : Nat) :
    Option.Rel (fun ns ms => ∃ n m, ns = [n, .text "\n"] ∧ ms = [m, .text "\n"] ∧ SameLayout c n m)
      (parseFragment? [] (c.print w₁ false 0)) (parseFragment? [] (c.print w₂ false 0)) := by
  obtain ⟨r₁, r₂, read₁, read₂, same⟩ := reads_core w₁ w₂ c 0 [] h (fun d hd => by cases hd)
  rw [parseFragment?_print h read₁, parseFragment?_print h read₂]
  cases same with
  | none => exact .none
  | some same => exact .some ⟨_, _, rfl, rfl, same⟩

end FlowDoc.Xml
