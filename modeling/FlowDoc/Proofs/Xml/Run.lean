import FlowDoc.Proofs.Xml.Tag

/-!
# Runs of the reader

Each token takes a character at least, so the fuel of the reader never runs out (`tokensFrom_fuel`), and a run can be
followed token by token from any assembly on (`Assembly.read`). What a part of a text is read to does not depend on what
is around it but for the scope that it stands in and the characters at its end, which may belong to a text that goes on
(`Reads`).
-/

namespace FlowDoc.Xml

/-! ## Progress -/

theorem length_skipSpaces_le (cs : List Char) : (skipSpaces cs).length ≤ cs.length :=
  (List.dropWhile_sublist _).length_le

theorem length_of_readQName? {cs rest : List Char} {n : QName} (h : readQName? cs = some (n, rest)) :
    rest.length ≤ cs.length := by
  have dropped : (cs.dropWhile isNameChar).length ≤ cs.length := (List.dropWhile_sublist _).length_le
  rw [readQName?] at h
  split at h
  · next rest' eq =>
    have inner : (rest'.dropWhile isNameChar).length ≤ rest'.length := (List.dropWhile_sublist _).length_le
    rw [eq, List.length_cons] at dropped
    obtain ⟨-, same⟩ := Option.ite_none_right_eq_some.mp h
    cases same
    omega
  · obtain ⟨-, same⟩ := Option.ite_none_right_eq_some.mp h
    cases same
    exact dropped

theorem length_of_stripPrefix? {mark cs rest : List Char} (h : Text.stripPrefix? mark cs = some rest) :
    rest.length + mark.length = cs.length := by
  rw [Text.stripPrefix?_eq_some_iff.mp h, List.length_append, Nat.add_comm]

theorem length_of_splitAt? {mark cs before rest : List Char} (h : splitAt? mark cs = some (before, rest)) :
    rest.length ≤ cs.length := by
  rw [splitAt?_eq_some h, List.length_append]
  exact Nat.le_add_left _ _

theorem length_of_readAttribute? {cs rest : List Char} {a : QName × String}
    (h : readAttribute? cs = some (a, rest)) : rest.length ≤ cs.length := by
  rw [readAttribute?] at h
  obtain ⟨⟨name, rest₁⟩, hname, h⟩ := Option.bind_eq_some_iff.mp h
  obtain ⟨rest₂, equals, h⟩ := Option.bind_eq_some_iff.mp h
  have first := length_of_readQName? hname
  have second := length_of_stripPrefix? equals
  have spaces := length_skipSpaces_le rest₁
  have spaces' := length_skipSpaces_le rest₂
  split at h
  · next quote rest₃ eq =>
    split at h
    · cases h
    · dsimp only at h
      split at h
      · cases h
      · obtain ⟨rest₄, closing, h⟩ := Option.bind_eq_some_iff.mp h
        obtain ⟨decoded, -, same⟩ := Option.bind_eq_some_iff.mp h
        cases same
        have third := length_of_stripPrefix? closing
        have value : (rest₃.dropWhile (· != quote)).length ≤ rest₃.length := (List.dropWhile_sublist _).length_le
        rw [eq, List.length_cons] at spaces'
        omega
  · cases h

theorem length_of_readTag? {fuel : Nat} {cs rest : List Char} {attributes : List (QName × String)} {closed : Bool}
    (h : readTag? fuel cs = some (attributes, closed, rest)) : rest.length ≤ cs.length := by
  induction fuel generalizing cs attributes closed rest with
  | zero => cases h
  | succ fuel ih =>
    have spaces := length_skipSpaces_le cs
    rw [readTag?] at h
    split at h
    · next eq => cases h; rw [eq, List.length_cons] at spaces; omega
    · next eq => cases h; rw [eq, List.length_cons, List.length_cons] at spaces; omega
    · split at h
      · obtain ⟨⟨a, rest₁⟩, read, h⟩ := Option.bind_eq_some_iff.mp h
        obtain ⟨⟨others, closed', rest₂⟩, more, same⟩ := Option.bind_eq_some_iff.mp h
        cases same
        exact Nat.le_trans (ih more) (Nat.le_trans (length_of_readAttribute? read) spaces)
      · cases h

/-- A comment, a marked section and an instruction end behind a mark. -/
theorem length_of_marked (allowed : List Char → Bool) (token : List Char → Option Token) {mark cs rest : List Char}
    {token? : Option Token}
    (h : ((splitAt? mark cs).bind fun x => if allowed x.1 then some (token x.1, x.2) else none) = some (token?, rest)) :
    rest.length ≤ cs.length := by
  obtain ⟨⟨inside, rest'⟩, split, h⟩ := Option.bind_eq_some_iff.mp h
  obtain ⟨-, same⟩ := Option.ite_none_right_eq_some.mp h
  cases same
  exact length_of_splitAt? split

/-- A token takes at least one character. -/
theorem length_of_readToken? {c : Char} {cs rest : List Char} {token? : Option Token}
    (h : readToken? (c :: cs) = some (token?, rest)) : rest.length ≤ cs.length := by
  unfold readToken? at h
  split at h
  · next same =>
    cases same
    have comment := length_of_marked isComment (fun _ => none) h
    simp only [List.length_cons]
    omega
  · next same =>
    cases same
    obtain ⟨rest₁, opening, h⟩ := Option.bind_eq_some_iff.mp h
    have marked := length_of_marked (·.all isChar) (fun s => some (.text (String.ofList (normalizeLines s)))) h
    have ahead := length_of_stripPrefix? opening
    simp only [List.length_cons]
    omega
  · next same =>
    cases same
    have instruction := length_of_marked isInstruction (fun _ => none) h
    simp only [List.length_cons]
    omega
  · next same =>
    cases same
    obtain ⟨⟨name, rest₁⟩, hname, h⟩ := Option.bind_eq_some_iff.mp h
    obtain ⟨rest₂, bracket, same⟩ := Option.bind_eq_some_iff.mp h
    cases same
    have ending := length_of_readQName? hname
    have spaces := length_skipSpaces_le rest₁
    have closing := length_of_stripPrefix? bracket
    simp only [List.length_cons]
    omega
  · next same =>
    cases same
    obtain ⟨⟨name, rest₁⟩, hname, h⟩ := Option.bind_eq_some_iff.mp h
    obtain ⟨⟨attributes, closed, rest₂⟩, tag, same⟩ := Option.bind_eq_some_iff.mp h
    cases same
    exact Nat.le_trans (length_of_readTag? tag) (length_of_readQName? hname)
  · next notTag =>
    have other : (c != '<') = true := by
      rw [bne_iff_ne]
      rintro rfl
      exact notTag cs rfl
    dsimp only at h
    obtain ⟨-, h⟩ := Option.ite_none_right_eq_some.mp h
    obtain ⟨decoded, -, same⟩ := Option.bind_eq_some_iff.mp h
    cases same
    rw [List.dropWhile_cons, if_pos other]
    exact (List.dropWhile_sublist _).length_le

/-- So more fuel than there are characters changes nothing. -/
theorem tokensFrom_fuel {n m : Nat} {cs : List Char} (hn : cs.length ≤ n) (hm : cs.length ≤ m) :
    tokensFrom n cs = tokensFrom m cs := by
  induction n generalizing m cs with
  | zero =>
    obtain rfl : cs = [] := List.length_eq_zero_iff.mp (Nat.le_zero.mp hn)
    cases m <;> rfl
  | succ n ih =>
    cases cs with
    | nil => cases m <;> rfl
    | cons c cs =>
      obtain ⟨m, rfl⟩ : ∃ k, m = k + 1 := ⟨m - 1, by rw [List.length_cons] at hm; omega⟩
      rw [List.length_cons] at hn hm
      rw [tokensFrom, tokensFrom]
      cases read : readToken? (c :: cs) with
      | none => rfl
      | some r =>
        obtain ⟨token?, rest⟩ := r
        have shorter := length_of_readToken? read
        have same : tokensFrom n rest = tokensFrom m rest := ih (by omega) (by omega)
        simp only [Option.bind_eq_bind, Option.bind_some, same]

/-! ## Runs -/

/-- The text that pending characters become. -/
def flush (p : List Char) : Option (List Node) :=
  if p.isEmpty then some [] else (readData? p).map fun s => [.text s]

/-- What a tag opens, if its values are legal and its names resolve. -/
def opened? (σ : Scope) (n : QName) (attributes : List (String × String)) (as : List (QName × String)) :
    Option OpenElement :=
  if valuesLegal attributes then openElement? σ n as else none

namespace Assembly

variable {base : Scope} {a : Assembly} {rest : List Char}

/-- Add nodes to the innermost open element. -/
def addAll (a : Assembly) (ns : List Node) : Assembly := ns.foldl add a

/-- Open an element. -/
def push (a : Assembly) (e : OpenElement) : Assembly := { a with stack := e :: a.stack }

theorem addAll_append (a : Assembly) (ns ms : List Node) : a.addAll (ns ++ ms) = (a.addAll ns).addAll ms :=
  List.foldl_append

@[simp] theorem scope_addAll (base : Scope) (a : Assembly) (ns : List Node) :
    (a.addAll ns).scope base = a.scope base := by
  induction ns generalizing a with
  | nil => rfl
  | cons n ns ih =>
    refine (ih (a.add n)).trans ?_
    obtain ⟨stack, nodes⟩ := a
    cases stack <;> rfl

theorem addAll_push (a : Assembly) (e : OpenElement) (ns : List Node) :
    (a.push e).addAll ns = a.push { e with children := ns.reverse ++ e.children } := by
  induction ns generalizing e with
  | nil => rfl
  | cons n ns ih =>
    refine (ih { e with children := n :: e.children }).trans ?_
    rw [List.reverse_cons, List.append_assoc]
    rfl

theorem addAll_start (ns : List Node) : ({} : Assembly).addAll ns = { nodes := ns.reverse } := by
  have all : ∀ nodes, addAll { nodes } ns = { nodes := ns.reverse ++ nodes } := by
    induction ns with
    | nil => exact fun _ => rfl
    | cons n ns ih =>
      intro nodes
      refine (ih (n :: nodes)).trans ?_
      rw [List.reverse_cons, List.append_assoc]
      rfl
  rw [all, List.append_nil]

/-- What an assembly becomes when a text is read to its end. -/
def read (base : Scope) (a : Assembly) (cs : List Char) : Option Assembly :=
  (tokensFrom cs.length cs).bind fun ts => ts.foldlM (step base) a

theorem read_nil (base : Scope) (a : Assembly) : a.read base [] = some a := rfl

/-- A run begins with the first token. -/
theorem read_cons (base : Scope) (a : Assembly) (c : Char) (cs : List Char) :
    a.read base (c :: cs) = (readToken? (c :: cs)).bind fun r =>
      (tokensFrom r.2.length r.2).bind fun ts => (r.1.toList ++ ts).foldlM (step base) a := by
  rw [read, List.length_cons, tokensFrom]
  cases token : readToken? (c :: cs) with
  | none => rfl
  | some r =>
    obtain ⟨token?, rest⟩ := r
    have fuel : tokensFrom cs.length rest = tokensFrom rest.length rest :=
      tokensFrom_fuel (length_of_readToken? token) (Nat.le_refl _)
    simp only [Option.bind_eq_bind, Option.bind_some, fuel]
    cases tokensFrom rest.length rest <;> rfl

/-- A token is taken, and the run goes on. -/
theorem read_token {cs : List Char} {t : Token} (nonempty : cs ≠ []) (h : readToken? cs = some (some t, rest)) :
    a.read base cs = (a.step base t).bind fun a => a.read base rest := by
  obtain ⟨c, cs, rfl⟩ := List.exists_cons_of_ne_nil nonempty
  rw [read_cons, h]
  simp only [Option.bind_some, Option.toList_some, List.singleton_append, List.foldlM_cons, Option.bind_eq_bind, read]
  cases tokensFrom rest.length rest with
  | none => cases a.step base t <;> rfl
  | some ts => rfl

theorem read_none {cs : List Char} (nonempty : cs ≠ []) (h : readToken? cs = none) : a.read base cs = none := by
  obtain ⟨c, cs, rfl⟩ := List.exists_cons_of_ne_nil nonempty
  rw [read_cons, h]
  rfl

/-- **Character data** becomes a text. -/
theorem read_data {p : List Char} (noTag : '<' ∉ p) (stop : ∀ c ∈ rest.head?, c = '<') :
    a.read base (p ++ rest) = (flush p).bind fun ns => (a.addAll ns).read base rest := by
  by_cases nonempty : p = []
  · subst nonempty
    rfl
  · have token := readToken?_data nonempty noTag stop
    have more : p ++ rest ≠ [] := fun e => nonempty (List.append_eq_nil_iff.mp e).1
    rw [flush, List.isEmpty_eq_false_iff.mpr nonempty]
    cases data : readData? p with
    | none => rw [data] at token; exact read_none more token
    | some s => rw [data] at token; exact read_token more token

/-- **Start tags** open an element, or add it. -/
theorem read_openTag {name : String} {n : QName} (hn : Spells name n) {attributes : List (String × String)}
    {as : List (QName × String)} (ha : AreRead attributes as) (closed : Bool) (rest : List Char) :
    a.read base ((openTag name attributes).toList ++ (tagEnd closed ++ rest)) =
      (opened? (a.scope base) n attributes as).bind fun e =>
        (if closed then a.addAll [e.close] else a.push e).read base rest := by
  have token := readToken?_openTag hn ha closed rest
  have nonempty : (openTag name attributes).toList ++ (tagEnd closed ++ rest) ≠ [] := by simp [openTag]
  rw [opened?]
  cases legal : valuesLegal attributes with
  | false => rw [legal] at token; exact read_none nonempty token
  | true =>
    rw [legal] at token
    rw [read_token nonempty token, if_pos rfl, step]
    cases openElement? (a.scope base) n as with
    | none => rfl
    | some e => cases closed <;> rfl

/-- **End tags** close the element of their name. -/
theorem read_endTag {name : String} {n : QName} (hn : Spells name n) {e : OpenElement} (he : e.tag = n) :
    (a.push e).read base ('<' :: '/' :: (name.toList ++ '>' :: rest)) = (a.addAll [e.close]).read base rest := by
  rw [read_token (List.cons_ne_nil _ _) (readToken?_endTag hn rest)]
  simp only [step, push, he, if_true, Option.bind_some]
  rfl

end Assembly

/-! ## What texts are read to -/

/-- That wherever a text stands in a scope, a reader has these nodes after it and these characters pending, of which it
does not know yet where the text ends that they belong to; or that it refuses the text. -/
def Reads (σ : Scope) (cs : List Char) (r : Option (List Node × List Char)) : Prop :=
  ∀ base (a : Assembly) rest, a.scope base = σ →
    a.read base (cs ++ rest) = r.bind fun x => (a.addAll x.1).read base (x.2 ++ rest)

namespace Reads

variable {σ : Scope} {cs ds p : List Char} {r : Option (List Node × List Char)}

theorem pending (σ : Scope) (p : List Char) : Reads σ p (some ([], p)) := fun _ _ _ _ => rfl

/-- Nothing mends a text that is refused. -/
theorem refused (h : Reads σ cs none) (ds : List Char) : Reads σ (cs ++ ds) none := by
  intro base a rest scope
  rw [List.append_assoc, h base a (ds ++ rest) scope]
  rfl

/-- One text after another, with what was pending ahead of it. -/
theorem append {x : List Node × List Char} (h : Reads σ cs (some x)) (more : Reads σ (x.2 ++ ds) r) :
    Reads σ (cs ++ ds) (r.map fun y => (x.1 ++ y.1, y.2)) := by
  intro base a rest scope
  have next := more base (a.addAll x.1) rest (by rw [Assembly.scope_addAll, scope])
  rw [List.append_assoc, h base a (ds ++ rest) scope, Option.bind_some, ← List.append_assoc, next]
  cases r with
  | none => rfl
  | some y => rw [Option.map_some, Option.bind_some, Option.bind_some, Assembly.addAll_append]

/-- Pending characters ahead of a tag. -/
theorem data (noTag : '<' ∉ p) (h : Reads σ ('<' :: ds) r) :
    Reads σ (p ++ '<' :: ds) ((flush p).bind fun ns => r.map fun x => (ns ++ x.1, x.2)) := by
  intro base a rest scope
  have stop : ∀ c ∈ ('<' :: (ds ++ rest)).head?, c = '<' := by simp
  rw [List.append_assoc, List.cons_append, Assembly.read_data noTag stop]
  cases flush p with
  | none => rfl
  | some ns =>
    have next := h base (a.addAll ns) rest (by rw [Assembly.scope_addAll, scope])
    rw [Option.bind_some, ← List.cons_append, next, Option.bind_some]
    cases r with
    | none => rfl
    | some x => rw [Option.bind_some, Option.map_some, Option.bind_some, Assembly.addAll_append]

end Reads

/-- A whole text. -/
theorem parseFragment?_of_reads {σ : Scope} {s : String} {r : Option (List Node × List Char)}
    (h : Reads σ s.toList r) (free : ∀ x, r = some x → '<' ∉ x.2) :
    parseFragment? σ s = r.bind fun x => (flush x.2).map (x.1 ++ ·) := by
  have run := h σ {} [] rfl
  have parsed : parseFragment? σ s =
      (({} : Assembly).read σ s.toList).bind fun a => if a.stack.isEmpty then some a.nodes.reverse else none := by
    rw [parseFragment?, tokens, Assembly.read]
    cases tokensFrom s.toList.length s.toList <;> rfl
  rw [List.append_nil] at run
  rw [parsed, run]
  cases r with
  | none => rfl
  | some x =>
    have last : (Assembly.addAll {} x.1).read σ (x.2 ++ []) = _ := Assembly.read_data (free x rfl) (by simp)
    rw [Option.bind_some, Option.bind_some, last]
    cases flush x.2 with
    | none => rfl
    | some ns =>
      rw [Option.bind_some, ← Assembly.addAll_append, Assembly.addAll_start, Assembly.read_nil]
      simp

end FlowDoc.Xml
