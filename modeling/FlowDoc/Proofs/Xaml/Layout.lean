import FlowDoc.Proofs.Xaml.Building
import FlowDoc.Proofs.Xaml.Legal
import FlowDoc.Proofs.Xml.Layout

/-!
# Layout and text

An indented graph is meant to say what it says without indentation. If the names in a graph are names of markup, its
element is printable (`isPrintable_element`): texts stand in flow content alone, and so do the elements that are marked
to keep white space. Each element is printed for an object or a member of the graph (`accounts_element`), and is flow
content if its items are inlines or have a scalar among them (`Graph.Prints.isFlow_iff`). So layout keeps off the text of
the graph, at every width (**`layoutKeepsText_ofSignals`**). Prefixes are printed as they are; one that is not a name may
bring a mark of its own (`layout_in_marked_element`).
-/

namespace FlowDoc.Xaml

open Xml (isPlainName IsQualified ArePrintable arePrintable_append)

/-! ## Names in a stream -/

/-- Whether the names that a signal brings are names of markup. -/
def Signal.isNamed : Signal → Bool
  | .namespaceDecl decl => decl.pre.isEmpty || isPlainName decl.pre
  | .startMember m | .startCollection m => m.isNamed
  | _ => true

theorem isNamed_kept (s : Signal) : s.kept.isNamed = s.isNamed := by cases s <;> rfl

theorem isNamed_memberEnd (collection : Bool) : (memberEnd collection).isNamed = true := by cases collection <;> rfl

theorem isNamed_start (name owner : String) (kind : MemberKind) (isContent collection : Bool) (items : List Node) :
    (MemberNode.mk name owner kind isContent collection items).start.isNamed =
      (MemberNode.mk name owner kind isContent collection items).isNamed := by
  cases collection <;> rfl

mutual

/-- The names in an object are those that its signals bring. -/
theorem isNamed_signals : ∀ o : Object, o.signals.all Signal.isNamed = o.passes MemberNode.isNamed
  | .mk type members => by
    have inside := isNamed_memberNodesSignals members
    simpa [Object.signals, Object.passes, Signal.isNamed] using inside

theorem isNamed_memberNodesSignals : ∀ ms : List MemberNode,
    (memberNodesSignals ms).all Signal.isNamed = membersPass MemberNode.isNamed ms
  | [] => rfl
  | m :: ms => by
    rw [memberNodesSignals, membersPass, List.all_append, isNamed_memberSignals, isNamed_memberNodesSignals]

theorem isNamed_memberSignals : ∀ m : MemberNode, m.signals.all Signal.isNamed = m.passes MemberNode.isNamed
  | .mk name owner kind isContent collection items => by
    have inside := isNamed_nodesSignals items
    rw [MemberNode.signals, MemberNode.passes, List.cons_append, List.all_cons, List.all_append, isNamed_start, inside]
    simp [isNamed_memberEnd]

theorem isNamed_nodesSignals : ∀ ns : List Node, (nodesSignals ns).all Signal.isNamed = nodesPass MemberNode.isNamed ns
  | [] => rfl
  | n :: ns => by
    rw [nodesSignals, nodesPass, List.all_append, isNamed_nodeSignals, isNamed_nodesSignals]

theorem isNamed_nodeSignals : ∀ n : Node, n.signals.all Signal.isNamed = n.passes MemberNode.isNamed
  | .object o => isNamed_signals o
  | .value _ => rfl

end

/-- **The names in a graph** are those of the stream that it was built from. -/
theorem isNamed_ofSignals {signals : List Signal} {g : Graph} (built : Graph.ofSignals signals = .ok g)
    (named : ∀ s ∈ signals, s.isNamed = true) : HavePrefixes g.namespaces ∧ g.root.passes MemberNode.isNamed = true := by
  have kept : (g.signals.map Signal.kept).all Signal.isNamed = true := by
    rw [Builder.signals_of_ofSignals built, List.all_map, List.all_eq_true]
    intro s hs
    exact (isNamed_kept s).trans (named s hs)
  have own : Signal.isNamed ∘ Signal.kept = Signal.isNamed := funext isNamed_kept
  rw [List.all_map, own, Graph.signals, List.all_append, isNamed_signals, Bool.and_eq_true, List.all_map,
    List.all_eq_true] at kept
  exact ⟨fun ns hns => Bool.or_eq_true_iff.mp (kept.1 ns hns), kept.2⟩

/-! ## Printable elements -/

/-- The attribute that keeps white space has a prefix, so it is none of these. -/
theorem ne_space_of_isPlainName {s : String} (h : isPlainName s = true) : s ≠ "xml:space" := by
  rintro rfl
  exact absurd h (by decide)

theorem isQualified_memberAttribute {m : MemberNode} (h : m.isNamed = true) :
    IsQualified m.attributeName ∧ m.attributeName ≠ "xml:space" := by
  obtain ⟨name, owner, kind, isContent, collection, items⟩ := m
  obtain ⟨ownerNamed, named⟩ := Bool.and_eq_true_iff.mp h
  cases kind with
  | property => exact ⟨.plain named, ne_space_of_isPlainName named⟩
  | attached =>
    have dotted := isPlainName_dot ownerNamed named
    exact ⟨.plain dotted, ne_space_of_isPlainName dotted⟩
  | directive =>
    refine ⟨IsQualified.prefixed (show isPlainName "x" = true by decide) named, fun same => ?_⟩
    have chars := congrArg String.toList same
    simp [MemberNode.attributeName, MemberNode.kind] at chars

theorem isQualified_memberElement {m : MemberNode} (h : m.isNamed = true) {element : String}
    (he : IsQualified element) : IsQualified (m.propertyElementName element) := by
  obtain ⟨name, owner, kind, isContent, collection, items⟩ := m
  obtain ⟨ownerNamed, named⟩ := Bool.and_eq_true_iff.mp h
  cases kind with
  | property => exact isQualified_dot he named
  | attached => exact .plain (isPlainName_dot ownerNamed named)
  | directive => exact IsQualified.prefixed (show isPlainName "x" = true by decide) named

theorem isQualified_declarations {namespaces : List NamespaceDecl} (h : HavePrefixes namespaces) :
    ∀ a ∈ namespaces.map NamespaceDecl.attribute, IsQualified a.1 ∧ a.1 ≠ "xml:space" := by
  intro a ha
  obtain ⟨ns, hns, rfl⟩ := List.mem_map.mp ha
  cases empty : ns.pre.isEmpty with
  | true =>
    have xmlns : isPlainName "xmlns" = true := by decide
    simp only [NamespaceDecl.attribute, empty, if_true]
    exact ⟨.plain xmlns, ne_space_of_isPlainName xmlns⟩
  | false =>
    have pre : isPlainName ns.pre = true := (h ns hns).resolve_left (by simp [empty])
    simp only [NamespaceDecl.attribute, empty, Bool.false_eq_true, if_false]
    refine ⟨IsQualified.prefixed (show isPlainName "xmlns" = true by decide) pre, fun same => ?_⟩
    have chars := congrArg String.toList same
    simp at chars

/-- Only scalars need their white space kept. -/
theorem any_isValue_of_needsPreserve {first : Bool} {items : List Node} (h : needsPreserveFrom first items = true) :
    items.any Node.isValue = true := by
  induction items generalizing first with
  | nil => cases h
  | cons n ns ih =>
    cases n with
    | value v => rfl
    | object o => exact ih h

/-- An element that keeps white space has a scalar in its content, so the content is flow content. -/
theorem isFlow_of_preserve {type : ElementType} {members : List MemberNode}
    (h : ("xml:space", "preserve") ∈ preserveAttribute (Object.mk type members).content) :
    (members.find? (·.isContent)).any (·.isFlow) = true := by
  rw [preserveAttribute] at h
  split at h
  · next needs =>
    have scalar := any_isValue_of_needsPreserve needs
    rw [Object.content, Object.members] at scalar
    cases found : members.find? (·.isContent) with
    | none => rw [found] at scalar; cases scalar
    | some m =>
      rw [found] at scalar
      rw [Option.any_some, MemberNode.isFlow, scalar, Bool.or_true]
  · cases h

theorem isQualified_memberAttributes {namespaces : List NamespaceDecl} {members : List MemberNode}
    (h : membersPass MemberNode.isNamed members = true) :
    ∀ a ∈ memberAttributes namespaces members, IsQualified a.1 ∧ a.1 ≠ "xml:space" := by
  rw [membersPass_eq, List.all_eq_true] at h
  intro a ha
  obtain ⟨m, hm, written⟩ := List.mem_filterMap.mp ha
  split at written
  · cases written
  · obtain ⟨v, -, rfl⟩ := Option.map_eq_some_iff.mp written
    exact isQualified_memberAttribute (MemberNode.check_of_passes (h m hm))

variable {namespaces : List NamespaceDecl}

mutual

/-- **Objects.** A named object becomes a printable element. -/
theorem isPrintable_element (hn : HavePrefixes namespaces) : ∀ (o : Object) (declared : List (String × String))
    (inFlow : Bool), o.passes MemberNode.isNamed = true → (∀ a ∈ declared, IsQualified a.1 ∧ a.1 ≠ "xml:space") →
      (o.element namespaces declared).IsPrintable inFlow
  | .mk type members, declared, inFlow, named, hd => by
    have name := isQualified_qualify hn type.space (isPlainName_vocabulary type).1
    have attributes : ∀ a ∈ declared ++ memberAttributes namespaces members, IsQualified a.1 ∧ a.1 ≠ "xml:space" :=
      fun a ha => (List.mem_append.mp ha).elim (hd a) (isQualified_memberAttributes named a)
    refine ⟨name, fun a ha => ?_, fun keeps => ?_, ?_⟩
    · rcases List.mem_append.mp ha with ha | ha
      · exact (attributes a ha).1
      · rw [preserveAttribute] at ha
        split at ha
        · obtain rfl := List.mem_singleton.mp ha
          exact Xml.isQualified_space
        · cases ha
    · rcases List.mem_append.mp keeps with other | keeps
      · exact absurd rfl (attributes _ other).2
      · exact isFlow_of_preserve keeps
    · refine arePrintable_append.mpr ⟨arePrintable_propertyElements hn members _ named name,
        arePrintable_contentElements hn members _ named fun flow => ?_⟩
      rw [flow, Bool.or_true]

theorem arePrintable_propertyElements (hn : HavePrefixes namespaces) : ∀ (ms : List MemberNode) {element : String}
    (inFlow : Bool), membersPass MemberNode.isNamed ms = true → IsQualified element →
      ArePrintable inFlow (propertyElements namespaces element ms)
  | [], _, _, _, _ => trivial
  | .mk name owner kind isContent collection items :: ms, element, inFlow, named, he => by
    obtain ⟨first, rest⟩ := Bool.and_eq_true_iff.mp named
    have others := arePrintable_propertyElements hn ms inFlow rest he
    rw [propertyElements]
    split
    · exact others
    · refine ⟨⟨isQualified_memberElement (MemberNode.check_of_passes first) he, List.forall_mem_nil _,
        fun keeps => (List.not_mem_nil keeps).elim,
        arePrintable_nodes hn items _ (Bool.and_eq_true_iff.mp first).2 fun scalar => ?_⟩, others⟩
      have flow : (MemberNode.mk name owner kind isContent collection items).isFlow = true := by
        rw [MemberNode.isFlow, MemberNode.items, scalar, Bool.or_true]
      rw [flow, Bool.or_true]

theorem arePrintable_contentElements (hn : HavePrefixes namespaces) : ∀ (ms : List MemberNode) (inFlow : Bool),
    membersPass MemberNode.isNamed ms = true → ((ms.find? (·.isContent)).any (·.isFlow) = true → inFlow = true) →
      ArePrintable inFlow (contentElements namespaces ms)
  | [], _, _, _ => trivial
  | .mk name owner kind isContent collection items :: ms, inFlow, named, flow => by
    obtain ⟨first, rest⟩ := Bool.and_eq_true_iff.mp named
    rw [contentElements]
    rw [List.find?_cons] at flow
    split
    · next content =>
      rw [content] at flow
      refine arePrintable_nodes hn items inFlow (Bool.and_eq_true_iff.mp first).2 fun scalar => flow ?_
      rw [Option.any_some, MemberNode.isFlow, MemberNode.items, scalar, Bool.or_true]
    · next other =>
      rw [Bool.eq_false_iff.mpr other] at flow
      exact arePrintable_contentElements hn ms inFlow rest flow

theorem arePrintable_nodes (hn : HavePrefixes namespaces) : ∀ (ns : List Node) (inFlow : Bool),
    nodesPass MemberNode.isNamed ns = true → (ns.any Node.isValue = true → inFlow = true) →
      ArePrintable inFlow (nodesElements namespaces ns)
  | [], _, _, _ => trivial
  | .value _ :: ns, inFlow, named, flow =>
    ⟨flow rfl, arePrintable_nodes hn ns inFlow named fun _ => flow rfl⟩
  | .object o :: ns, inFlow, named, flow =>
    ⟨isPrintable_element hn o [] inFlow (Bool.and_eq_true_iff.mp named).1 (List.forall_mem_nil _),
      arePrintable_nodes hn ns inFlow (Bool.and_eq_true_iff.mp named).2 flow⟩

end

/-! ## What an element is printed for -/

/-- What an element in the markup of a graph is printed for: an object, with the items of its content member if it has
one, or a member. -/
inductive Graph.Prints (g : Graph) : Option MemberNode → Xml.Content → Prop
  | object {o : Object} (declared : List (String × String)) : o.Within g.root →
      g.Prints (o.members.find? (·.isContent)) (o.element g.namespaces declared)
  | member {o : Object} {m : MemberNode} (element : String) : o.Within g.root → m ∈ o.members →
      g.Prints (some m) (.element (m.propertyElementName element) [] false m.isFlow (m.itemElements g.namespaces))

theorem isFlow_iff {m : MemberNode} : m.isFlow = true ↔ m.name = "Inlines" ∨ ∃ v, .value v ∈ m.items := by
  have scalar : ∀ n : Node, n.isValue = true ↔ ∃ v, n = .value v := by
    intro n
    cases n <;> simp [Node.isValue]
  simp only [MemberNode.isFlow, Bool.or_eq_true, beq_iff_eq, List.any_eq_true, scalar]
  refine or_congr_right ⟨?_, ?_⟩
  · rintro ⟨-, mem, v, rfl⟩
    exact ⟨v, mem⟩
  · rintro ⟨v, mem⟩
    exact ⟨_, mem, v, rfl⟩

/-- An element is flow content exactly if the member whose items it holds is named `Inlines` or has a scalar in it. -/
theorem Graph.Prints.isFlow_iff {g : Graph} {m : Option MemberNode} {c : Xml.Content} (h : g.Prints m c) :
    c.isFlow = true ↔ ∃ k ∈ m, k.name = "Inlines" ∨ ∃ v, .value v ∈ k.items := by
  cases h with
  | @object o declared _ =>
    obtain ⟨type, members⟩ := o
    rw [Object.element, Xml.Content.isFlow, Object.members, Option.any_eq_true]
    exact exists_congr fun k => and_congr_right fun _ => Xaml.isFlow_iff
  | @member _ m => simpa [Xml.Content.isFlow] using Xaml.isFlow_iff

/-- That a node is a text, or printed for an object or a member of a graph. -/
def Graph.Accounts (g : Graph) (c : Xml.Content) : Prop := (∃ s, c = .text s) ∨ ∃ m, g.Prints m c

section Accounts

variable {g : Graph} {c : Xml.Content}

/-- The members of the objects in a graph. -/
def Graph.HasMember (g : Graph) (m : MemberNode) : Prop := ∃ o : Object, o.Within g.root ∧ m ∈ o.members

theorem Graph.HasMember.within {m : MemberNode} (h : g.HasMember m) {p : Object} (hp : .object p ∈ m.items) :
    p.Within g.root := by
  obtain ⟨o, reached, own⟩ := h
  exact (Object.Within.inMember own hp .self).trans reached

mutual

/-- The nodes in the element of an object. -/
theorem accounts_element : ∀ (o : Object) (declared : List (String × String)), o.Within g.root →
    c.Within (o.element g.namespaces declared) → g.Accounts c
  | .mk type members, declared, reached, within => by
    have own : ∀ m ∈ members, g.HasMember m := fun m hm => ⟨_, reached, hm⟩
    rw [Object.element] at within
    cases within with
    | self => exact .inr ⟨_, .object (o := .mk type members) declared reached⟩
    | child mem within =>
      rcases List.mem_append.mp mem with mem | mem
      · exact accounts_propertyElements members own mem within
      · exact accounts_contentElements members own mem within

theorem accounts_propertyElements {element : String} {d : Xml.Content} : ∀ ms : List MemberNode,
    (∀ m ∈ ms, g.HasMember m) → d ∈ propertyElements g.namespaces element ms → c.Within d → g.Accounts c
  | [], _, mem, _ => absurd mem List.not_mem_nil
  | .mk name owner kind isContent collection items :: ms, own, mem, within => by
    obtain ⟨first, rest⟩ := List.forall_mem_cons.mp own
    rw [propertyElements] at mem
    split at mem
    · exact accounts_propertyElements ms rest mem within
    · rcases List.mem_cons.mp mem with rfl | mem
      · cases within with
        | self =>
          obtain ⟨o, reached, hm⟩ := first
          exact .inr ⟨_, .member element reached hm⟩
        | child mem within => exact accounts_nodes items (fun p hp => first.within hp) mem within
      · exact accounts_propertyElements ms rest mem within

theorem accounts_contentElements {d : Xml.Content} : ∀ ms : List MemberNode, (∀ m ∈ ms, g.HasMember m) →
    d ∈ contentElements g.namespaces ms → c.Within d → g.Accounts c
  | [], _, mem, _ => absurd mem List.not_mem_nil
  | .mk name owner kind isContent collection items :: ms, own, mem, within => by
    obtain ⟨first, rest⟩ := List.forall_mem_cons.mp own
    rw [contentElements] at mem
    split at mem
    · exact accounts_nodes items (fun p hp => first.within hp) mem within
    · exact accounts_contentElements ms rest mem within

theorem accounts_nodes {d : Xml.Content} : ∀ ns : List Node, (∀ p, .object p ∈ ns → p.Within g.root) →
    d ∈ nodesElements g.namespaces ns → c.Within d → g.Accounts c
  | [], _, mem, _ => absurd mem List.not_mem_nil
  | .value v :: ns, reached, mem, within => by
    rcases List.mem_cons.mp mem with rfl | mem
    · cases within with
      | self => exact .inl ⟨_, rfl⟩
    · exact accounts_nodes ns (fun p hp => reached p (List.mem_cons_of_mem _ hp)) mem within
  | .object p :: ns, reached, mem, within => by
    rcases List.mem_cons.mp mem with rfl | mem
    · exact accounts_element p [] (reached p List.mem_cons_self) within
    · exact accounts_nodes ns (fun p hp => reached p (List.mem_cons_of_mem _ hp)) mem within

end

end Accounts

/-! ## Layout and text -/

/-- **That layout keeps off the text of a graph.** -/
structure Graph.LayoutKeepsText (g : Graph) : Prop where
  /-- An element is printed for an object or a member of the graph. -/
  accounts : ∀ c : Xml.Content, c.Within g.element → (∃ s, c = .text s) ∨ ∃ m, g.Prints m c
  /-- It is flow content exactly if its items are those of a member named `Inlines`, or have a scalar among them. -/
  flow : ∀ m c, g.Prints m c → (c.isFlow = true ↔ ∃ k ∈ m, k.name = "Inlines" ∨ ∃ v, .value v ∈ k.items)
  /-- An element with flow content, or one that is marked to keep white space, is printed without any inside. -/
  bare : ∀ c : Xml.Content, c.Within g.element → c.isFlow = true ∨ c.keepsSpace = true →
    ∀ width inFlow depth, c.print width inFlow depth =
      Xml.indentation width inFlow depth ++ c.bare ++ Xml.lineEnd inFlow
  /-- At any two widths a reader refuses the markup, or it reads two root elements that differ in layout alone. -/
  widths : ∀ w₁ w₂, Option.Rel
    (fun ns ms => ∃ n m, ns = [n, .text "\n"] ∧ ms = [m, .text "\n"] ∧ Xml.SameLayout g.element n m)
    (Xml.parseFragment? [] (g.markup w₁)) (Xml.parseFragment? [] (g.markup w₂))

/-- **Layout never touches text** in a graph that is built from a stream whose names are names of markup. -/
theorem layoutKeepsText_ofSignals {signals : List Signal} {g : Graph} (built : Graph.ofSignals signals = .ok g)
    (named : ∀ s ∈ signals, s.isNamed = true) : g.LayoutKeepsText := by
  obtain ⟨prefixes, root⟩ := isNamed_ofSignals built named
  have printable : g.element.IsPrintable false :=
    isPrintable_element prefixes g.root _ false root (isQualified_declarations prefixes)
  refine ⟨fun c within => accounts_element g.root _ .self within, fun _ _ printed => printed.isFlow_iff,
    fun c within marked => ?_, Xml.sameLayout_print printable⟩
  exact Xml.print_isFlow (marked.elim id (printable.isFlow within))

/-- A section with a paragraph of one text, under some namespaces. -/
def sectionGraph (namespaces : List NamespaceDecl) (text : String) : Graph :=
  ⟨namespaces, .mk .sectionElement [.mk "Blocks" "Section" .property true true
    [.object (.mk .paragraph [.mk "Inlines" "Paragraph" .property true true [.value (.text text)]])]]⟩

/-- A paragraph that keeps white space, in a section that is laid out. -/
theorem layoutKeepsText_section :
    Graph.ofSignals (sectionGraph [⟨"", presentationNamespace⟩] "a  b").signals =
        .ok (sectionGraph [⟨"", presentationNamespace⟩] "a  b") ∧
      (∀ s ∈ (sectionGraph [⟨"", presentationNamespace⟩] "a  b").signals, s.isNamed = true) ∧
      (Xml.parseFragment? [] ((sectionGraph [⟨"", presentationNamespace⟩] "a  b").markup 2)).isSome = true ∧
      (sectionGraph [⟨"", presentationNamespace⟩] "a  b").LayoutKeepsText := by
  have built : Graph.ofSignals (sectionGraph [⟨"", presentationNamespace⟩] "a  b").signals = .ok _ := rfl
  have named : ∀ s ∈ (sectionGraph [⟨"", presentationNamespace⟩] "a  b").signals, s.isNamed = true := by decide
  exact ⟨built, named, by decide +kernel, layoutKeepsText_ofSignals built named⟩

/-- A prefix that is not a name: the declaration under it brings an attribute that says that white space is kept. -/
def markingPrefix : String := "a=\"1\" xml:space=\"preserve\" b"

/-- Whether an element is read as one that keeps white space, and the texts that stand in it. -/
def markedTexts : Xml.Node → Bool × List String
  | .text _ => (false, [])
  | .element _ _ attributes children => (Xml.keepsSpace attributes, children.filterMap fun
    | .text s => some s
    | .element .. => none)

/-- Layout in an element that is read as one that keeps white space: the root has no text of its own. -/
theorem layout_in_marked_element :
    Graph.ofSignals (sectionGraph [⟨markingPrefix, "u"⟩] "x").signals =
        .ok (sectionGraph [⟨markingPrefix, "u"⟩] "x") ∧
      (Xml.parseFragment? [] ((sectionGraph [⟨markingPrefix, "u"⟩] "x").markup 0)).map
        (·.map markedTexts) = some [(true, ["\n", "\n"]), (false, [])] ∧
      (Xml.parseFragment? [] ((sectionGraph [⟨markingPrefix, "u"⟩] "x").markup 2)).map
        (·.map markedTexts) = some [(true, ["\n  ", "\n"]), (false, [])] :=
  ⟨rfl, by decide +kernel, by decide +kernel⟩

end FlowDoc.Xaml
