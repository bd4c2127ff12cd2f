import FlowDoc.Proofs.Render.ContentModel
import FlowDoc.Proofs.Render.Legality
import FlowDoc.Proofs.Render.Nesting
import FlowDoc.Proofs.Xml.Name

/-!
# Prefixes in the markup of documents

The root of a document declares three prefixes: the empty one, that of the language, and that of the key class. Names of
types get theirs from the declarations (`names_qualify`), references to keys are spelled by the key class, and no other
name that is printed has any. So if the prefix of the key class is a name of its own, each prefix stands for the
namespace that is meant (**`documentMarkup_prefixes`**).
-/

namespace FlowDoc.Xml

/-- The namespaces that the attributes of a tag declare, as a reader takes them. -/
def declarations? (attributes : List (String × String)) : Option Scope := do
  let names ← attributes.mapM fun a => (readQName? a.1.toList).map fun r => (r.1, a.2)
  let declared ← (names.filter isDeclaration).mapM declaration?
  return declared.flatten

/-- Whether a name is that of `own` in a namespace. -/
def Names (scope : Xml.Scope) (name own space : String) : Prop :=
  ∃ pre, readQName? name.toList = some (⟨pre, own⟩, []) ∧ elementSpace? scope ⟨pre, own⟩ = some (some space)

end FlowDoc.Xml

namespace FlowDoc.Xaml

open Style (KeyClass)
open Xml (Part Names isPlainName)

/-- Whether the names in a part are those of types and members: a tag names a type or one of its members, in the
namespace of the type, and an attribute, which declares nothing, has no prefix, is the one that keeps white space or is
a directive of the language. -/
def PartResolves (scope : Xml.Scope) : Part → Prop
  | .tag name => ∃ type : ElementType, Names scope name type.name type.space ∨
      ∃ member, Names scope name (type.name ++ "." ++ member) type.space
  | .attribute name value => ∃ q, Xml.readQName? name.toList = some (q, []) ∧ Xml.isDeclaration (q, value) = false ∧
      (q.pre = "" ∨ q = ⟨"xml", "space"⟩ ∨ q.pre = "x" ∧ Xml.elementSpace? scope q = some (some languageNamespace))
  | .text _ => True

/-- The prefix of a text: what stands before its first colon. -/
def prefixOf (s : String) : String := String.ofList (s.toList.takeWhile (· != ':'))

/-- Whether the prefixes in the markup of a graph are those that its root declares. -/
structure Graph.PrefixesResolve (keys : KeyClass) (g : Graph) (scope : Xml.Scope) : Prop where
  /-- The root declares the scope, and no prefix in it twice. -/
  declared : ∃ name attributes closed flow children, g.element = .element name attributes closed flow children ∧
    Xml.declarations? attributes = some scope
  distinct : (scope.map Prod.fst).Nodup
  /-- What is printed besides these declarations resolves. -/
  parts : ∀ part ∈ g.element.parts, part ∈ (g.namespaces.map NamespaceDecl.attribute).map Xml.attributePart ∨
    PartResolves scope part
  /-- The names of objects in brace syntax. -/
  extensions : ∀ p : Object, p.Within g.root → Names scope
    (qualify g.namespaces p.type.space (extensionShortName p.type.name)) (extensionShortName p.type.name) p.type.space
  /-- References to static members are to keys of the class, by its prefix. -/
  references : ∀ p : Object, p.Within g.root → p.type = .staticExtension → ∀ m ∈ p.members, m.kind = .directive →
    ∃ key, keys.contains key = true ∧ m.items = [.value (.text (keys.staticReference key))] ∧
      scope.lookup (prefixOf (keys.staticReference key)) = some keys.namespaceUri

end FlowDoc.Xaml

namespace FlowDoc.Render

open Xaml
open Style (KeyClass)
open Xml (Part Names isPlainName attributePart StopsName readQName?_plain readQName?_prefixed)

variable {o : Options}

/-! ## The scope of a document -/

/-- The namespaces in scope in the markup of a document. -/
def documentScope (o : Options) : Xml.Scope :=
  [("", presentationNamespace), ("x", languageNamespace), (o.theme.keyClass.pre, o.theme.keyClass.namespaceUri)]

/-- Names as they stand alone. -/
theorem readQName?_qualified {pre s : String} (hp : isPlainName pre = true) (hs : isPlainName s = true) :
    Xml.readQName? (pre ++ ":" ++ s).toList = some (⟨pre, s⟩, []) := by
  have read := readQName?_prefixed hp hs Xml.stopsName_nil
  rwa [List.append_nil] at read

theorem readQName?_name {s : String} (hs : isPlainName s = true) :
    Xml.readQName? s.toList = some (⟨"", s⟩, []) := by
  have read := readQName?_plain hs Xml.stopsName_nil
  rwa [List.append_nil] at read

/-- A name of the language. -/
theorem readQName?_language {s : String} (hs : isPlainName s = true) :
    Xml.readQName? ("x:" ++ s).toList = some (⟨"x", s⟩, []) := by
  have colon : "x:" = "x" ++ ":" := by decide
  rw [colon]
  exact readQName?_qualified (by decide) hs

theorem names_presentation {name : String} (h : isPlainName name = true) :
    Names (documentScope o) name name presentationNamespace := ⟨"", readQName?_name h, rfl⟩

/-- **Names of types** stand in the namespace of the type. -/
theorem names_qualify (type : ElementType) {name : String} (h : isPlainName name = true) :
    Names (documentScope o) (qualify (documentNamespaces o) type.space name) name type.space := by
  rw [qualify_documentNamespaces]
  by_cases static : type = .staticExtension
  · subst static
    rw [if_pos rfl]
    exact ⟨"x", readQName?_language h, rfl⟩
  · have space : type.space = presentationNamespace := by cases type <;> first | rfl | exact absurd rfl static
    rw [if_neg static, space]
    exact names_presentation h

theorem qualify_append (type : ElementType) (s t : String) :
    qualify (documentNamespaces o) type.space s ++ t = qualify (documentNamespaces o) type.space (s ++ t) := by
  rw [qualify_documentNamespaces, qualify_documentNamespaces]
  split
  · rw [String.append_assoc]
  · rfl

/-! ## Parts -/

/-- An attribute without a prefix. -/
theorem partResolves_plain {name : String} (h : isPlainName name = true) (other : name ≠ "xmlns") (value : String)
    {scope : Xml.Scope} : PartResolves scope (.attribute name value) :=
  ⟨_, readQName?_name h, by simp [Xml.isDeclaration, other], .inl rfl⟩

theorem partResolves_preserve {scope : Xml.Scope} (items : List Node) :
    ∀ part ∈ (preserveAttribute items).map attributePart, PartResolves scope part := by
  have space : Xml.readQName? "xml:space".toList = some (⟨"xml", "space"⟩, []) :=
    readQName?_qualified (show isPlainName "xml" = true by decide) (show isPlainName "space" = true by decide)
  intro part hp
  rw [preserveAttribute] at hp
  split at hp
  · obtain rfl := List.mem_singleton.mp hp
    exact ⟨_, space, by decide, .inr (.inl rfl)⟩
  · cases hp

/-- No member is named as a declaration is, and attached members are those of presentation types. -/
theorem vocabulary_members (t : ElementType) :
    ∀ d ∈ t.ownMembers, d.name ≠ "xmlns" ∧ (d.attachable = true → t.space = presentationNamespace) := by
  cases t <;> decide

section Members

variable {name owner : String} {kind : MemberKind}

/-- The name of a member as an attribute. -/
theorem resolves_attributeName (h : AreDeclared owner name kind) (isContent collection : Bool) (items : List Node)
    (value : String) : PartResolves (documentScope o)
      (.attribute (MemberNode.mk name owner kind isContent collection items).attributeName value) := by
  have named := h.isPlainName
  obtain ⟨type, d, member, rfl, rfl, rfl⟩ := h
  cases d.attachable with
  | false => exact partResolves_plain named (vocabulary_members type d member).1 value
  | true =>
    refine partResolves_plain (isPlainName_dot (isPlainName_vocabulary type).1 named) (fun same => ?_) value
    -- there is a full stop in the one and none in the other
    have stop : '.' ∈ "xmlns".toList := same ▸ by simp
    exact absurd stop (by decide)

/-- The name of a member as a property element. -/
theorem resolves_propertyElementName (h : AreDeclared owner name kind) (isContent collection : Bool)
    (items : List Node) (type : ElementType) : PartResolves (documentScope o)
      (.tag ((MemberNode.mk name owner kind isContent collection items).propertyElementName
        (qualify (documentNamespaces o) type.space type.name))) := by
  have named := h.isPlainName
  obtain ⟨declaring, d, member, rfl, rfl, rfl⟩ := h
  cases attachable : d.attachable with
  | false =>
    have element : Names (documentScope o) (qualify (documentNamespaces o) type.space type.name ++ "." ++ d.name)
        (type.name ++ "." ++ d.name) type.space := by
      rw [String.append_assoc, qualify_append, ← String.append_assoc]
      exact names_qualify type (isPlainName_dot (isPlainName_vocabulary type).1 named)
    exact ⟨type, .inr ⟨d.name, element⟩⟩
  | true =>
    have space := (vocabulary_members declaring d member).2 attachable
    have element := names_presentation (o := o) (isPlainName_dot (isPlainName_vocabulary declaring).1 named)
    exact ⟨declaring, .inr ⟨d.name, space ▸ element⟩⟩

end Members

/-- A reference to a style as an element: its argument is a directive. -/
theorem resolves_styleReference (key : ResourceKey) :
    ∀ part ∈ (styleReference o.theme.keyClass key).parts (documentNamespaces o) [],
      PartResolves (documentScope o) part := by
  have directive : ∀ value, PartResolves (documentScope o) (.attribute "x:_PositionalParameters" value) := fun value =>
    ⟨_, readQName?_language (show isPlainName "_PositionalParameters" = true by decide), rfl, .inr (.inr ⟨rfl, rfl⟩)⟩
  obtain ⟨value, parts⟩ : ∃ value, (styleReference o.theme.keyClass key).parts (documentNamespaces o) [] =
      [.tag (qualify (documentNamespaces o) presentationNamespace "StaticResourceExtension"),
        .attribute "x:_PositionalParameters" value] := by
    simp only [styleReference, keyReference, spelledObject, spelledMembers, spelledMember, spelledItems, spelledItem,
      spelledValue]
    split <;> exact ⟨_, rfl⟩
  rw [parts]
  intro part hp
  simp only [List.mem_cons, List.not_mem_nil, or_false] at hp
  rcases hp with rfl | rfl
  · exact ⟨.staticResourceExtension, .inl (names_qualify .staticResourceExtension (by decide))⟩
  · exact directive value

mutual

/-- **Objects.** What is printed of a plain object besides what it declares resolves. -/
theorem resolves_object (declared : List (String × String)) : ∀ p : Object, p.IsPlain o.theme.keyClass →
    ∀ part ∈ p.parts (documentNamespaces o) declared,
      part ∈ declared.map attributePart ∨ PartResolves (documentScope o) part
  | .mk type members, plain, part, hp => by
    rw [Object.parts, List.map_append] at hp
    simp only [List.cons_append, List.mem_cons, List.mem_append] at hp
    rcases hp with rfl | (declares | keeps) | inside
    · exact .inr ⟨type, .inl (names_qualify type (isPlainName_vocabulary type).1)⟩
    · exact .inl declares
    · exact .inr (partResolves_preserve _ part keeps)
    · exact .inr (resolves_members type members plain part inside)

theorem resolves_members (type : ElementType) : ∀ ms : List MemberNode, membersPlain o.theme.keyClass ms →
    ∀ part ∈ membersParts (documentNamespaces o) (qualify (documentNamespaces o) type.space type.name) ms,
      PartResolves (documentScope o) part
  | [], _, part, hp => by cases hp
  | m :: ms, plain, part, hp => by
    rw [membersParts, List.mem_append] at hp
    rcases hp with first | rest
    · exact resolves_member type m plain.1 part first
    · exact resolves_members type ms plain.2 part rest

theorem resolves_member (type : ElementType) : ∀ m : MemberNode, m.IsPlain o.theme.keyClass →
    ∀ part ∈ m.parts (documentNamespaces o) (qualify (documentNamespaces o) type.space type.name),
      PartResolves (documentScope o) part
  | .mk name owner kind isContent collection items, ⟨declared, plain⟩, part, hp => by
    have inside := resolves_nodes items plain part
    rw [MemberNode.parts] at hp
    split at hp
    · exact inside hp
    · split at hp
      · next v _ =>
        rw [List.mem_singleton.mp hp]
        exact resolves_attributeName declared isContent collection items v
      · rcases List.mem_cons.mp hp with rfl | hp
        · exact resolves_propertyElementName declared isContent collection items type
        · exact inside hp

theorem resolves_nodes : ∀ ns : List Node, nodesPlain o.theme.keyClass ns →
    ∀ part ∈ nodesParts (documentNamespaces o) ns, PartResolves (documentScope o) part
  | [], _, part, hp => by cases hp
  | n :: ns, plain, part, hp => by
    rw [nodesParts, List.mem_append] at hp
    rcases hp with first | rest
    · exact resolves_node n plain.1 part first
    · exact resolves_nodes ns plain.2 part rest

theorem resolves_node : ∀ n : Node, n.IsPlain o.theme.keyClass →
    ∀ part ∈ n.parts (documentNamespaces o), PartResolves (documentScope o) part
  | .value v, _, part, hp => by
    rw [Node.parts, List.mem_singleton] at hp
    exact hp ▸ trivial
  | .object p, plain, part, hp => by
    rcases plain with plain | ⟨key, rfl⟩
    · exact (resolves_object [] p plain part hp).resolve_left List.not_mem_nil
    · exact resolves_styleReference key part hp

end

/-! ## References to keys -/

/-- What may stand in a document: plain objects, references to styles, and the references to keys in these. -/
def IsKnown (keys : KeyClass) (p : Object) : Prop :=
  p.IsPlain keys ∨ (∃ key, p = styleReference keys key) ∨
    ∃ key, keys.contains key = true ∧ p = (staticReference keys key).object

theorem items_styleReference (keys : KeyClass) (key : ResourceKey) :
    ∀ m ∈ (styleReference keys key).members, ∀ c, .object c ∈ m.items → IsKnown keys c := by
  simp only [styleReference, keyReference, spelledObject, spelledMembers, spelledMember, spelledItems, spelledItem,
    spelledValue]
  intro m hm c hc
  obtain rfl := List.mem_singleton.mp hm
  split at hc
  · next known =>
    cases List.mem_singleton.mp hc
    exact .inr (.inr ⟨key, known, rfl⟩)
  · cases List.mem_singleton.mp hc

/-- All that is in a known object is known. -/
theorem IsKnown.within {keys : KeyClass} {p q : Object} (h : IsKnown keys q) (within : p.Within q) :
    IsKnown keys p := by
  induction within with
  | self => exact h
  | @inMember o c m hm hc _ ih =>
    refine ih ?_
    rcases h with plain | ⟨key, rfl⟩ | ⟨key, -, rfl⟩
    · obtain ⟨type, members⟩ := o
      obtain ⟨name, owner, kind, isContent, collection, items⟩ := m
      have inside : nodesPlain keys items := (membersPlain_iff.mp plain _ hm).2
      exact (nodesPlain_iff.mp inside _ hc).imp_right .inl
    · exact items_styleReference keys key m hm c hc
    · obtain rfl := List.mem_singleton.mp hm
      cases List.mem_singleton.mp hc

/-- The prefix of a reference is that of the key class. -/
theorem prefixOf_staticReference {keys : KeyClass} (hp : isPlainName keys.pre = true) (key : ResourceKey) :
    prefixOf (keys.staticReference key) = keys.pre := by
  have other : ∀ c ∈ keys.pre.toList, (c != ':') = true := by
    intro c hc
    rw [bne_iff_ne]
    rintro rfl
    exact absurd ((isPlainName_iff.mp hp).2 ':' hc) (by decide)
  have chars : (keys.staticReference key).toList =
      keys.pre.toList ++ ':' :: (keys.typeName ++ "." ++ key.name).toList := by
    simp [KeyClass.staticReference]
  rw [prefixOf, chars, List.takeWhile_append_of_pos other]
  simp

/-! ## Declarations -/

/-- Attributes that declare nothing leave the declarations as they are. -/
theorem declarations?_append (declared : List (String × String)) {others : List (String × String)}
    (h : ∀ a ∈ others, ∃ q, Xml.readQName? a.1.toList = some (q, []) ∧ Xml.isDeclaration (q, a.2) = false) :
    Xml.declarations? (declared ++ others) = Xml.declarations? declared := by
  have read : ∃ names, (others.mapM fun a => (Xml.readQName? a.1.toList).map fun r => (r.1, a.2)) = some names ∧
      names.filter Xml.isDeclaration = [] := by
    induction others with
    | nil => exact ⟨[], rfl, rfl⟩
    | cons a rest ih =>
      obtain ⟨q, found, other⟩ := h a List.mem_cons_self
      obtain ⟨names, tail, nothing⟩ := ih fun b hb => h b (List.mem_cons_of_mem a hb)
      refine ⟨(q, a.2) :: names, ?_, ?_⟩
      · rw [List.mapM_cons, found, tail]
        rfl
      · rw [List.filter_cons_of_neg (by simp [other]), nothing]
  obtain ⟨names, read, nothing⟩ := read
  rw [Xml.declarations?, Xml.declarations?, List.mapM_append, read]
  cases declared.mapM fun a => (Xml.readQName? a.1.toList).map fun r => (r.1, a.2) with
  | none => rfl
  | some ns => simp [nothing]

/-- The namespaces that the root of a document declares. -/
theorem declarations?_namespaces (hp : isPlainName o.theme.keyClass.pre = true)
    (hx : o.theme.keyClass.pre ≠ "xml") :
    Xml.declarations? ((documentNamespaces o).map NamespaceDecl.attribute) = some (documentScope o) := by
  have default : Xml.readQName? "xmlns".toList = some (⟨"", "xmlns"⟩, []) := readQName?_name (by decide)
  have declaring : ∀ {pre : String}, isPlainName pre = true →
      Xml.readQName? ("xmlns:" ++ pre).toList = some (⟨"xmlns", pre⟩, []) := by
    intro pre hp
    have colon : "xmlns:" = "xmlns" ++ ":" := by decide
    rw [colon]
    exact readQName?_qualified (by decide) hp
  have language : Xml.readQName? "xmlns:x".toList = some (⟨"xmlns", "x"⟩, []) := 
    declaring (show isPlainName "x" = true by decide)
  -- no namespace of a class is one of those that are reserved
  have apart : ∀ s : String, s.toList.head? = some 'h' → o.theme.keyClass.namespaceUri ≠ s := by
    rintro s start rfl
    have chars : ("clr-namespace:" ++ o.theme.keyClass.clrNamespace ++ ";assembly=" ++
        o.theme.keyClass.assembly).toList.head? = some 'h' := start
    simp at chars
  have notXmlns := apart Xml.xmlnsNamespace (by decide)
  have notXml := apart Xml.xmlNamespace (by decide)
  have first : Xml.declaration? (⟨"", "xmlns"⟩, presentationNamespace) = some [("", presentationNamespace)] := by decide
  have second : Xml.declaration? (⟨"xmlns", "x"⟩, languageNamespace) = some [("x", languageNamespace)] := by decide
  have third : Xml.declaration? (⟨"xmlns", o.theme.keyClass.pre⟩, o.theme.keyClass.namespaceUri) =
      some [(o.theme.keyClass.pre, o.theme.keyClass.namespaceUri)] := by
    simp only [Xml.declaration?, beq_iff_eq, notXmlns, notXml, hx, if_false, if_true]
  have all : ([(⟨"", "xmlns"⟩, presentationNamespace), (⟨"xmlns", "x"⟩, languageNamespace),
      (⟨"xmlns", o.theme.keyClass.pre⟩, o.theme.keyClass.namespaceUri)] : List (Xml.QName × String)).filter
        Xml.isDeclaration = _ := List.filter_eq_self.mpr (by simp [Xml.isDeclaration])
  rw [attributes_namespaces hp, Xml.declarations?]
  simp only [List.mapM_cons, List.mapM_nil]
  rw [default, language, declaring hp]
  dsimp only [Option.map_some, Option.bind_eq_bind, Option.bind_some, Option.pure_def]
  rw [all]
  simp only [List.mapM_cons, List.mapM_nil, first, second, third]
  rfl

/-- The attributes of members and the one that keeps white space declare nothing. -/
theorem memberAttributes_declare {ms : List MemberNode} (plain : membersPlain o.theme.keyClass ms)
    (items : List Node) : ∀ a ∈ memberAttributes (documentNamespaces o) ms ++ preserveAttribute items,
      ∃ q, Xml.readQName? a.1.toList = some (q, []) ∧ Xml.isDeclaration (q, a.2) = false := by
  intro a ha
  have resolves : PartResolves (documentScope o) (attributePart a) := by
    rcases List.mem_append.mp ha with member | keeps
    · obtain ⟨⟨name, owner, kind, isContent, collection, inside⟩, hm, found⟩ := List.mem_filterMap.mp member
      have declared := (membersPlain_iff.mp plain _ hm).1
      split at found
      · cases found
      · obtain ⟨v, -, rfl⟩ := Option.map_eq_some_iff.mp found
        exact resolves_attributeName declared isContent collection inside v
    · exact partResolves_preserve items _ (List.mem_map_of_mem keeps)
  obtain ⟨q, read, other, -⟩ := resolves
  exact ⟨q, read, other⟩

/-! ## Documents -/

/-- **Prefixes.** If the prefix of the key class is a name of its own, every prefix in the markup of a document is
declared once on its root, for the namespace that is meant. -/
theorem documentMarkup_prefixes (hp : isPlainName o.theme.keyClass.pre = true)
    (own : o.theme.keyClass.pre ∉ ["x", "xml", "xmlns"]) {indent : Nat} {d : Document} {markup : String}
    (h : documentMarkup .builtIn o indent d = .ok markup) :
    ∃ g : Graph, markup = g.markup indent ∧ g.namespaces = documentNamespaces o ∧
      g.PrefixesResolve o.theme.keyClass (documentScope o) := by
  obtain ⟨members, builds, ⟨plain, -⟩, -⟩ := forms_document o d
  have known : IsKnown o.theme.keyClass (printedObject o (.mk .flowDocument members)) := .inl plain
  simp only [List.mem_cons, List.not_mem_nil, or_false, not_or] at own
  obtain ⟨notLanguage, notXml, -⟩ := own
  have nonempty : o.theme.keyClass.pre ≠ "" := fun empty => by
    rw [empty] at hp
    exact absurd hp (by decide)
  have bound : (documentScope o).lookup o.theme.keyClass.pre = some o.theme.keyClass.namespaceUri := by
    simp [documentScope, List.lookup_cons, beq_eq_false_iff_ne.mpr nonempty, beq_eq_false_iff_ne.mpr notLanguage]
  refine ⟨_, documentMarkup_of_builds areBuiltIn_builtIn builds h, rfl, ⟨?_, ?_, ?_, ?_, ?_⟩⟩
  · refine ⟨_, _, _, _, _, rfl, ?_⟩
    rw [List.append_assoc, declarations?_append _ (memberAttributes_declare plain _)]
    exact declarations?_namespaces hp notXml
  · simp [documentScope, Ne.symm nonempty, Ne.symm notLanguage]
  · intro part printed
    have all := (parts_perm (documentNamespaces o) ((documentNamespaces o).map NamespaceDecl.attribute)
      (printedObject o (.mk .flowDocument members))).subset (List.mem_append_left _ printed)
    exact resolves_object _ _ plain part all
  · exact fun p _ => names_qualify p.type (isPlainName_extensionShortName p.type)
  · intro p within static m hm directive
    rcases known.within within with plain | ⟨key, rfl⟩ | ⟨key, contained, rfl⟩
    · obtain ⟨type, ms⟩ := p
      obtain ⟨name, owner, kind, isContent, collection, items⟩ := m
      exact absurd directive (membersPlain_iff.mp plain _ hm).1.ne_directive
    · cases static
    · obtain rfl := List.mem_singleton.mp hm
      exact ⟨key, contained, rfl, by rwa [prefixOf_staticReference hp]⟩

/-- A replayed fragment in a document with a key that is known and one that is not. -/
theorem documentMarkup_prefixes_replayed :
    ∃ markup g, documentMarkup .builtIn { rawMarkup := .replay } 2
        [.heading 1 [.text "a", .raw "<Bold ToolTip=\"b\">c</Bold>"]] = .ok markup ∧
      markup = Graph.markup g 2 ∧ g.PrefixesResolve {} (documentScope { rawMarkup := .replay }) := by
  have rendered : (documentMarkup .builtIn { rawMarkup := .replay } 2
      [.heading 1 [.text "a", .raw "<Bold ToolTip=\"b\">c</Bold>"]]).isOk = true := by decide +kernel
  cases h : documentMarkup .builtIn { rawMarkup := .replay } 2
      [.heading 1 [.text "a", .raw "<Bold ToolTip=\"b\">c</Bold>"]] with
  | error e => rw [h] at rendered; cases rendered
  | ok markup =>
    obtain ⟨g, printed, -, resolve⟩ := documentMarkup_prefixes (by decide) (by decide) h
    exact ⟨markup, g, rfl, printed, resolve⟩

/-- Options with a key class of a prefix. -/
def prefixedOptions (pre : String) : Options where
  theme := { keyClass := { typeName := "M", pre, clrNamespace := "N", assembly := "A" } }

/-- A key class with the prefix of the language: the root declares it twice. -/
theorem language_prefix_declared_twice :
    documentMarkup .builtIn (prefixedOptions "x") 2 [] = .ok ((spelledTranslation (prefixedOptions "x") []).markup 2) ∧
      ∃ name attributes closed flow children,
        (spelledTranslation (prefixedOptions "x") []).element = .element name attributes closed flow children ∧
        Xml.declarations? attributes = some [("", presentationNamespace), ("x", languageNamespace),
          ("x", "clr-namespace:N;assembly=A")] := by
  have rendered : (documentMarkup .builtIn (prefixedOptions "x") 2 []).isOk = true := by decide +kernel
  constructor
  · cases h : documentMarkup .builtIn (prefixedOptions "x") 2 [] with
    | error e => rw [h] at rendered; cases rendered
    | ok markup => rw [documentMarkup_eq (by decide) h]
  · exact ⟨_, _, _, _, _, rfl, by decide +kernel⟩

end FlowDoc.Render
