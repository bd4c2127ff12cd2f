import FlowDoc.Proofs.Xaml.Reception
import FlowDoc.Proofs.Xml.Nesting
import FlowDoc.Xaml.Markup

/-!
# Objects that print as well nested markup

Members have names of the vocabulary, which are names of markup, so an object without two members of one attribute name
becomes a tidy element (`isTidy_element`), whatever its values are. What is asked of the members of a graph at all depths
is one function with the check as its parameter (`Object.passes`).
-/

namespace FlowDoc.Xaml

open Xml (isPlainName IsQualified isQualified_space AreAttributes AreTidy)

/-! ## Names -/

theorem isPlainName_iff {s : String} :
    isPlainName s = true ↔ Xml.isName s.toList = true ∧ ∀ c ∈ s.toList, Xml.isNameChar c = true := by
  rw [isPlainName, Bool.and_eq_true, List.all_eq_true]

/-- Two names with a full stop between them. -/
theorem isPlainName_dot {s t : String} (hs : isPlainName s = true) (ht : isPlainName t = true) :
    isPlainName (s ++ "." ++ t) = true := by
  obtain ⟨start, chars⟩ := isPlainName_iff.mp hs
  refine isPlainName_iff.mpr ⟨?_, ?_⟩
  · obtain ⟨c, cs, hc⟩ : ∃ c cs, s.toList = c :: cs := by
      cases h : s.toList with
      | nil => rw [h] at start; cases start
      | cons c cs => exact ⟨c, cs, rfl⟩
    rw [hc] at start
    simpa [hc, Xml.isName] using start
  · have stop : Xml.isNameChar '.' = true := by decide
    intro c hc
    simp only [String.toList_append, List.mem_append] at hc
    rcases hc with (hc | hc) | hc
    · exact chars c hc
    · have : c = '.' := by simpa using hc
      exact this ▸ stop
    · exact (isPlainName_iff.mp ht).2 c hc

/-- A qualified name and a name with a full stop between them. -/
theorem isQualified_dot {s t : String} (hs : IsQualified s) (ht : isPlainName t = true) :
    IsQualified (s ++ "." ++ t) := by
  cases hs with
  | plain hs => exact .plain (isPlainName_dot hs ht)
  | prefixed hp hs =>
    have joined := IsQualified.prefixed hp (isPlainName_dot hs ht)
    simpa [String.append_assoc] using joined

/-- Whether the prefixes of namespaces may stand in names. -/
def HavePrefixes (namespaces : List NamespaceDecl) : Prop :=
  ∀ ns ∈ namespaces, ns.pre.isEmpty = true ∨ isPlainName ns.pre = true

theorem isQualified_qualify {namespaces : List NamespaceDecl} (h : HavePrefixes namespaces) (space : String)
    {name : String} (hname : isPlainName name = true) : IsQualified (qualify namespaces space name) := by
  rw [qualify]
  split
  · next ns found =>
    split
    · exact .plain hname
    · next nonempty =>
      rcases h ns (List.mem_of_find?_eq_some found) with empty | named
      · exact absurd empty nonempty
      · exact .prefixed named hname
  · exact .plain hname

/-! ## Members -/

namespace Member

/-- The name of a member's attribute. -/
def attributeName (m : Member) : String :=
  match m.kind with
  | .property => m.name
  | .attached => m.owner ++ "." ++ m.name
  | .directive => "x:" ++ m.name

/-- Whether the names of a member are names of markup. -/
def isNamed (m : Member) : Bool := isPlainName m.owner && isPlainName m.name

theorem isQualified_attributeName {m : Member} (h : m.isNamed = true) : IsQualified m.attributeName := by
  obtain ⟨owner, name⟩ := Bool.and_eq_true_iff.mp h
  rw [attributeName]
  cases m.kind with
  | property => exact .plain name
  | attached => exact .plain (isPlainName_dot owner name)
  | directive => exact IsQualified.prefixed (show isPlainName "x" = true by decide) name

end Member

/-- The names of types and of the members that they declare. -/
theorem isPlainName_vocabulary (t : ElementType) :
    isPlainName t.name = true ∧ ∀ d ∈ t.ownMembers, isPlainName d.name = true := by
  cases t <;> decide

theorem isPlainName_extensionShortName (t : ElementType) : isPlainName (extensionShortName t.name) = true := by
  cases t <;> decide

/-- A member that is found by its name. -/
theorem member?_named {type : ElementType} {name : String} {m : Member} (h : type.member? name = some m) :
    m.attributeName = name ∧ m.isNamed = true := by
  obtain ⟨t, -, own⟩ := List.exists_of_findSome?_eq_some h
  obtain ⟨d, found, rfl⟩ := Option.map_eq_some_iff.mp own
  have same : d.name = name ∧ d.attachable = false := by simpa using List.find?_some found
  obtain ⟨typeName, members⟩ := isPlainName_vocabulary t
  have declared := members d (List.mem_of_find?_eq_some found)
  exact ⟨same.1, by simp [Member.isNamed, typeName, declared]⟩

theorem content?_named {type : ElementType} {m : Member} (h : type.content? = some m) : m.isNamed = true := by
  obtain ⟨t, -, own⟩ := List.exists_of_findSome?_eq_some h
  obtain ⟨name, -, found⟩ := Option.bind_eq_some_iff.mp own
  exact (member?_named found).2

/-! ## Members of objects -/

/-- An object in another, at any depth, or the same. -/
inductive Object.Within (p : Object) : Object → Prop
  | self : Within p p
  | inMember {o c : Object} {m : MemberNode} : m ∈ o.members → .object c ∈ m.items → Within p c → Within p o

theorem Object.Within.trans {p c o : Object} (inner : p.Within c) (outer : c.Within o) : p.Within o := by
  induction outer with
  | self => exact inner
  | inMember hm hc _ ih => exact .inMember hm hc ih

/-- Whether the names of a member are names of markup. -/
def MemberNode.isNamed (m : MemberNode) : Bool := isPlainName m.owner && isPlainName m.name

/-- Whether a member has a name of markup if it is written by its name among arguments. -/
def MemberNode.isNamedArgument (m : MemberNode) : Bool := m.kind == .directive || isPlainName m.name

mutual

/-- Whether all members of an object, and of the objects in it, pass a check. -/
def Object.passes (check : MemberNode → Bool) : Object → Bool
  | .mk _ members => membersPass check members

def membersPass (check : MemberNode → Bool) : List MemberNode → Bool
  | [] => true
  | m :: ms => m.passes check && membersPass check ms

def MemberNode.passes (check : MemberNode → Bool) : MemberNode → Bool
  | .mk name owner kind isContent collection items =>
    check (.mk name owner kind isContent collection items) && nodesPass check items

def nodesPass (check : MemberNode → Bool) : List Node → Bool
  | [] => true
  | n :: ns => n.passes check && nodesPass check ns

def Node.passes (check : MemberNode → Bool) : Node → Bool
  | .object o => o.passes check
  | .value _ => true

end

section Passes

variable {check : MemberNode → Bool}

theorem membersPass_eq (ms : List MemberNode) : membersPass check ms = ms.all (MemberNode.passes check) := by
  induction ms with
  | nil => rfl
  | cons m ms ih => rw [membersPass, ih, List.all_cons]

theorem nodesPass_eq (ns : List Node) : nodesPass check ns = ns.all (Node.passes check) := by
  induction ns with
  | nil => rfl
  | cons n ns ih => rw [nodesPass, ih, List.all_cons]

theorem MemberNode.passes_eq (m : MemberNode) : m.passes check = (check m && nodesPass check m.items) := by
  cases m
  rfl

theorem MemberNode.check_of_passes {m : MemberNode} (h : m.passes check = true) : check m = true := by
  rw [passes_eq] at h
  exact (Bool.and_eq_true_iff.mp h).1

/-- The members of the objects in an object pass a check if its own do. -/
theorem Object.Within.passes {p o : Object} (within : p.Within o) (h : o.passes check = true) :
    p.passes check = true := by
  induction within with
  | self => exact h
  | @inMember o c m hm hc _ ih =>
    obtain ⟨type, members⟩ := o
    rw [Object.passes, membersPass_eq, List.all_eq_true] at h
    have inside := h m hm
    rw [MemberNode.passes_eq, Bool.and_eq_true, nodesPass_eq, List.all_eq_true] at inside
    exact ih (inside.2 _ hc)

end Passes

/-! ## Tidy phrases -/

def MemberPhrase.member : MemberPhrase → Member
  | .mk member _ _ => member

/-- The names of the attributes that members may become. -/
def attributeNames (members : List MemberPhrase) : List String := members.map (·.member.attributeName)

mutual

/-- That no object in a phrase has two members of one attribute name, and that all members have names. -/
def ObjectPhrase.IsTidy : ObjectPhrase → Prop
  | .mk _ members => ((attributeNames members).Nodup ∧ "xml:space" ∉ attributeNames members) ∧ MembersTidy members

def MembersTidy : List MemberPhrase → Prop
  | [] => True
  | m :: ms => m.IsTidy ∧ MembersTidy ms

def MemberPhrase.IsTidy : MemberPhrase → Prop
  | .mk member _ items => member.isNamed = true ∧ ItemsTidy items

def ItemsTidy : List ItemPhrase → Prop
  | [] => True
  | i :: is => i.IsTidy ∧ ItemsTidy is

def ItemPhrase.IsTidy : ItemPhrase → Prop
  | .object o => o.IsTidy
  | .value _ => True

end

theorem membersTidy_append {ms ns : List MemberPhrase} : MembersTidy (ms ++ ns) ↔ MembersTidy ms ∧ MembersTidy ns := by
  induction ms with
  | nil => simp [MembersTidy]
  | cons m ms ih => simp [MembersTidy, ih, and_assoc]

theorem itemsTidy_iff {items : List ItemPhrase} : ItemsTidy items ↔ ∀ i ∈ items, i.IsTidy := by
  induction items with
  | nil => simp [ItemsTidy]
  | cons i is ih => simp [ItemsTidy, ih]

mutual

/-- The names in a tidy object are names of markup. -/
theorem isNamed_object : ∀ o : ObjectPhrase, o.IsTidy → o.object.passes MemberNode.isNamed = true
  | .mk type members, h => isNamed_membersNodes type members h.2

theorem isNamed_membersNodes (type : ElementType) : ∀ ms : List MemberPhrase, MembersTidy ms →
    membersPass MemberNode.isNamed (membersNodes type ms) = true
  | [], _ => rfl
  | .mk _ _ items :: ms, ⟨⟨names, inside⟩, rest⟩ =>
    Bool.and_eq_true_iff.mpr
      ⟨Bool.and_eq_true_iff.mpr ⟨names, isNamed_itemsNodes items inside⟩, isNamed_membersNodes type ms rest⟩

theorem isNamed_itemsNodes : ∀ is : List ItemPhrase, ItemsTidy is →
    nodesPass MemberNode.isNamed (itemsNodes is) = true
  | [], _ => rfl
  | .object o :: is, h => Bool.and_eq_true_iff.mpr ⟨isNamed_object o h.1, isNamed_itemsNodes is h.2⟩
  | .value _ :: is, h => Bool.and_eq_true_iff.mpr ⟨rfl, isNamed_itemsNodes is h.2⟩

end

/-! ## Tidy elements -/

variable {namespaces : List NamespaceDecl}

theorem attributeName_node (type : ElementType) (m : MemberPhrase) :
    (m.node type).attributeName = m.member.attributeName := by
  obtain ⟨⟨owner, name, form, kind, collection⟩, _, items⟩ := m
  cases kind <;> rfl

/-- The attributes of an object are some of its members, in order. -/
theorem names_memberAttributes (type : ElementType) (ms : List MemberPhrase) :
    ((memberAttributes namespaces (membersNodes type ms)).map Prod.fst).Sublist (attributeNames ms) := by
  induction ms with
  | nil => exact .slnil
  | cons m ms ih =>
    rw [membersNodes, memberAttributes, List.filterMap_cons]
    split
    · exact ih.cons _
    · next a ha =>
      have name : a.1 = m.member.attributeName := by
        split at ha
        · cases ha
        · obtain ⟨v, -, rfl⟩ := Option.map_eq_some_iff.mp ha
          exact attributeName_node type m
      rw [List.map_cons, name]
      exact ih.cons_cons _

theorem isQualified_attributeNames {ms : List MemberPhrase} (h : MembersTidy ms) :
    ∀ name ∈ attributeNames ms, IsQualified name := by
  induction ms with
  | nil => intro name hname; cases hname
  | cons m ms ih =>
    obtain ⟨member, collection, items⟩ := m
    intro name hname
    rcases List.mem_cons.mp hname with rfl | hname
    · exact Member.isQualified_attributeName h.1.1
    · exact ih h.2 name hname

/-- The attribute that keeps white space, if there is one. -/
theorem names_preserveAttribute (items : List Node) :
    ((preserveAttribute items).map Prod.fst).Sublist ["xml:space"] := by
  rw [preserveAttribute]
  split
  · exact .refl _
  · exact List.nil_sublist _

/-- The attributes of an element: those that are declared, those of members, and the one that keeps white space. -/
theorem areAttributes {declared : List (String × String)} {type : ElementType} {ms : List MemberPhrase}
    (tidy : (ObjectPhrase.mk type ms).IsTidy) (hd : AreAttributes declared)
    (apart : ∀ a ∈ declared, a.1 ≠ "xml:space" ∧ a.1 ∉ attributeNames ms) (items : List Node) :
    AreAttributes (declared ++ memberAttributes namespaces (membersNodes type ms) ++ preserveAttribute items) := by
  obtain ⟨⟨nodup, free⟩, members⟩ := tidy
  -- all names that there may be, which are distinct
  have names : ((declared ++ memberAttributes namespaces (membersNodes type ms) ++ preserveAttribute items).map
      Prod.fst).Sublist (declared.map Prod.fst ++ attributeNames ms ++ ["xml:space"]) := by
    rw [List.map_append, List.map_append]
    exact ((List.Sublist.refl _).append (names_memberAttributes type ms)).append (names_preserveAttribute items)
  constructor
  · intro a ha
    have listed := names.subset (List.mem_map_of_mem ha)
    simp only [List.mem_append, List.mem_map, List.mem_singleton] at listed
    rcases listed with (⟨b, hb, same⟩ | own) | keep
    · exact same ▸ hd.qualified b hb
    · exact isQualified_attributeNames members _ own
    · exact keep ▸ isQualified_space
  · refine names.nodup (List.nodup_append.mpr ⟨List.nodup_append.mpr ⟨hd.nodup, nodup, ?_⟩, by simp, ?_⟩)
    · rintro name declares other own rfl
      obtain ⟨a, ha, rfl⟩ := List.mem_map.mp declares
      exact (apart a ha).2 own
    · rintro name listed other keep rfl
      obtain rfl := List.mem_singleton.mp keep
      rcases List.mem_append.mp listed with declares | own
      · obtain ⟨a, ha, same⟩ := List.mem_map.mp declares
        exact (apart a ha).1 same
      · exact free own

/-- The property element of a member. -/
theorem isQualified_propertyElementName {m : MemberPhrase} (hm : m.IsTidy) (type : ElementType) {element : String}
    (he : IsQualified element) : IsQualified ((m.node type).propertyElementName element) := by
  obtain ⟨⟨owner, name, form, kind, collection⟩, _, items⟩ := m
  obtain ⟨ownerNamed, named⟩ : isPlainName owner = true ∧ isPlainName name = true :=
    Bool.and_eq_true_iff.mp hm.1
  cases kind with
  | property => exact isQualified_dot he named
  | attached => exact .plain (isPlainName_dot ownerNamed named)
  | directive => exact IsQualified.prefixed (show isPlainName "x" = true by decide) named

mutual

/-- **Objects.** A tidy phrase becomes a tidy element. -/
theorem isTidy_element (hn : HavePrefixes namespaces) : ∀ (o : ObjectPhrase) (declared : List (String × String)),
    o.IsTidy → AreAttributes declared →
      (∀ a ∈ declared, a.1 ≠ "xml:space" ∧ ∀ type ms, o = .mk type ms → a.1 ∉ attributeNames ms) →
        (o.object.element namespaces declared).IsTidy
  | .mk type ms, declared, h, hd, apart => by
    have name := isQualified_qualify hn type.space (isPlainName_vocabulary type).1
    refine ⟨name, areAttributes h hd (fun a ha => ⟨(apart a ha).1, (apart a ha).2 type ms rfl⟩) _, ?_⟩
    exact Xml.areTidy_append.mpr ⟨areTidy_propertyElements hn ms type name h.2, areTidy_contentElements hn ms type h.2⟩

/-- Property elements. -/
theorem areTidy_propertyElements (hn : HavePrefixes namespaces) : ∀ (ms : List MemberPhrase) (type : ElementType)
    {element : String}, IsQualified element → MembersTidy ms →
      AreTidy (propertyElements namespaces element (membersNodes type ms))
  | [], _, _, _, _ => trivial
  | .mk member collection items :: ms, type, element, he, h => by
    have rest := areTidy_propertyElements hn ms type he h.2
    rw [membersNodes, propertyElements]
    split
    · exact rest
    · have none : AreAttributes [] := ⟨by simp, by simp⟩
      exact ⟨⟨isQualified_propertyElementName h.1 type he, none, areTidy_itemElements hn items h.1.2⟩, rest⟩

/-- The children of the first content member. -/
theorem areTidy_contentElements (hn : HavePrefixes namespaces) : ∀ (ms : List MemberPhrase) (type : ElementType),
    MembersTidy ms → AreTidy (contentElements namespaces (membersNodes type ms))
  | [], _, _ => trivial
  | .mk member collection items :: ms, type, h => by
    rw [membersNodes, contentElements]
    split
    · exact areTidy_itemElements hn items h.1.2
    · exact areTidy_contentElements hn ms type h.2

/-- The items of a member. -/
theorem areTidy_itemElements (hn : HavePrefixes namespaces) : ∀ items : List ItemPhrase, ItemsTidy items →
    AreTidy (nodesElements namespaces (itemsNodes items))
  | [], _ => trivial
  | .value _ :: is, h => ⟨trivial, areTidy_itemElements hn is h.2⟩
  | .object o :: is, h =>
    ⟨isTidy_element hn o [] h.1 ⟨by simp, by simp⟩ (by simp), areTidy_itemElements hn is h.2⟩

end

end FlowDoc.Xaml
