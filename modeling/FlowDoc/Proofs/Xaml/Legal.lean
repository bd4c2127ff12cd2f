import FlowDoc.Proofs.Xaml.Printing
import FlowDoc.Proofs.Xaml.Tidy
import FlowDoc.Proofs.Xml.Legal

/-!
# Legal values

What is printed of a graph besides its values is names, brackets and quotes, and quoting and escaping a value keeps all
its characters. So if the names in a graph are names, its parts are legal exactly if its values are
(`isLegal_parts`), and its markup is if nothing that is left out of it spoils that (**`isLegal_markup`**).
-/

namespace FlowDoc.Xaml

open Xml (Part attributePart allParts isLegal isPlainName)

/-! ## Values of a graph -/

mutual

/-- Whether all values in an object are legal. -/
def Object.isLegal : Object → Bool
  | .mk _ members => membersLegal members

def membersLegal : List MemberNode → Bool
  | [] => true
  | m :: ms => m.isLegal && membersLegal ms

def MemberNode.isLegal : MemberNode → Bool
  | .mk _ _ _ _ _ items => nodesLegal items

def nodesLegal : List Node → Bool
  | [] => true
  | n :: ns => n.isLegal && nodesLegal ns

def Node.isLegal : Node → Bool
  | .object o => o.isLegal
  | .value v => Xml.isLegal v.display

end

theorem membersLegal_append (ms ns : List MemberNode) :
    membersLegal (ms ++ ns) = (membersLegal ms && membersLegal ns) := by
  induction ms with
  | nil => rfl
  | cons m ms ih => rw [List.cons_append, membersLegal, membersLegal, ih, Bool.and_assoc]

theorem nodesLegal_eq (ns : List Node) : nodesLegal ns = ns.all Node.isLegal := by
  induction ns with
  | nil => rfl
  | cons n ns ih => rw [nodesLegal, ih, List.all_cons]

theorem isLegal_of_isPlainName {s : String} (h : isPlainName s = true) : isLegal s = true :=
  List.all_eq_true.mpr fun c hc => Xml.isChar_of_isNameChar ((isPlainName_iff.mp h).2 c hc)

theorem isLegal_extensionShortName (type : ElementType) : isLegal (extensionShortName type.name) = true :=
  isLegal_of_isPlainName (isPlainName_extensionShortName type)

/-! ## Printed values -/

theorem isLegal_quoteArgument (s : String) : isLegal (quoteArgument s) = isLegal s := by
  have quote : Xml.isChar '\'' = true := by decide
  have back : Xml.isChar '\\' = true := by decide
  have escaped : ∀ c : Char, (if c == '\'' then ['\\', '\''] else [c]).all Xml.isChar = Xml.isChar c := by
    intro c
    by_cases hc : c = '\''
    · simp [hc, quote, back]
    · simp [hc]
  rw [quoteArgument, Xml.isLegal_ofList, List.all_append, List.all_cons, List.all_flatMap, List.all_cons, List.all_nil,
    quote, Bool.true_and, Bool.and_true]
  exact (Bool.and_true _).trans (congrArg s.toList.all (funext escaped))

theorem isLegal_extensionArgument (s : String) : isLegal (extensionArgument s) = isLegal s := by
  rw [extensionArgument]
  split
  · exact isLegal_quoteArgument s
  · rfl

theorem isLegal_literalAttribute (s : String) : isLegal (literalAttribute s) = isLegal s := by
  have braces : isLegal "\x7b\x7d" = true := by decide
  rw [literalAttribute]
  split
  · rw [Xml.isLegal_append, braces, Bool.true_and]
  · rfl

theorem isLegal_braced {name : String} (hn : isLegal name = true) (arguments : List String) :
    isLegal (braced name arguments) = arguments.all isLegal := by
  have marks : isLegal "\x7b" = true ∧ isLegal "\x7d" = true ∧ isLegal " " = true ∧ isLegal ", " = true := by decide
  obtain ⟨opening, closing, space, comma⟩ := marks
  rw [braced, Xml.isLegal_append, Xml.isLegal_append, Xml.isLegal_append, opening, closing, hn]
  cases arguments with
  | nil => decide
  | cons a as =>
    simp only [List.isEmpty_cons, Bool.false_eq_true, if_false, Xml.isLegal_append, space,
      Xml.isLegal_intercalate comma, Bool.true_and, Bool.and_true]

/-- Whether names stay legal with the prefixes of namespaces in front of them. -/
def PrefixesLegal (namespaces : List NamespaceDecl) : Prop :=
  ∀ (type : ElementType) {name : String}, isLegal name = true → isLegal (qualify namespaces type.space name) = true

variable {namespaces : List NamespaceDecl}

mutual

/-- An extension is legal exactly if its values are. -/
theorem isLegal_extension (hq : PrefixesLegal namespaces) : ∀ o : Object, o.passes MemberNode.isNamed = true →
    isLegal (o.extension namespaces) = o.isLegal
  | .mk type members, h => by
    rw [Object.extension, isLegal_braced (hq type (isLegal_extensionShortName type)), Object.isLegal]
    exact isLegal_extensionArguments hq members h

theorem isLegal_extensionArguments (hq : PrefixesLegal namespaces) : ∀ ms : List MemberNode,
    membersPass MemberNode.isNamed ms = true →
      (extensionArguments namespaces ms).all isLegal = membersLegal ms
  | [], _ => rfl
  | m :: ms, h => by
    obtain ⟨first, rest⟩ := Bool.and_eq_true_iff.mp h
    rw [extensionArguments, List.all_append, isLegal_member_extension hq m first,
      isLegal_extensionArguments hq ms rest, membersLegal]

theorem isLegal_member_extension (hq : PrefixesLegal namespaces) : ∀ m : MemberNode, m.passes MemberNode.isNamed = true →
    (m.extensionArguments namespaces).all isLegal = m.isLegal
  | .mk name owner kind isContent collection items, h => by
    obtain ⟨names, inside⟩ := Bool.and_eq_true_iff.mp h
    have inner := isLegal_nodesExtension hq items inside
    have named : isLegal name = true := isLegal_of_isPlainName (Bool.and_eq_true_iff.mp names).2
    have marks : isLegal "=" = true ∧ isLegal ", " = true := by decide
    rw [MemberNode.extensionArguments, MemberNode.isLegal, ← inner]
    split
    · rfl
    · rw [List.all_cons, List.all_nil, Bool.and_true, Xml.isLegal_append, Xml.isLegal_append, named, marks.1,
        Xml.isLegal_intercalate marks.2, Bool.true_and, Bool.true_and]

theorem isLegal_nodesExtension (hq : PrefixesLegal namespaces) : ∀ ns : List Node, nodesPass MemberNode.isNamed ns = true →
    (nodesExtension namespaces ns).all isLegal = nodesLegal ns
  | [], _ => rfl
  | n :: ns, h => by
    obtain ⟨first, rest⟩ := Bool.and_eq_true_iff.mp h
    rw [nodesExtension, List.all_cons, isLegal_node_extension hq n first,
      isLegal_nodesExtension hq ns rest, nodesLegal]

theorem isLegal_node_extension (hq : PrefixesLegal namespaces) : ∀ n : Node, n.passes MemberNode.isNamed = true →
    isLegal (n.extension namespaces) = n.isLegal
  | .object o, h => isLegal_extension hq o h
  | .value v, _ => isLegal_extensionArgument v.display

end

/-- The value of an attribute is legal exactly if its member is. -/
theorem isLegal_attributeValue (hq : PrefixesLegal namespaces) {m : MemberNode}
    (h : m.passes MemberNode.isNamed = true) {v : String}
    (hv : m.attributeValue? namespaces = some v) : isLegal v = m.isLegal := by
  obtain ⟨name, owner, kind, isContent, collection, items⟩ := m
  obtain ⟨-, named⟩ := Bool.and_eq_true_iff.mp h
  unfold MemberNode.attributeValue? at hv
  split at hv
  · next w only =>
    obtain rfl : items = [.value w] := only
    cases hv
    rw [isLegal_literalAttribute, MemberNode.isLegal, nodesLegal, nodesLegal, Node.isLegal, Bool.and_true]
  · next o only =>
    obtain rfl : items = [.object o] := only
    obtain ⟨-, same⟩ := Option.ite_none_right_eq_some.mp hv
    cases same
    rw [nodesPass, nodesPass, Bool.and_true] at named
    rw [isLegal_extension hq o named, MemberNode.isLegal, nodesLegal, nodesLegal, Node.isLegal, Bool.and_true]
  · cases hv

theorem isLegal_attributeName {m : MemberNode} (h : m.isNamed = true) : isLegal m.attributeName = true := by
  obtain ⟨ownerNamed, named⟩ := Bool.and_eq_true_iff.mp h
  have marks : isLegal "." = true ∧ isLegal "x:" = true := by decide
  have own := isLegal_of_isPlainName ownerNamed
  have self := isLegal_of_isPlainName named
  rw [MemberNode.attributeName]
  cases m.kind <;> simp [own, self, marks]

theorem isLegal_propertyElementName {m : MemberNode} (h : m.isNamed = true) {element : String}
    (he : isLegal element = true) : isLegal (m.propertyElementName element) = true := by
  obtain ⟨ownerNamed, named⟩ := Bool.and_eq_true_iff.mp h
  have marks : isLegal "." = true ∧ isLegal "x:" = true := by decide
  have own := isLegal_of_isPlainName ownerNamed
  have self := isLegal_of_isPlainName named
  rw [MemberNode.propertyElementName]
  cases m.kind <;> simp [own, self, marks, he]

mutual

/-- **Parts.** The parts of an object are legal exactly if its values and its further attributes are. -/
theorem isLegal_parts (hq : PrefixesLegal namespaces) (declared : List (String × String)) :
    ∀ o : Object, o.passes MemberNode.isNamed = true →
      (o.parts namespaces declared).all Part.isLegal = ((declared.map attributePart).all Part.isLegal && o.isLegal)
  | .mk type members, h => by
    have tag : isLegal (qualify namespaces type.space type.name) = true :=
      hq type (isLegal_of_isPlainName (isPlainName_vocabulary type).1)
    have preserve :
        ((preserveAttribute (Object.mk type members).content).map attributePart).all Part.isLegal = true := by
      rw [preserveAttribute]
      split <;> decide
    rw [Object.parts, List.all_append, List.all_cons, Part.isLegal, tag, List.map_append, List.all_append, preserve,
      isLegal_membersParts hq tag members h, Object.isLegal, Bool.true_and, Bool.and_true]

theorem isLegal_membersParts (hq : PrefixesLegal namespaces) {element : String} (he : isLegal element = true) :
    ∀ ms : List MemberNode, membersPass MemberNode.isNamed ms = true →
      (membersParts namespaces element ms).all Part.isLegal = membersLegal ms
  | [], _ => rfl
  | m :: ms, h => by
    obtain ⟨first, rest⟩ := Bool.and_eq_true_iff.mp h
    rw [membersParts, List.all_append, isLegal_member_parts hq he m first,
      isLegal_membersParts hq he ms rest, membersLegal]

theorem isLegal_member_parts (hq : PrefixesLegal namespaces) {element : String} (he : isLegal element = true) :
    ∀ m : MemberNode, m.passes MemberNode.isNamed = true → (m.parts namespaces element).all Part.isLegal = m.isLegal
  | .mk name owner kind isContent collection items, h => by
    have own := MemberNode.check_of_passes h
    have inside := isLegal_nodesParts hq items (Bool.and_eq_true_iff.mp h).2
    rw [MemberNode.parts]
    split
    · exact inside
    · split
      · next v found =>
        rw [List.all_cons, List.all_nil, Bool.and_true, Part.isLegal, isLegal_attributeName own, Bool.true_and]
        exact isLegal_attributeValue hq h found
      · rw [List.all_cons, Part.isLegal, isLegal_propertyElementName own he, Bool.true_and]
        exact inside

theorem isLegal_nodesParts (hq : PrefixesLegal namespaces) : ∀ ns : List Node, nodesPass MemberNode.isNamed ns = true →
    (nodesParts namespaces ns).all Part.isLegal = nodesLegal ns
  | [], _ => rfl
  | n :: ns, h => by
    obtain ⟨first, rest⟩ := Bool.and_eq_true_iff.mp h
    rw [nodesParts, List.all_append, isLegal_node_parts hq n first,
      isLegal_nodesParts hq ns rest, nodesLegal]

theorem isLegal_node_parts (hq : PrefixesLegal namespaces) : ∀ n : Node, n.passes MemberNode.isNamed = true →
    (n.parts namespaces).all Part.isLegal = n.isLegal
  | .object o, h => by
    have inner := isLegal_parts hq [] o h
    rwa [List.map_nil, List.all_nil, Bool.true_and] at inner
  | .value v, _ => by
    rw [Node.parts, List.all_cons, List.all_nil, Bool.and_true, Part.isLegal, Node.isLegal]

end

/-- **The markup of a graph is legal exactly if its values and its namespaces are**, if what is left out of it is. -/
theorem isLegal_markup (hq : PrefixesLegal namespaces) {root : Object} (named : root.passes MemberNode.isNamed = true)
    (lost : (root.lost namespaces).all Part.isLegal = true) (indent : Nat) :
    isLegal (Graph.markup ⟨namespaces, root⟩ indent) =
      (((namespaces.map NamespaceDecl.attribute).map attributePart).all Part.isLegal && root.isLegal) := by
  have printed := (parts_perm namespaces (namespaces.map NamespaceDecl.attribute) root).all_eq (f := Part.isLegal)
  rw [List.all_append, lost, Bool.and_true, isLegal_parts hq _ root named] at printed
  rw [Graph.markup, Xml.isLegal_print]
  exact printed

/-- What is left out of a legal object is legal. -/
theorem isLegal_lost (hq : PrefixesLegal namespaces) {o : Object} (named : o.passes MemberNode.isNamed = true)
    (legal : o.isLegal = true) : (o.lost namespaces).all Part.isLegal = true := by
  have printed := (parts_perm namespaces [] o).all_eq (f := Part.isLegal)
  rw [isLegal_parts hq [] o named, legal, List.all_append] at printed
  exact (Bool.and_eq_true_iff.mp printed).2

/-! ## What is left out -/

theorem membersLost_append (found : Bool) (ms ns : List MemberNode) :
    membersLost namespaces found (ms ++ ns) =
      membersLost namespaces found ms ++ membersLost namespaces (found || ms.any (·.isContent)) ns := by
  induction ms generalizing found with
  | nil => simp [membersLost]
  | cons m ms ih => simp [membersLost, ih, Bool.or_assoc]

end FlowDoc.Xaml
