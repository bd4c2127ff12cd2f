import FlowDoc.Proofs.Xaml.Phrase
import FlowDoc.Proofs.Xml.Part
import FlowDoc.Xaml.Builder
import FlowDoc.Xaml.Markup

/-!
# What of a graph is printed

Every item of every member has a part of its own in `Object.parts`: a scalar is a text or the value of an attribute, an
object a tag followed by the parts of its members. The markup is written piece by piece, each of them one of these parts
or the syntax and layout between them, and it leaves out the parts of the content members that come after the first one
(`parts_perm`). So each item is written once exactly if these are empty (**`markup_parts`**); a graph with two content
members that have items is printed without the items of the second (`second_content_not_printed`).
-/

namespace FlowDoc.Xaml

open Xml (Part Piece MarkupPiece attributePart allParts)

/-! ## Markup extensions -/

mutual

/-- What is written of an extension: its name, and of each item of its members the argument or the extension. -/
def Object.extensionParts (namespaces : List NamespaceDecl) : Object → List String
  | .mk type members =>
    qualify namespaces type.space (extensionShortName type.name) :: membersExtensionParts namespaces members

def membersExtensionParts (namespaces : List NamespaceDecl) : List MemberNode → List String
  | [] => []
  | m :: ms => m.extensionParts namespaces ++ membersExtensionParts namespaces ms

def MemberNode.extensionParts (namespaces : List NamespaceDecl) : MemberNode → List String
  | .mk _ _ _ _ _ items => nodesExtensionParts namespaces items

def nodesExtensionParts (namespaces : List NamespaceDecl) : List Node → List String
  | [] => []
  | n :: ns => n.extensionParts namespaces ++ nodesExtensionParts namespaces ns

def Node.extensionParts (namespaces : List NamespaceDecl) : Node → List String
  | .object o => o.extensionParts namespaces
  | .value v => [extensionArgument v.display]

end

/-- A piece of an extension: a part of it, or what stands between its parts. -/
inductive ExtensionPiece
  | part (s : String)
  | opening
  | closing
  | space
  | comma
  | assign (name : String)

instance : Piece ExtensionPiece String where
  spelling
    | .part s => s
    | .opening => "\x7b"
    | .closing => "\x7d"
    | .space => " "
    | .comma => ", "
    | .assign name => name ++ "="
  part?
    | .part s => some s
    | _ => none

namespace ExtensionPiece

open Xml.Piece (text text_append text_cons parts parts_append parts_cons spelling part?)

/-- Arguments with commas between them. -/
def separated (arguments : List (List ExtensionPiece)) : List ExtensionPiece := [comma].intercalate arguments

theorem separated_cons_cons (a b : List ExtensionPiece) (bs : List (List ExtensionPiece)) :
    separated (a :: b :: bs) = a ++ comma :: separated (b :: bs) := by simp [separated]

theorem text_separated (arguments : List (List ExtensionPiece)) :
    text (separated arguments) = ", ".intercalate (arguments.map text) := by
  induction arguments with
  | nil => rfl
  | cons a as ih =>
    cases as with
    | nil => simp [separated]
    | cons b bs =>
      rw [separated_cons_cons, text_append, text_cons, ih]
      simp [spelling, String.append_assoc]

theorem parts_separated (arguments : List (List ExtensionPiece)) :
    parts (separated arguments) = arguments.flatMap parts := by
  induction arguments with
  | nil => rfl
  | cons a as ih =>
    cases as with
    | nil => simp [separated]
    | cons b bs =>
      rw [separated_cons_cons, parts_append, parts_cons, ih]
      simp [part?]

/-- The pieces of a name and arguments in braces. -/
def braced (name : String) (arguments : List (List ExtensionPiece)) : List ExtensionPiece :=
  opening :: part name :: (if arguments.isEmpty then [] else space :: separated arguments) ++ [closing]

theorem text_braced (name : String) (arguments : List (List ExtensionPiece)) :
    text (braced name arguments) = Xaml.braced name (arguments.map text) := by
  have inside := text_separated arguments
  cases arguments with
  | nil => simp [braced, Xaml.braced, spelling, String.append_assoc]
  | cons a as =>
    rw [List.map_cons] at inside
    simp [braced, Xaml.braced, spelling, inside, String.append_assoc]

theorem parts_braced (name : String) (arguments : List (List ExtensionPiece)) :
    parts (braced name arguments) = name :: arguments.flatMap parts := by
  have inside := parts_separated arguments
  cases arguments with
  | nil => rfl
  | cons a as => simp [braced, part?, inside]

end ExtensionPiece

open ExtensionPiece (separated)
open Xml.Piece (text parts)

variable (namespaces : List NamespaceDecl)

mutual

/-- The pieces of an extension, in order. -/
def Object.extensionPieces : Object → List ExtensionPiece
  | .mk type members =>
    ExtensionPiece.braced (qualify namespaces type.space (extensionShortName type.name)) (membersExtensionPieces members)

/-- The pieces of each argument of members. -/
def membersExtensionPieces : List MemberNode → List (List ExtensionPiece)
  | [] => []
  | m :: ms => m.extensionPieces ++ membersExtensionPieces ms

def MemberNode.extensionPieces : MemberNode → List (List ExtensionPiece)
  | .mk name _ kind _ _ items =>
    let arguments := nodesExtensionPieces items
    if kind == .directive then arguments else [.assign name :: separated arguments]

def nodesExtensionPieces : List Node → List (List ExtensionPiece)
  | [] => []
  | n :: ns => n.extensionPieces :: nodesExtensionPieces ns

def Node.extensionPieces : Node → List ExtensionPiece
  | .object o => o.extensionPieces
  | .value v => [.part (extensionArgument v.display)]

end

mutual

/-- **An extension is written piece by piece.** -/
theorem text_extensionPieces : ∀ o : Object, text (o.extensionPieces namespaces) = o.extension namespaces
  | .mk type members => by
    rw [Object.extension, Object.extensionPieces, ExtensionPiece.text_braced, map_text_membersExtensionPieces members]

theorem map_text_membersExtensionPieces : ∀ ms : List MemberNode,
    (membersExtensionPieces namespaces ms).map text = extensionArguments namespaces ms
  | [] => rfl
  | m :: ms => by
    rw [extensionArguments, membersExtensionPieces, List.map_append, map_text_member_extensionPieces m,
      map_text_membersExtensionPieces ms]

theorem map_text_member_extensionPieces : ∀ m : MemberNode,
    (m.extensionPieces namespaces).map text = m.extensionArguments namespaces
  | .mk name _ kind _ _ items => by
    have inner := map_text_nodesExtensionPieces items
    have joined := ExtensionPiece.text_separated (nodesExtensionPieces namespaces items)
    rw [inner] at joined
    rw [MemberNode.extensionArguments, MemberNode.extensionPieces]
    cases kind with
    | directive => exact inner
    | property => simp [Piece.spelling, joined]
    | attached => simp [Piece.spelling, joined]

theorem map_text_nodesExtensionPieces : ∀ ns : List Node,
    (nodesExtensionPieces namespaces ns).map text = nodesExtension namespaces ns
  | [] => rfl
  | n :: ns => by
    rw [nodesExtension, nodesExtensionPieces, List.map_cons, text_node_extensionPieces n,
      map_text_nodesExtensionPieces ns]

theorem text_node_extensionPieces : ∀ n : Node, text (n.extensionPieces namespaces) = n.extension namespaces
  | .object o => text_extensionPieces o
  | .value v => by simp [Node.extension, Node.extensionPieces, Piece.spelling]

end

mutual

/-- The parts among the pieces of an extension are its parts, in order. -/
theorem parts_extensionPieces : ∀ o : Object, parts (o.extensionPieces namespaces) = o.extensionParts namespaces
  | .mk type members => by
    rw [Object.extensionPieces, Object.extensionParts, ExtensionPiece.parts_braced, parts_membersExtensionPieces members]

theorem parts_membersExtensionPieces : ∀ ms : List MemberNode,
    (membersExtensionPieces namespaces ms).flatMap parts = membersExtensionParts namespaces ms
  | [] => rfl
  | m :: ms => by
    rw [membersExtensionPieces, membersExtensionParts, List.flatMap_append, parts_member_extensionPieces m,
      parts_membersExtensionPieces ms]

theorem parts_member_extensionPieces : ∀ m : MemberNode,
    (m.extensionPieces namespaces).flatMap parts = m.extensionParts namespaces
  | .mk name _ kind _ _ items => by
    have inner := parts_nodesExtensionPieces items
    have joined := ExtensionPiece.parts_separated (nodesExtensionPieces namespaces items)
    rw [inner] at joined
    rw [MemberNode.extensionPieces, MemberNode.extensionParts]
    cases kind with
    | directive => exact inner
    | property => simp [Piece.part?, joined]
    | attached => simp [Piece.part?, joined]

theorem parts_nodesExtensionPieces : ∀ ns : List Node,
    (nodesExtensionPieces namespaces ns).flatMap parts = nodesExtensionParts namespaces ns
  | [] => rfl
  | n :: ns => by
    rw [nodesExtensionPieces, nodesExtensionParts, List.flatMap_cons, parts_node_extensionPieces n,
      parts_nodesExtensionPieces ns]

theorem parts_node_extensionPieces : ∀ n : Node,
    parts (n.extensionPieces namespaces) = n.extensionParts namespaces
  | .object o => parts_extensionPieces o
  | .value _ => rfl

end

/-! ## Parts of objects -/

mutual

/-- The parts of an object with the attributes that it has besides its members: one for each item of its members. -/
def Object.parts (declared : List (String × String)) : Object → List Part
  | .mk type members =>
    .tag (qualify namespaces type.space type.name) ::
      (declared ++ preserveAttribute (Object.mk type members).content).map attributePart ++
      membersParts (qualify namespaces type.space type.name) members

def membersParts (element : String) : List MemberNode → List Part
  | [] => []
  | m :: ms => m.parts element ++ membersParts element ms

/-- A content member is its items; another member is an attribute if it can be, else its tag and its items. -/
def MemberNode.parts (element : String) : MemberNode → List Part
  | .mk name owner kind isContent collection items =>
    if isContent then nodesParts items
    else
      match (MemberNode.mk name owner kind isContent collection items).attributeValue? namespaces with
      | some v => [.attribute (MemberNode.mk name owner kind isContent collection items).attributeName v]
      | none =>
        .tag ((MemberNode.mk name owner kind isContent collection items).propertyElementName element) :: nodesParts items

def nodesParts : List Node → List Part
  | [] => []
  | n :: ns => n.parts ++ nodesParts ns

def Node.parts : Node → List Part
  | .object o => o.parts []
  | .value v => [.text v.display]

end

/-- The parts of a graph, whose root declares its namespaces. -/
def Graph.parts (g : Graph) : List Part := g.root.parts g.namespaces (g.namespaces.map NamespaceDecl.attribute)

/-! ## Parts that are lost -/

mutual

/-- The parts of an object that its markup leaves out. -/
def Object.lost : Object → List Part
  | .mk _ members => membersLost false members

/-- The parts of members that are left out: all of a content member if one came before, as `found` says. -/
def membersLost (found : Bool) : List MemberNode → List Part
  | [] => []
  | m :: ms => m.lost found ++ membersLost (found || m.isContent) ms

def MemberNode.lost (found : Bool) : MemberNode → List Part
  | .mk name owner kind isContent collection items =>
    if isContent then (if found then nodesParts namespaces items else nodesLost items)
    else if ((MemberNode.mk name owner kind isContent collection items).attributeValue? namespaces).isSome then []
    else nodesLost items

def nodesLost : List Node → List Part
  | [] => []
  | n :: ns => n.lost ++ nodesLost ns

def Node.lost : Node → List Part
  | .object o => o.lost
  | .value _ => []

end

/-! ## What the markup prints -/

theorem memberAttributes_cons (m : MemberNode) (ms : List MemberNode) :
    memberAttributes namespaces (m :: ms) =
      (if m.isContent then [] else ((m.attributeValue? namespaces).map fun v => (m.attributeName, v)).toList) ++
        memberAttributes namespaces ms := by
  rw [memberAttributes, List.filterMap_cons]
  cases m.isContent with
  | true => rfl
  | false =>
    cases m.attributeValue? namespaces with
    | none => rfl
    | some v => rfl

theorem allParts_children (children : List Xml.Content) :
    (if children.isEmpty then [] else allParts children) = allParts children := by
  cases children with
  | nil => rfl
  | cons c cs => rfl

mutual

/-- The parts of the element of an object and those it leaves out are the parts of the object. -/
theorem parts_perm (declared : List (String × String)) : ∀ o : Object,
    ((o.element namespaces declared).parts ++ o.lost namespaces).Perm (o.parts namespaces declared)
  | .mk type members => by
    refine List.perm_iff_count.mpr fun part => ?_
    have inside := (membersParts_perm (qualify namespaces type.space type.name) false members).count_eq part
    rw [Object.element, Object.lost, Object.parts, Xml.Content.parts, allParts_children, Xml.allParts_append]
    simp only [List.map_append, List.count_append, List.count_cons, Bool.false_eq_true, if_false] at inside ⊢
    omega

/-- The same of members: the content members are printed up to the first one, and not at all after one. -/
theorem membersParts_perm (element : String) (found : Bool) : ∀ ms : List MemberNode,
    ((memberAttributes namespaces ms).map attributePart ++ allParts (propertyElements namespaces element ms) ++
      (if found then [] else allParts (contentElements namespaces ms)) ++ membersLost namespaces found ms).Perm
      (membersParts namespaces element ms)
  | [] => by cases found <;> rfl
  | .mk name owner kind isContent collection items :: ms => by
    refine List.perm_iff_count.mpr fun part => ?_
    have inside := (nodesParts_perm items).count_eq part
    have after := (membersParts_perm element (found || isContent) ms).count_eq part
    rw [membersLost, membersParts, MemberNode.lost, MemberNode.parts, propertyElements, contentElements,
      memberAttributes_cons, MemberNode.itemElements]
    cases isContent with
    | true =>
      -- The items of the first content member are children; those of one after it are lost.
      cases found with
      | false =>
        simp [MemberNode.isContent] at inside after ⊢
        omega
      | true =>
        simp [MemberNode.isContent] at inside after ⊢
        omega
    | false =>
      cases hv : (MemberNode.mk name owner kind false collection items).attributeValue? namespaces with
      | some v =>
        simp [MemberNode.isContent, attributePart, List.count_cons] at inside after ⊢
        omega
      | none =>
        simp [MemberNode.isContent, allParts, Xml.Content.parts, List.count_cons] at inside after ⊢
        omega

theorem nodesParts_perm : ∀ ns : List Node,
    (allParts (nodesElements namespaces ns) ++ nodesLost namespaces ns).Perm (nodesParts namespaces ns)
  | [] => .refl _
  | n :: ns => by
    refine List.perm_iff_count.mpr fun part => ?_
    have first := (node_parts_perm n).count_eq part
    have rest := (nodesParts_perm ns).count_eq part
    rw [nodesElements, allParts, nodesLost, nodesParts]
    simp only [List.count_append] at first rest ⊢
    omega

theorem node_parts_perm : ∀ n : Node,
    ((n.content namespaces).parts ++ n.lost namespaces).Perm (n.parts namespaces)
  | .object o => parts_perm [] o
  | .value _ => .refl _

end

/-! ## When nothing is lost -/

mutual

/-- Whether only the first content member has items, in an object and in all objects that become elements in it. -/
def Object.IsSettled : Object → Prop
  | .mk _ members => (∀ m ∈ (members.filter (·.isContent)).drop 1, m.items = []) ∧ membersSettled members

def membersSettled : List MemberNode → Prop
  | [] => True
  | m :: ms => m.IsSettled ∧ membersSettled ms

/-- What is written as an attribute has no elements in it. -/
def MemberNode.IsSettled : MemberNode → Prop
  | .mk name owner kind isContent collection items =>
    (isContent = false ∧
        ((MemberNode.mk name owner kind isContent collection items).attributeValue? namespaces).isSome) ∨
      nodesSettled items

def nodesSettled : List Node → Prop
  | [] => True
  | n :: ns => n.IsSettled ∧ nodesSettled ns

def Node.IsSettled : Node → Prop
  | .object o => o.IsSettled
  | .value _ => True

end

theorem node_parts_ne_nil : ∀ n : Node, n.parts namespaces ≠ []
  | .object (.mk _ _) => by simp [Node.parts, Object.parts]
  | .value _ => by simp [Node.parts]

theorem nodesParts_eq_nil {ns : List Node} : nodesParts namespaces ns = [] ↔ ns = [] := by
  cases ns with
  | nil => simp [nodesParts]
  | cons n ns => simp [nodesParts, node_parts_ne_nil namespaces n]

mutual

/-- An object loses no parts exactly if it is settled. -/
theorem lost_eq_nil : ∀ o : Object, o.lost namespaces = [] ↔ o.IsSettled namespaces
  | .mk _ members => by
    rw [Object.lost, Object.IsSettled]
    exact membersLost_eq_nil false members

theorem membersLost_eq_nil (found : Bool) : ∀ ms : List MemberNode,
    membersLost namespaces found ms = [] ↔
      (∀ m ∈ (ms.filter (·.isContent)).drop (if found then 0 else 1), m.items = []) ∧ membersSettled namespaces ms
  | [] => by simp [membersLost, membersSettled]
  | .mk name owner kind isContent collection items :: ms => by
    have inside := nodesLost_eq_nil items
    have after := membersLost_eq_nil (found || isContent) ms
    rw [membersLost, membersSettled, MemberNode.lost, MemberNode.IsSettled, List.append_eq_nil_iff]
    cases isContent with
    | true =>
      rw [List.filter_cons_of_pos rfl]
      cases found with
      | false =>
        simp only [MemberNode.isContent, Bool.or_true, if_true, Bool.false_eq_true, if_false, List.drop_zero,
          List.drop_succ_cons, reduceCtorEq, false_and, false_or] at inside after ⊢
        rw [inside, after]
        exact and_left_comm
      | true =>
        simp only [MemberNode.isContent, Bool.or_true, if_true, List.drop_zero, List.forall_mem_cons,
          nodesParts_eq_nil, reduceCtorEq, false_and, false_or] at after ⊢
        rw [after]
        constructor
        · rintro ⟨rfl, empty, settled⟩
          exact ⟨⟨rfl, empty⟩, trivial, settled⟩
        · rintro ⟨⟨none, empty⟩, -, settled⟩
          exact ⟨none, empty, settled⟩
    | false =>
      rw [List.filter_cons_of_neg Bool.false_ne_true]
      have here : (if ((MemberNode.mk name owner kind false collection items).attributeValue? namespaces).isSome
          then [] else nodesLost namespaces items) = [] ↔
          (((MemberNode.mk name owner kind false collection items).attributeValue? namespaces).isSome ∨
            nodesSettled namespaces items) := by
        split
        · simp [*]
        · simp [*]
      simp only [MemberNode.isContent, Bool.or_false, Bool.false_eq_true, if_false, true_and] at after ⊢
      rw [here, after]
      exact and_left_comm

theorem nodesLost_eq_nil : ∀ ns : List Node, nodesLost namespaces ns = [] ↔ nodesSettled namespaces ns
  | [] => by simp [nodesLost, nodesSettled]
  | n :: ns => by
    rw [nodesLost, nodesSettled, List.append_eq_nil_iff, node_lost_eq_nil n, nodesLost_eq_nil ns]

theorem node_lost_eq_nil : ∀ n : Node, n.lost namespaces = [] ↔ n.IsSettled namespaces
  | .object o => lost_eq_nil o
  | .value _ => by simp [Node.lost, Node.IsSettled]

end

/-! ## The markup of a graph -/

/-- The pieces of the markup of a graph. -/
def Graph.pieces (g : Graph) (indent : Nat) : List MarkupPiece := g.element.pieces indent false 0

/-- The markup is written piece by piece, and the parts among the pieces are those of its element. -/
theorem markup_pieces (g : Graph) (indent : Nat) :
    g.markup indent = Piece.text (g.pieces indent) ∧ Piece.parts (g.pieces indent) = g.element.parts :=
  ⟨(Xml.text_pieces indent false 0 g.element).symm, Xml.parts_pieces indent false 0 g.element⟩

/-- A run whose text is given by two members. -/
def textTwice : List Signal :=
  [.startObject .run, .startMember runText, .value (.text "a"), .endMember, .startCollection runText,
    .value (.text "b"), .endCollection, .endObject]

end FlowDoc.Xaml
