import FlowDoc.Proofs.Xaml.Reception

/-!
# Graphs without their theme

What is left of an object graph once styles and targets are taken out of it (`Object.unthemed`): the values of the
members that name a target are cleared, and so are the keys of the static references in `Style` members. All else stays:
types, members in their order, items, and the kinds of what was cleared.

Phrases describe the same once unthemed if their nodes do (`SameItems`, `SameMembers`), and phrases that grow by the
same stay so.
-/

namespace FlowDoc.Xaml

/-! ## Clearing -/

/-- A scalar of the same kind with no text, target or key in it. -/
def Scalar.cleared : Scalar → Scalar
  | .text _ => .text ""
  | .uri _ => .uri ""
  | .resourceKey _ => .resourceKey ⟨""⟩
  | v => v

/-- An item with its value cleared, if it is one. -/
def Node.cleared : Node → Node
  | .value v => .value v.cleared
  | .object o => .object o

/-- A member with its values cleared, if it holds positional arguments. -/
def MemberNode.withoutKey : MemberNode → MemberNode
  | .mk name owner kind isContent collection items =>
    .mk name owner kind isContent collection
      (if name = Member.positionalParameters.name then items.map Node.cleared else items)

/-- A static reference to a resource without the key that it refers to. -/
def Node.withoutKey : Node → Node
  | .object (.mk .staticResourceExtension members) =>
    .object (.mk .staticResourceExtension (members.map MemberNode.withoutKey))
  | n => n

/-- The members that name the target of a link or an image, or show it. -/
def targetMembers : List String := ["NavigateUri", "Source", "ToolTip"]

/-- The items of a member without its target, or its style. -/
def unthemedItems (name : String) (items : List Node) : List Node :=
  if name ∈ targetMembers then items.map Node.cleared
  else if name = "Style" then items.map Node.withoutKey
  else items

mutual

/-- An object without the targets and the styles in it. -/
def Object.unthemed : Object → Object
  | .mk type members => .mk type (membersUnthemed members)

def membersUnthemed : List MemberNode → List MemberNode
  | [] => []
  | m :: ms => m.unthemed :: membersUnthemed ms

def MemberNode.unthemed : MemberNode → MemberNode
  | .mk name owner kind isContent collection items =>
    .mk name owner kind isContent collection (unthemedItems name (nodesUnthemed items))

def nodesUnthemed : List Node → List Node
  | [] => []
  | n :: ns => n.unthemed :: nodesUnthemed ns

def Node.unthemed : Node → Node
  | .object o => .object o.unthemed
  | .value v => .value v

end

/-! ## Phrases -/

/-- Whether items are the same once unthemed. -/
def SameItems (items items' : List ItemPhrase) : Prop :=
  nodesUnthemed (itemsNodes items) = nodesUnthemed (itemsNodes items')

/-- Whether members of an object of a type are the same once unthemed. -/
def SameMembers (type : ElementType) (members members' : List MemberPhrase) : Prop :=
  membersUnthemed (membersNodes type members) = membersUnthemed (membersNodes type members')

theorem nodesUnthemed_append (items more : List ItemPhrase) :
    nodesUnthemed (itemsNodes (items ++ more)) =
      nodesUnthemed (itemsNodes items) ++ nodesUnthemed (itemsNodes more) := by
  induction items with
  | nil => rfl
  | cons i is ih => simp only [List.cons_append, itemsNodes, nodesUnthemed, ih]

theorem membersUnthemed_append (type : ElementType) (members more : List MemberPhrase) :
    membersUnthemed (membersNodes type (members ++ more)) =
      membersUnthemed (membersNodes type members) ++ membersUnthemed (membersNodes type more) := by
  induction members with
  | nil => rfl
  | cons m ms ih => simp only [List.cons_append, membersNodes, membersUnthemed, ih]

variable {type : ElementType} {items items' more more' : List ItemPhrase} {members members' : List MemberPhrase}

theorem SameItems.append (h : SameItems items items') (h' : SameItems more more') :
    SameItems (items ++ more) (items' ++ more') := by
  rw [SameItems, nodesUnthemed_append, nodesUnthemed_append, h, h']

theorem SameMembers.append {more more' : List MemberPhrase} (h : SameMembers type members members')
    (h' : SameMembers type more more') : SameMembers type (members ++ more) (members' ++ more') := by
  rw [SameMembers, membersUnthemed_append, membersUnthemed_append, h, h']

/-- Objects of the same members are the same. -/
theorem SameMembers.object (h : SameMembers type members members') :
    SameItems [.object (.mk type members)] [.object (.mk type members')] := by
  have same : (ObjectPhrase.mk type members).object.unthemed = (ObjectPhrase.mk type members').object.unthemed := by
    rw [ObjectPhrase.object, ObjectPhrase.object, Object.unthemed, Object.unthemed, h]
  simp only [SameItems, itemsNodes, nodesUnthemed, ItemPhrase.node, Node.unthemed, same]

/-- Whether items are the same once unthemed as the items of a member. -/
def SameIn (m : Member) (items items' : List ItemPhrase) : Prop :=
  unthemedItems m.name (nodesUnthemed (itemsNodes items)) = unthemedItems m.name (nodesUnthemed (itemsNodes items'))

theorem SameItems.sameIn (h : SameItems items items') (m : Member) : SameIn m items items' := by
  rw [SameIn, h]

theorem SameIn.member {m : Member} (h : SameIn m items items') (collection : Bool) :
    SameMembers type [.mk m collection items] [.mk m collection items'] := by
  have same : ((MemberPhrase.mk m collection items).node type).unthemed =
      ((MemberPhrase.mk m collection items').node type).unthemed := by
    rw [MemberPhrase.node, MemberPhrase.node, MemberNode.unthemed, MemberNode.unthemed, h]
  simp only [SameMembers, membersNodes, membersUnthemed, same]

/-- In a member that names a target no text or target counts. -/
theorem sameIn_target {m : Member} (hm : m.name ∈ targetMembers) {v v' : Scalar} (hv : v.cleared = v'.cleared) :
    SameIn m [.value v] [.value v'] := by
  simp [SameIn, unthemedItems, hm, itemsNodes, nodesUnthemed, ItemPhrase.node, Node.unthemed, Node.cleared, hv]

/-- The item that refers to a resource by its key. -/
def ItemPhrase.reference (key : ResourceKey) : ItemPhrase :=
  .object (.mk .staticResourceExtension [.mk .positionalParameters false [.value (.resourceKey key)]])

/-- In a style no key counts. -/
theorem sameIn_style {m : Member} (hm : m.name = "Style") (key key' : ResourceKey) :
    SameIn m [.reference key] [.reference key'] := by
  have notTarget : "Style" ∉ targetMembers := by decide
  have without : ∀ k, (ItemPhrase.reference k).node.unthemed.withoutKey =
      (ItemPhrase.reference ⟨""⟩).node.unthemed.withoutKey := fun _ => rfl
  simp only [SameIn, unthemedItems, hm, notTarget, if_false, if_true, itemsNodes, nodesUnthemed, List.map_cons,
    List.map_nil, without key, without key']

end FlowDoc.Xaml
