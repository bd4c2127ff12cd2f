import FlowDoc.Proofs.Render.Spelling
import FlowDoc.Proofs.Xaml.Legal

/-!
# Plain objects

Where a document is printed, the members of its objects are declared by types of the vocabulary, and the only
extensions in it are references to styles (`Object.IsPlain`). So all names in it are names of markup
(`Object.IsPlain.isNamed`), and of the prefixes that a document declares only that of the language stands in names of
types (`qualify_documentNamespaces`).
-/

namespace FlowDoc.Render

open Xaml
open Style (KeyClass)

/-- A reference to the resource of a key. -/
def keyReference (key : ResourceKey) : ObjectPhrase :=
  .mk .staticResourceExtension [.mk .positionalParameters false [.value (.resourceKey key)]]

/-- The reference to the resource of a key where values are spelled. -/
def styleReference (keys : KeyClass) (key : ResourceKey) : Object := (spelledObject keys (keyReference key)).object

/-- A key as it is spelled. -/
def spelledKey (keys : KeyClass) (key : ResourceKey) : String :=
  if keys.contains key then keys.staticReference key else key.name

end FlowDoc.Render

namespace FlowDoc.Xaml

open Style (KeyClass)
open Xml (isPlainName)

/-! ## Declared members -/

/-- Whether a type of the vocabulary declares a member with an owner, a name and a kind. -/
def AreDeclared (owner name : String) (kind : MemberKind) : Prop :=
  ∃ type : ElementType, ∃ d ∈ type.ownMembers,
    owner = type.name ∧ name = d.name ∧ kind = if d.attachable then .attached else .property

namespace AreDeclared

variable {owner name : String} {kind : MemberKind}

theorem owner_eq (h : AreDeclared owner name kind) : ∃ type : ElementType, owner = type.name := by
  obtain ⟨type, _, _, rfl, -⟩ := h
  exact ⟨type, rfl⟩

theorem isPlainName (h : AreDeclared owner name kind) : isPlainName name = true := by
  obtain ⟨type, d, member, -, rfl, -⟩ := h
  exact (isPlainName_vocabulary type).2 d member

theorem ne_directive (h : AreDeclared owner name kind) : kind ≠ .directive := by
  obtain ⟨_, d, _, -, -, rfl⟩ := h
  cases d.attachable <;> decide

end AreDeclared

theorem member?_areDeclared {type : ElementType} {name : String} {m : Member} (h : type.member? name = some m) :
    AreDeclared m.owner m.name m.kind := by
  obtain ⟨t, -, own⟩ := List.exists_of_findSome?_eq_some h
  obtain ⟨d, found, rfl⟩ := Option.map_eq_some_iff.mp own
  have plain : d.name = name ∧ d.attachable = false := by simpa using List.find?_some found
  exact ⟨t, d, List.mem_of_find?_eq_some found, rfl, rfl, by rw [plain.2]; rfl⟩

theorem content?_areDeclared {type : ElementType} {m : Member} (h : type.content? = some m) :
    AreDeclared m.owner m.name m.kind := by
  obtain ⟨t, -, own⟩ := List.exists_of_findSome?_eq_some h
  obtain ⟨name, -, found⟩ := Option.bind_eq_some_iff.mp own
  exact member?_areDeclared found

theorem getAttached_areDeclared {owner name : String} {m : Member} (h : getAttached owner name = .ok m) :
    AreDeclared m.owner m.name m.kind := by
  unfold getAttached at h
  split at h
  · cases h
  · next t _ =>
    split at h
    · next d found =>
      cases h
      have attachable : d.name = name ∧ d.attachable = true := by simpa using List.find?_some found
      exact ⟨t, d, List.mem_of_find?_eq_some found, rfl, rfl, by rw [attachable.2]; rfl⟩
    · cases h

/-! ## Plain objects -/

mutual

/-- Whether all members in an object are declared, except those of references to styles. -/
def Object.IsPlain (keys : KeyClass) : Object → Prop
  | .mk _ members => membersPlain keys members

def membersPlain (keys : KeyClass) : List MemberNode → Prop
  | [] => True
  | m :: ms => m.IsPlain keys ∧ membersPlain keys ms

def MemberNode.IsPlain (keys : KeyClass) : MemberNode → Prop
  | .mk name owner kind _ _ items => AreDeclared owner name kind ∧ nodesPlain keys items

def nodesPlain (keys : KeyClass) : List Node → Prop
  | [] => True
  | n :: ns => n.IsPlain keys ∧ nodesPlain keys ns

def Node.IsPlain (keys : KeyClass) : Node → Prop
  | .object o => o.IsPlain keys ∨ ∃ key, o = Render.styleReference keys key
  | .value _ => True

end

theorem membersPlain_append {keys : KeyClass} {ms ns : List MemberNode} :
    membersPlain keys (ms ++ ns) ↔ membersPlain keys ms ∧ membersPlain keys ns := by
  induction ms with
  | nil => simp [membersPlain]
  | cons m ms ih => simp [membersPlain, ih, and_assoc]

theorem membersPlain_iff {keys : KeyClass} {ms : List MemberNode} :
    membersPlain keys ms ↔ ∀ m ∈ ms, m.IsPlain keys := by
  induction ms with
  | nil => simp [membersPlain]
  | cons m ms ih => simp [membersPlain, ih]

theorem nodesPlain_iff {keys : KeyClass} {ns : List Node} : nodesPlain keys ns ↔ ∀ n ∈ ns, n.IsPlain keys := by
  induction ns with
  | nil => simp [nodesPlain]
  | cons n ns ih => simp [nodesPlain, ih]

/-- An extension with one positional argument. -/
theorem isNamed_extension (type : ElementType) (n : Node) :
    (Object.mk type [.mk "_PositionalParameters" "x" .directive false false [n]]).passes MemberNode.isNamed =
      n.passes MemberNode.isNamed := by
  have names : (MemberNode.mk "_PositionalParameters" "x" .directive false false [n]).isNamed = true :=
    show (isPlainName "x" && isPlainName "_PositionalParameters") = true by decide
  simp only [Object.passes, membersPass, MemberNode.passes, nodesPass, names, Bool.true_and, Bool.and_true]

/-- A reference to a style has names. -/
theorem isNamed_styleReference (keys : KeyClass) (key : ResourceKey) :
    (Render.styleReference keys key).passes MemberNode.isNamed = true := by
  have value : (Render.spelledValue keys (.resourceKey key)).node.passes MemberNode.isNamed = true := by
    rw [Render.spelledValue]
    split
    · exact isNamed_extension .staticExtension (.value _)
    · rfl
  exact (isNamed_extension .staticResourceExtension _).trans value

mutual

/-- **Plain objects have names.** -/
theorem Object.IsPlain.isNamed {keys : KeyClass} : ∀ {o : Object}, o.IsPlain keys →
    o.passes MemberNode.isNamed = true
  | .mk _ _, h => membersPlain_named h

theorem membersPlain_named {keys : KeyClass} : ∀ {ms : List MemberNode}, membersPlain keys ms →
    membersPass MemberNode.isNamed ms = true
  | [], _ => rfl
  | .mk _ _ _ _ _ _ :: _, ⟨⟨declared, items⟩, rest⟩ => by
    have name := declared.isPlainName
    obtain ⟨type, rfl⟩ := declared.owner_eq
    have owner := (isPlainName_vocabulary type).1
    rw [membersPass, MemberNode.passes, nodesPlain_named items, membersPlain_named rest, Bool.and_true, Bool.and_true]
    exact Bool.and_eq_true_iff.mpr ⟨owner, name⟩

theorem nodesPlain_named {keys : KeyClass} : ∀ {ns : List Node}, nodesPlain keys ns →
    nodesPass MemberNode.isNamed ns = true
  | [], _ => rfl
  | .value _ :: ns, h => by
    have rest : nodesPass MemberNode.isNamed ns = true := nodesPlain_named h.2
    exact rest
  | .object _ :: _, ⟨.inl plain, rest⟩ => by
    rw [nodesPass, Node.passes, plain.isNamed, nodesPlain_named rest]
    rfl
  | .object _ :: _, ⟨.inr ⟨key, reference⟩, rest⟩ => by
    rw [nodesPass, Node.passes, reference, isNamed_styleReference, nodesPlain_named rest]
    rfl

end

end FlowDoc.Xaml

namespace FlowDoc.Render

open Xaml

/-! ## Names of types in documents -/

/-- Only the namespace of the language has a prefix in the names of types. -/
theorem qualify_documentNamespaces (o : Options) (type : ElementType) (name : String) :
    qualify (documentNamespaces o) type.space name =
      if type = .staticExtension then "x:" ++ name else name := by
  have apart : (presentationNamespace == languageNamespace) = false := by decide
  cases type <;> simp [qualify, documentNamespaces, ElementType.space, apart]

theorem prefixesLegal_documentNamespaces (o : Options) : PrefixesLegal (documentNamespaces o) := by
  intro type name legal
  have language : Xml.isLegal "x:" = true := by decide
  rw [qualify_documentNamespaces]
  split
  · rw [Xml.isLegal_append, language, legal]
    rfl
  · exact legal

end FlowDoc.Render
