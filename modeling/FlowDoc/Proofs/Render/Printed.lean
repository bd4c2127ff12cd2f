import FlowDoc.Proofs.Render.Ending
import FlowDoc.Proofs.Render.Plain
import FlowDoc.Proofs.Text.Ink

/-!
# What rendering prints

`Prints o mode m c` says of an operation in a collection that it puts plain objects there and that what is printed of
them and of its text is legal exactly if `c` holds; `Sets` says the same of members beside the content, and `Forms` of
all that is in an object. One rule goes with each part that handlers are made of. What is left out of an object is legal
in any case. Replayed markup is legal throughout, since no fragment is read that is not (`prints_replayFragment`).
-/

namespace FlowDoc.Render

open Xaml
open Text (Flow Laid SpaceMode AllChildren layout layoutFrom laidPieces gapPiece gapText pieceOf isSpace ink)
open Xml (Part isLegal isChar)

variable {o : Options} {mode : SpaceMode} {type : ElementType} {m n body : Write Unit} {a b c : Bool}

/-! ## Legal text -/

/-- Whether a text is legal up to its white space. -/
def legalInk (s : String) : Bool := (ink s).all isChar

/-- Whether a text is legal where white space is treated by a mode. -/
def textLegal : SpaceMode → String → Bool
  | .collapse, s => legalInk s
  | .preserve, s => isLegal s

theorem textLegal_append (s t : String) : textLegal mode (s ++ t) = (textLegal mode s && textLegal mode t) := by
  cases mode with
  | collapse => simp [textLegal, legalInk]
  | preserve => simp [textLegal]

theorem textLegal_empty : textLegal mode "" = true := by cases mode <;> rfl

theorem legalInk_of_isLegal {s : String} (h : isLegal s = true) : legalInk s = true :=
  List.all_eq_true.mpr fun c hc => List.all_eq_true.mp h c (List.mem_filter.mp hc).1

/-- All white space of a gap is legal, once it is collapsed. -/
theorem isLegal_gapText (first last : Bool) (s : String) : isLegal (gapText mode first last s) = textLegal mode s := by
  cases mode with
  | preserve => rfl
  | collapse =>
    have space : isChar ' ' = true := by decide
    rw [textLegal, legalInk, ← Text.ink_gapText .collapse first last s, Bool.eq_iff_iff, isLegal, List.all_eq_true,
      List.all_eq_true]
    constructor
    · exact fun legal c hc => legal c (List.mem_filter.mp hc).1
    · intro legal c hc
      cases hs : isSpace c with
      | true => rwa [Text.eq_space_of_mem_gapText hs hc]
      | false => exact legal c (List.mem_filter.mpr ⟨hc, by simp [hs]⟩)

/-! ## Phrases as they are printed -/

/-- The object of a phrase with its values spelled. -/
def printedObject (o : Options) (p : ObjectPhrase) : Object := (spelledObject o.theme.keyClass p).object

def printedMembers (o : Options) (type : ElementType) (members : List MemberPhrase) : List MemberNode :=
  membersNodes type (spelledMembers o.theme.keyClass members)

def printedItem (o : Options) (i : ItemPhrase) : Node := (spelledItem o.theme.keyClass i).node

theorem printedMembers_append (members members' : List MemberPhrase) :
    printedMembers o type (members ++ members') = printedMembers o type members ++ printedMembers o type members' := by
  induction members with
  | nil => rfl
  | cons m ms ih => exact congrArg (_ :: ·) ih

theorem printedMembers_singleton (m : Member) (collection : Bool) (items : List ItemPhrase) :
    printedMembers o type [.mk m collection items] =
      [.mk m.name m.owner m.kind (Builder.isContentOf m type) collection (items.map (printedItem o))] := by
  have nodes : itemsNodes (spelledItems o.theme.keyClass items) = items.map (printedItem o) := by
    induction items with
    | nil => rfl
    | cons i is ih => exact congrArg (_ :: ·) ih
  rw [← nodes]
  rfl

theorem printedItem_value {v : Scalar} (hv : ∀ key, v ≠ .resourceKey key) :
    printedItem o (.value v) = .value (.text v.display) := by
  cases v with
  | resourceKey key => exact absurd rfl (hv key)
  | _ => rfl

/-- That an object is plain, and what its markup leaves out is legal. -/
structure IsPrinted (o : Options) (p : ObjectPhrase) : Prop where
  plain : (printedObject o p).IsPlain o.theme.keyClass
  kept : ((printedObject o p).lost (documentNamespaces o)).all Part.isLegal = true

/-- The same of an item. -/
structure ItemIsPrinted (o : Options) (i : ItemPhrase) : Prop where
  plain : (printedItem o i).IsPlain o.theme.keyClass
  kept : ((printedItem o i).lost (documentNamespaces o)).all Part.isLegal = true

/-- The same of members, none of which is content. -/
structure ArePrinted (o : Options) (type : ElementType) (members : List MemberPhrase) : Prop where
  plain : membersPlain o.theme.keyClass (printedMembers o type members)
  kept : (membersLost (documentNamespaces o) false (printedMembers o type members)).all Part.isLegal = true
  aside : (printedMembers o type members).any (·.isContent) = false

theorem ItemIsPrinted.object {p : ObjectPhrase} (h : IsPrinted o p) : ItemIsPrinted o (.object p) :=
  ⟨Or.inl h.plain, h.kept⟩

theorem ItemIsPrinted.value {v : Scalar} (hv : ∀ key, v ≠ .resourceKey key) : ItemIsPrinted o (.value v) := by
  have printed := printedItem_value (o := o) hv
  constructor
  · rw [printed]
    trivial
  · rw [printed]
    rfl

/-- References to styles are attributes, so nothing in them is left out. -/
theorem ItemIsPrinted.keyReference (key : ResourceKey) : ItemIsPrinted o (.object (keyReference key)) := by
  have lost : (styleReference o.theme.keyClass key).lost (documentNamespaces o) = [] := by
    simp only [styleReference, Render.keyReference, spelledObject, spelledMembers, spelledMember, spelledItems,
      spelledItem, spelledValue]
    split <;> rfl
  refine ⟨Or.inr ⟨key, rfl⟩, ?_⟩
  exact congrArg (·.all Part.isLegal) lost

/-- A reference to a style is legal exactly if the key is as it is spelled. -/
theorem isLegal_keyReference (key : ResourceKey) :
    (printedItem o (.object (keyReference key))).isLegal = isLegal (spelledKey o.theme.keyClass key) := by
  have single : (printedItem o (.object (keyReference key))).isLegal =
      (((spelledValue o.theme.keyClass (.resourceKey key)).node.isLegal && true) && true) := rfl
  rw [single, Bool.and_true, Bool.and_true, spelledValue, spelledKey]
  split
  · exact (Bool.and_true _).trans (Bool.and_true _)
  · rfl

/-! ### Members -/

section Members

variable {member : Member} {collection : Bool} {items : List ItemPhrase}

theorem plain_member (declared : AreDeclared member.owner member.name member.kind)
    (hi : ∀ i ∈ items, ItemIsPrinted o i) :
    membersPlain o.theme.keyClass (printedMembers o type [.mk member collection items]) := by
  rw [printedMembers_singleton]
  refine ⟨⟨declared, nodesPlain_iff.mpr fun node hn => ?_⟩, trivial⟩
  obtain ⟨i, listed, rfl⟩ := List.mem_map.mp hn
  exact (hi i listed).plain

theorem legal_member : membersLegal (printedMembers o type [.mk member collection items]) =
    items.all fun i => (printedItem o i).isLegal := by
  rw [printedMembers_singleton, membersLegal, membersLegal, Bool.and_true, MemberNode.isLegal, nodesLegal_eq,
    List.all_map]
  rfl

theorem kept_member (hi : ∀ i ∈ items, ItemIsPrinted o i) :
    (membersLost (documentNamespaces o) false (printedMembers o type [.mk member collection items])).all Part.isLegal =
      true := by
  have inside : (nodesLost (documentNamespaces o) (items.map (printedItem o))).all Part.isLegal = true := by
    induction items with
    | nil => rfl
    | cons i is ih =>
      rw [List.map_cons, nodesLost, List.all_append, (hi i List.mem_cons_self).kept,
        ih fun j hj => hi j (List.mem_cons_of_mem i hj)]
      rfl
  rw [printedMembers_singleton, membersLost, membersLost, List.append_nil, MemberNode.lost]
  split
  · exact inside
  · split
    · rfl
    · exact inside

/-! A collection is left out if it is empty. -/

theorem plain_collect (declared : AreDeclared member.owner member.name member.kind)
    (hi : ∀ i ∈ items, ItemIsPrinted o i) :
    membersPlain o.theme.keyClass (printedMembers o type (MemberPhrase.collect member items)) := by
  cases items with
  | nil => trivial
  | cons i is => exact plain_member declared hi

theorem legal_collect : membersLegal (printedMembers o type (MemberPhrase.collect member items)) =
    items.all fun i => (printedItem o i).isLegal := by
  cases items with
  | nil => rfl
  | cons i is => exact legal_member

theorem kept_collect (hi : ∀ i ∈ items, ItemIsPrinted o i) :
    (membersLost (documentNamespaces o) false (printedMembers o type (MemberPhrase.collect member items))).all
      Part.isLegal = true := by
  cases items with
  | nil => rfl
  | cons i is => exact kept_member hi

theorem aside_collect (known : Builder.isContentOf member type = false) :
    (printedMembers o type (MemberPhrase.collect member items)).any (·.isContent) = false := by
  cases items with
  | nil => rfl
  | cons i is => exact (Bool.or_false _).trans known

end Members

/-! ### Flows -/

/-- Whether what a flow's entry is printed as is legal. -/
def entryLegal (o : Options) (mode : SpaceMode) : Flow ObjectPhrase → Bool
  | .text s => textLegal mode s
  | .child p => (printedObject o p).isLegal

section Flows

variable {flow : List (Flow ObjectPhrase)}

theorem itemIsPrinted_layout (mode : SpaceMode) (hf : AllChildren (IsPrinted o) flow) :
    ∀ i ∈ (layout mode flow).map ItemPhrase.ofLaid, ItemIsPrinted o i := by
  intro i hi
  obtain ⟨l, hl, rfl⟩ := List.mem_map.mp hi
  cases l with
  | child p => exact .object (hf p (Text.child_mem_of_layout hl))
  | piece piece =>
    cases piece with
    | value s => exact .value fun key hk => by cases hk
    | verbatim s =>
      have declared : AreDeclared runText.owner runText.name runText.kind :=
        member?_areDeclared (show ElementType.member? .run "Text" = some runText by decide)
      have text : ∀ i ∈ [ItemPhrase.value (.text s)], ItemIsPrinted o i := by
        intro i hi
        rw [List.mem_singleton.mp hi]
        exact .value fun key hk => by cases hk
      exact .object ⟨plain_member declared text, kept_member text⟩

theorem all_laidPieces (first last : Bool) (s : String) :
    ((laidPieces (gapPiece mode first last s)).map ItemPhrase.ofLaid).all (fun i => (printedItem o i).isLegal) =
      textLegal mode s := by
  have piece : ∀ t : String, ((laidPieces (pieceOf mode t)).map ItemPhrase.ofLaid).all
      (fun i => (printedItem o i).isLegal) = isLegal t := by
    intro t
    unfold pieceOf
    split
    · next empty =>
      rw [String.isEmpty_iff.mp empty]
      rfl
    · cases mode with
      | collapse => exact Bool.and_true _
      | preserve =>
        have run : (printedItem o (.ofPiece (.verbatim t))).isLegal = isLegal t := legal_member.trans (Bool.and_true _)
        exact (Bool.and_true _).trans run
  rw [gapPiece, piece, isLegal_gapText]

theorem all_layoutFrom (first : Bool) (gap : String) (flow : List (Flow ObjectPhrase)) :
    ((layoutFrom mode first gap flow).map ItemPhrase.ofLaid).all (fun i => (printedItem o i).isLegal) =
      (textLegal mode gap && flow.all (entryLegal o mode)) := by
  induction flow generalizing first gap with
  | nil => rw [layoutFrom, all_laidPieces, List.all_nil, Bool.and_true]
  | cons f flow ih =>
    cases f with
    | text s => rw [layoutFrom, ih, textLegal_append, List.all_cons, entryLegal, Bool.and_assoc]
    | child p =>
      rw [layoutFrom, List.map_append, List.all_append, all_laidPieces, List.map_cons, List.all_cons, ih,
        textLegal_empty, Bool.true_and, List.all_cons, entryLegal]
      rfl

/-- **Flows.** What a flow becomes is legal exactly if all its entries are. -/
theorem all_layout (flow : List (Flow ObjectPhrase)) :
    ((layout mode flow).map ItemPhrase.ofLaid).all (fun i => (printedItem o i).isLegal) =
      flow.all (entryLegal o mode) := by
  rw [layout, all_layoutFrom, textLegal_empty, Bool.true_and]

end Flows

/-! ## What operations print -/

/-- What an operation puts into a collection is plain, and legal as it is printed exactly if `c` holds. -/
def Prints (o : Options) (mode : SpaceMode) (m : Write Unit) (c : Bool) : Prop :=
  ∃ flow, Puts o.theme m flow ∧ AllChildren (IsPrinted o) flow ∧ flow.all (entryLegal o mode) = c

/-- The same of members that an operation adds to an object beside its content. -/
def Sets (o : Options) (type : ElementType) (m : Write Unit) (c : Bool) : Prop :=
  ∃ members, Builds o.theme type m members ∧ ArePrinted o type members ∧
    membersLegal (printedMembers o type members) = c

/-- The same of all that is in an object. -/
def Forms (o : Options) (type : ElementType) (m : Write Unit) (c : Bool) : Prop :=
  ∃ members, Builds o.theme type m members ∧ IsPrinted o (.mk type members) ∧
    membersLegal (printedMembers o type members) = c

/-! ### Collections -/

namespace Prints

theorem nothing : Prints o mode (pure ()) true := ⟨[], .nil, .nil, rfl⟩

theorem andThen (hm : Prints o mode m a) (hn : Prints o mode n b) : Prints o mode (do m; n) (a && b) := by
  obtain ⟨flow, puts, printed, rfl⟩ := hm
  obtain ⟨flow', puts', printed', rfl⟩ := hn
  exact ⟨flow ++ flow', puts.bind puts', printed.append printed', List.all_append⟩

theorem inOrder_singleton (hm : Prints o mode m a) : Prints o mode (inOrder [m]) a := by
  have whole : Prints o mode (do m; pure ()) (a && true) := hm.andThen .nothing
  rwa [Bool.and_true] at whole

/-- Where nothing is printed in the end, any legality will do. -/
theorem of_fails (h : Fails m) (c : Bool) : Prints o mode m c := by
  cases c with
  | true => exact ⟨[], .of_fails h, .nil, rfl⟩
  | false =>
    have illegal : textLegal mode (String.ofList ['\x01']) = false := by cases mode <;> decide
    exact ⟨[.text (String.ofList ['\x01'])], .of_fails h, .text _, (Bool.and_true _).trans illegal⟩

theorem gather (operation : Operation) (s : String) : Prints o mode (Write.gather operation s) (textLegal mode s) :=
  ⟨[.text s], .gather operation s, .text s, Bool.and_true _⟩

theorem object (hb : Forms o type body c) : Prints o mode (object type body) c := by
  obtain ⟨members, builds, printed, rfl⟩ := hb
  exact ⟨[.child (.mk type members)], .object builds, .child printed, Bool.and_true _⟩

end Prints

/-! ### Members -/

theorem lookUp_areDeclared {ref : MemberRef} {member : Member} (hr : ∀ member, ref ≠ .resolved member)
    (h : lookUp type ref = .ok member) : AreDeclared member.owner member.name member.kind := by
  cases ref with
  | resolved member => exact absurd rfl (hr member)
  | attached owner name => exact getAttached_areDeclared h
  | name name =>
    rw [lookUp, getMember] at h
    split at h
    · next found =>
      cases h
      exact member?_areDeclared found
    · cases h

/-- A member is written where it is found. -/
theorem builds_lookUp (theme : Style.Theme) (ref : MemberRef) (v : Scalar) :
    Builds theme type (Write.member ref v) (itemMember (lookUp type ref).toOption (.value v)) := by
  refine Builds.of_member fun g members sp m hs hm => ?_
  have resolved := resolve_object hs ref
  rw [hm] at resolved
  split at resolved
  · next found =>
    cases resolved
    rw [found]
    rfl
  · cases resolved

/-- Whether a reference names a member of a type beside its content. -/
def isAside (type : ElementType) (ref : MemberRef) : Bool :=
  match lookUp type ref with
  | .ok member => !Builder.isContentOf member type
  | .error _ => false

/-- Whether the key of a role is legal as it is spelled. -/
def Options.roleLegal (o : Options) (r : Style.Role) : Bool := isLegal (spelledKey o.theme.keyClass (o.theme.resolve r))

namespace Sets

theorem nothing : Sets o type (pure ()) true := ⟨[], .nil, ⟨trivial, rfl, rfl⟩, rfl⟩

theorem andThen (hm : Sets o type m a) (hn : Sets o type n b) : Sets o type (do m; n) (a && b) := by
  obtain ⟨members, builds, printed, rfl⟩ := hm
  obtain ⟨members', builds', printed', rfl⟩ := hn
  refine ⟨members ++ members', builds.bind builds', ⟨?_, ?_, ?_⟩, ?_⟩
  · rw [printedMembers_append]
    exact membersPlain_append.mpr ⟨printed.plain, printed'.plain⟩
  · rw [printedMembers_append, membersLost_append, List.all_append, printed.aside, printed.kept]
    exact printed'.kept
  · rw [printedMembers_append, List.any_append, printed.aside, printed'.aside]
    rfl
  · rw [printedMembers_append, membersLegal_append]

/-- A member with one item. -/
theorem of_item {ref : MemberRef} {i : ItemPhrase} (hr : ∀ member, ref ≠ .resolved member)
    (known : isAside type ref = true) (hi : ItemIsPrinted o i)
    (builds : Builds o.theme type m (itemMember (lookUp type ref).toOption i)) :
    Sets o type m (printedItem o i).isLegal := by
  unfold isAside at known
  split at known
  · next member found =>
    have declared := lookUp_areDeclared hr found
    have item : ∀ j ∈ [i], ItemIsPrinted o j := by
      intro j hj
      rwa [List.mem_singleton.mp hj]
    rw [found] at builds
    refine ⟨[.mk member false [i]], builds, ⟨plain_member declared item, kept_member item, ?_⟩, ?_⟩
    · rw [printedMembers_singleton, List.any_cons, List.any_nil, Bool.or_false]
      exact (Bool.not_eq_true' _).mp known
    · rw [legal_member, List.all_cons, List.all_nil, Bool.and_true]
  · cases known

theorem member {ref : MemberRef} (hr : ∀ member, ref ≠ .resolved member) (known : isAside type ref = true)
    {v : Scalar} (hv : ∀ key, v ≠ .resourceKey key) : Sets o type (Write.member ref v) (isLegal v.display) := by
  have sets := of_item hr known (.value hv) (builds_lookUp o.theme ref v)
  rwa [printedItem_value hv] at sets

theorem named {name : String} (known : isAside type (.name name) = true) {v : Scalar}
    (hv : ∀ key, v ≠ .resourceKey key) : Sets o type (Write.member (.name name) v) (isLegal v.display) :=
  member (fun _ h => by cases h) known hv

/-- A member that is written if there is a value for it. -/
theorem member? {ref : MemberRef} (hr : ∀ member, ref ≠ .resolved member) (known : isAside type ref = true)
    {v : Option Scalar} (hv : ∀ key, v ≠ some (.resourceKey key)) :
    Sets o type (Write.member? ref v) (v.all fun v => isLegal v.display) := by
  cases v with
  | none => exact nothing
  | some v => exact member hr known fun key hk => hv key (by rw [hk])

theorem style (known : isAside type (.name "Style") = true) (r : Style.Role) :
    Sets o type (Write.style r) (o.roleLegal r) := by
  have found : (lookUp type (.name "Style")).toOption = type.member? "Style" := by
    rw [lookUp, getMember]
    split
    · next same => rw [same]; rfl
    · next same => rw [same]; rfl
  have builds : Builds o.theme type (Write.style r) (itemMember (lookUp type (.name "Style")).toOption
      (.object (keyReference (o.theme.resolve r)))) := by
    rw [found]
    exact Builds.style r
  have sets := of_item (fun _ hm => by cases hm) known (.keyReference _) builds
  rwa [isLegal_keyReference] at sets

/-- A collection beside the content. -/
theorem items {name : String} (known : isAside type (.name name) = true) (hb : Prints o .collapse body c) :
    Sets o type (do Write.startItems (.name name) false; body; Write.endItems) c := by
  obtain ⟨flow, puts, printed, rfl⟩ := hb
  have builds : Builds o.theme type _ _ := Builds.items name false puts
  have each := itemIsPrinted_layout .collapse printed
  rw [isAside, lookUp, getMember] at known
  cases found : type.member? name with
  | none => rw [found] at known; cases known
  | some member =>
    rw [found] at known builds
    rw [Option.toList_some, List.flatMap_singleton] at builds
    refine ⟨_, builds, ⟨plain_collect (member?_areDeclared found) each, kept_collect each, ?_⟩, ?_⟩
    · exact aside_collect ((Bool.not_eq_true' _).mp known)
    · exact legal_collect.trans (all_layout flow)

end Sets

/-! ### Objects -/

namespace Forms

/-- An object without content. -/
theorem bare (hm : Sets o type m c) : Forms o type m c := by
  obtain ⟨members, builds, printed, rfl⟩ := hm
  exact ⟨members, builds, ⟨printed.plain, printed.kept⟩, rfl⟩

theorem after (hm : Sets o type m a) (hn : Forms o type n b) : Forms o type (do m; n) (a && b) := by
  obtain ⟨members, builds, printed, rfl⟩ := hm
  obtain ⟨members', builds', printed', rfl⟩ := hn
  refine ⟨members ++ members', builds.bind builds', ⟨?_, ?_⟩, ?_⟩
  · have whole : membersPlain o.theme.keyClass (printedMembers o type (members ++ members')) := by
      rw [printedMembers_append]
      exact membersPlain_append.mpr ⟨printed.plain, printed'.plain⟩
    exact whole
  · have whole : (membersLost (documentNamespaces o) false (printedMembers o type (members ++ members'))).all
        Part.isLegal = true := by
      rw [printedMembers_append, membersLost_append, List.all_append, printed.aside, printed.kept]
      exact printed'.kept
    exact whole
  · rw [printedMembers_append, membersLegal_append]

/-- Content. -/
theorem content (known : type.content?.isSome = true) (preserve : Bool) {ws : List (Write Unit)}
    (hb : Prints o (.ofPreserve preserve) (inOrder ws) c) : Forms o type (content preserve ws) c := by
  obtain ⟨flow, puts, printed, rfl⟩ := hb
  obtain ⟨member, found⟩ := Option.isSome_iff_exists.mp known
  have builds : Builds o.theme type _ _ := Builds.content preserve puts
  have each := itemIsPrinted_layout (.ofPreserve preserve) printed
  rw [contentMember, found, Option.toList_some, List.flatMap_singleton] at builds
  exact ⟨_, builds, ⟨plain_collect (content?_areDeclared found) each, kept_collect each⟩,
    legal_collect.trans (all_layout flow)⟩

end Forms

/-! ## Replayed markup -/

/-- Members that an operation adds to an object, content or not, are plain, and legal as they are printed. -/
def Takes (o : Options) (type : ElementType) (m : Write Unit) : Prop :=
  ∃ members, Builds o.theme type m members ∧ membersPlain o.theme.keyClass (printedMembers o type members) ∧
    membersLegal (printedMembers o type members) = true

namespace Takes

theorem nothing : Takes o type (pure ()) := ⟨[], .nil, trivial, rfl⟩

theorem andThen (hm : Takes o type m) (hn : Takes o type n) : Takes o type (do m; n) := by
  obtain ⟨members, builds, plain, legal⟩ := hm
  obtain ⟨members', builds', plain', legal'⟩ := hn
  refine ⟨members ++ members', builds.bind builds', ?_, ?_⟩
  · rw [printedMembers_append]
    exact membersPlain_append.mpr ⟨plain, plain'⟩
  · rw [printedMembers_append, membersLegal_append, legal, legal']
    rfl

theorem member {ref : MemberRef} (hr : ∀ member, ref ≠ .resolved member) {s : String} (hs : isLegal s = true) :
    Takes o type (Write.member ref (.text s)) := by
  have builds : Builds o.theme type _ _ := builds_lookUp o.theme ref (.text s)
  cases found : lookUp type ref with
  | error e =>
    rw [found] at builds
    exact ⟨[], builds, trivial, rfl⟩
  | ok member =>
    rw [found] at builds
    have item : ∀ i ∈ [ItemPhrase.value (.text s)], ItemIsPrinted o i := by
      intro i hi
      rw [List.mem_singleton.mp hi]
      exact .value fun key hk => by cases hk
    exact ⟨_, builds, plain_member (lookUp_areDeclared hr found) item, legal_member.trans ((Bool.and_true _).trans hs)⟩

theorem content {ws : List (Write Unit)} (hb : Prints o .collapse (inOrder ws) true) :
    Takes o type (content false ws) := by
  obtain ⟨flow, puts, printed, legal⟩ := hb
  have builds : Builds o.theme type _ _ := Builds.content false puts
  have each := itemIsPrinted_layout .collapse printed
  cases found : type.content? with
  | none =>
    rw [contentMember, found] at builds
    exact ⟨[], builds, trivial, rfl⟩
  | some member =>
    rw [contentMember, found, Option.toList_some, List.flatMap_singleton] at builds
    have all := (all_layout flow).trans legal
    exact ⟨_, builds, plain_collect (content?_areDeclared found) each, legal_collect.trans all⟩

/-- What is left out of an object that is legal is legal. -/
theorem forms (hm : Takes o type m) : Forms o type m true := by
  obtain ⟨members, builds, plain, legal⟩ := hm
  have whole : (printedObject o (.mk type members)).IsPlain o.theme.keyClass := plain
  exact ⟨members, builds, ⟨whole, isLegal_lost (prefixesLegal_documentNamespaces o) whole.isNamed legal⟩, legal⟩

end Takes

theorem ofName_ne_resolved (s : String) : ∀ member, MemberRef.ofName s ≠ .resolved member := by
  intro member
  unfold MemberRef.ofName
  split <;> simp

theorem takes_replayAttributes (fragment : String) : ∀ {attributes : List Xml.Attribute},
    (∀ a ∈ attributes, isLegal a.value = true) → Takes o type (replayAttributes fragment attributes)
  | [], _ => .nothing
  | a :: rest, legal => by
    have first : Takes o type (Write.member (.ofName a.name) (.text a.value)) :=
      .member (ofName_ne_resolved a.name) (legal a List.mem_cons_self)
    have others : Takes o type (replayAttributes fragment rest) :=
      takes_replayAttributes fragment fun b hb => legal b (List.mem_cons_of_mem a hb)
    rw [replayAttributes]
    cases a.space with
    | none => exact first.andThen others
    | some space => exact ⟨[], Builds.of_fails fun v => ⟨_, v, rfl⟩, trivial, rfl⟩

theorem replayNodes_eq (fragment : String) (nodes : List Xml.Node) :
    replayNodes fragment nodes = inOrder (nodes.map (replayNode fragment)) := by
  induction nodes with
  | nil => rfl
  | cons n ns ih => rw [replayNodes, ih]; rfl

mutual

/-- **Replayed nodes.** What is replayed of legal nodes is legal. -/
theorem prints_replayNode (fragment : String) : ∀ node : Xml.Node, node.isLegal = true →
    Prints o .collapse (replayNode fragment node) true
  | .text s, legal => by
    have ink : legalInk s = true := legalInk_of_isLegal legal
    exact ink ▸ Prints.gather .writeText s
  | .element space name attributes children, legal => by
    rw [Xml.Node.isLegal, Bool.and_eq_true, List.all_eq_true] at legal
    obtain ⟨attributesLegal, childrenLegal⟩ := legal
    have inner := prints_replayNodes fragment children childrenLegal
    rw [replayNode]
    by_cases dotted : name.toList.contains '.' = true
    · rw [if_pos dotted]
      exact .of_fails (fun v => ⟨_, v, rfl⟩) true
    · rw [if_neg dotted]
      cases getTypeIn (space.getD presentationNamespace) name with
      | error e => exact .of_fails (fun v => ⟨_, v, rfl⟩) true
      | ok type =>
        have members : Takes o type (replayAttributes fragment attributes) :=
          takes_replayAttributes fragment attributesLegal
        by_cases filled : children.any isSubstantial = true
        · rw [if_pos filled]
          have whole : Prints o .collapse _ _ := .object (members.andThen (.content inner)).forms
          simpa only [Write.lift, pure_bind, object, content, ← replayNodes_eq, bind_assoc] using whole
        · rw [if_neg filled]
          exact .object members.forms

theorem prints_replayNodes (fragment : String) : ∀ nodes : List Xml.Node, Xml.nodesLegal nodes = true →
    Prints o .collapse (inOrder (nodes.map (replayNode fragment))) true
  | [], _ => .nothing
  | n :: ns, legal => by
    obtain ⟨first, rest⟩ := Bool.and_eq_true_iff.mp legal
    exact (prints_replayNode fragment n first).andThen (prints_replayNodes fragment ns rest)

end

/-- Whether what is replayed of a fragment is legal: a reader refuses markup that is not, but not text without any. -/
def replayLegal (fragment : String) : Bool :=
  fragment.toList.contains '<' || (Xml.unescape? fragment).all legalInk

/-- **Replayed markup.** -/
theorem prints_replayFragment (fragment : String) :
    Prints o .collapse (replayFragment fragment) (replayLegal fragment) := by
  have fails : ∀ c, Prints o .collapse (throw (.unsupportedFragment fragment .malformed)) c :=
    .of_fails fun v => ⟨_, v, rfl⟩
  unfold replayFragment replayLegal
  split
  · next markup =>
    rw [markup, Bool.true_or]
    split
    · next nodes read =>
      have legal : Xml.nodesLegal nodes = true := by
        rw [Xml.nodesLegal_eq, List.all_eq_true]
        exact Xml.isLegal_parseFragment read
      rw [replayNodes_eq]
      exact prints_replayNodes fragment nodes legal
    · exact fails true
  · next plain =>
    rw [(Bool.not_eq_true _).mp plain, Bool.false_or]
    cases Xml.unescape? fragment with
    | some text => exact Prints.gather .writeText text
    | none => exact fails _

end FlowDoc.Render
