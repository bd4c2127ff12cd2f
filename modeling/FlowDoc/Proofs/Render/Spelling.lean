import FlowDoc.Proofs.Render.Mirror
import FlowDoc.Proofs.Render.Simulation

/-!
# Documents in markup

Markup is made of spelled values. What stands in it for a document is the translation of the document with each value
spelled (`spelledObject`): whenever there is markup, it is that of this tree (`documentMarkup_eq`).
-/

namespace FlowDoc.Render

open Xaml
open Style (KeyClass)

/-! ## Spelled phrases -/

/-- A reference to the static member of the key class. -/
def staticReference (keys : KeyClass) (key : ResourceKey) : ObjectPhrase :=
  .mk .staticExtension [.mk .positionalParameters false [.value (.text (keys.staticReference key))]]

/-- What stands for a value where values are spelled. -/
def spelledValue (keys : KeyClass) : Scalar → ItemPhrase
  | .resourceKey key =>
    if keys.contains key then .object (staticReference keys key) else .value (.text (Scalar.resourceKey key).display)
  | v => .value (.text v.display)

mutual

/-- A phrase with every value spelled. -/
def spelledObject (keys : KeyClass) : ObjectPhrase → ObjectPhrase
  | .mk type members => .mk type (spelledMembers keys members)

def spelledMembers (keys : KeyClass) : List MemberPhrase → List MemberPhrase
  | [] => []
  | m :: ms => spelledMember keys m :: spelledMembers keys ms

def spelledMember (keys : KeyClass) : MemberPhrase → MemberPhrase
  | .mk member collection items => .mk member collection (spelledItems keys items)

def spelledItems (keys : KeyClass) : List ItemPhrase → List ItemPhrase
  | [] => []
  | i :: is => spelledItem keys i :: spelledItems keys is

def spelledItem (keys : KeyClass) : ItemPhrase → ItemPhrase
  | .object o => .object (spelledObject keys o)
  | .value v => spelledValue keys v

end

variable {keys : KeyClass}

theorem signals_spelledValue (v : Scalar) : (spelledValue keys v).signals = spelledSignals keys (.value v) := by
  cases v with
  | resourceKey key =>
    simp only [spelledValue, spelledSignals]
    split <;> rfl
  | _ => rfl

mutual

/-- **Signals of a spelled phrase**: those of the phrase, each spelled. -/
theorem signals_spelledObject : ∀ o : ObjectPhrase,
    (spelledObject keys o).signals = o.signals.flatMap (spelledSignals keys)
  | .mk type members => by
    have inner := signals_spelledMembers members
    simp [spelledObject, ObjectPhrase.signals, inner, spelledSignals]

theorem signals_spelledMembers : ∀ ms : List MemberPhrase,
    membersSignals (spelledMembers keys ms) = (membersSignals ms).flatMap (spelledSignals keys)
  | [] => rfl
  | m :: ms => by
    rw [spelledMembers, membersSignals, membersSignals, List.flatMap_append, signals_spelledMember m,
      signals_spelledMembers ms]

theorem signals_spelledMember : ∀ m : MemberPhrase,
    (spelledMember keys m).signals = m.signals.flatMap (spelledSignals keys)
  | .mk member collection items => by
    have inner := signals_spelledItems items
    cases collection <;>
      simp [spelledMember, MemberPhrase.signals, inner, spelledSignals, memberStart, memberEnd]

theorem signals_spelledItems : ∀ is : List ItemPhrase,
    itemsSignals (spelledItems keys is) = (itemsSignals is).flatMap (spelledSignals keys)
  | [] => rfl
  | i :: is => by
    rw [spelledItems, itemsSignals, itemsSignals, List.flatMap_append, signals_spelledItem i, signals_spelledItems is]

theorem signals_spelledItem : ∀ i : ItemPhrase, (spelledItem keys i).signals = i.signals.flatMap (spelledSignals keys)
  | .object o => by
    rw [spelledItem, ItemPhrase.signals, ItemPhrase.signals, signals_spelledObject o]
  | .value v => by
    rw [spelledItem, ItemPhrase.signals, signals_spelledValue, List.flatMap_singleton]

end

/-! ## Documents -/

/-- The translation of a document with each value spelled. -/
def spelledTranslation (o : Options) (d : Document) : Graph :=
  ⟨documentNamespaces o, (spelledObject o.theme.keyClass (translateDocument o d)).object⟩

/-- What is sent of a document where values are spelled, by what its body builds of typed values. -/
theorem documentSignals_text_of_builds {h : Handlers} (hh : h.AreBuiltIn) {o : Options} {d : Document}
    {members : List MemberPhrase}
    (hb : Builds o.theme .flowDocument (do Write.style .document; content false (renderBlocks h o d)) members)
    {signals : List Signal} (hs : documentSignals h o .text d = .ok signals) :
    signals = (documentNamespaces o).map .namespaceDecl ++
      (spelledObject o.theme.keyClass (.mk .flowDocument members)).signals := by
  have agree := signalsAgree_document hh o d
  rw [hs] at agree
  cases hn : documentSignals h o .native d with
  | error e => rw [hn] at agree; exact agree.elim
  | ok typed =>
    rw [hn] at agree
    have spelled : signals = typed.flatMap (spelledSignals o.theme.keyClass) := agree
    have decls : ∀ ns : List NamespaceDecl, (ns.map Signal.namespaceDecl).flatMap (spelledSignals o.theme.keyClass) =
        ns.map .namespaceDecl := fun ns => by
      induction ns with
      | nil => rfl
      | cons d ds ih => rw [List.map_cons, List.flatMap_cons, ih]; rfl
    rw [spelled, documentSignals_of_builds hb hn, List.flatMap_append, decls, signals_spelledObject]

/-- The markup of a document, by what its body builds. -/
theorem documentMarkup_of_builds {h : Handlers} (hh : h.AreBuiltIn) {o : Options} {d : Document}
    {members : List MemberPhrase}
    (hb : Builds o.theme .flowDocument (do Write.style .document; content false (renderBlocks h o d)) members)
    {indent : Nat} {markup : String} (hm : documentMarkup h o indent d = .ok markup) :
    markup = Graph.markup ⟨documentNamespaces o, (spelledObject o.theme.keyClass (.mk .flowDocument members)).object⟩
      indent := by
  rw [documentMarkup] at hm
  cases hs : documentSignals h o .text d with
  | error e => rw [hs] at hm; cases hm
  | ok signals =>
    rw [hs] at hm
    have built : Graph.ofSignals signals =
        .ok ⟨documentNamespaces o, (spelledObject o.theme.keyClass (.mk .flowDocument members)).object⟩ := by
      rw [documentSignals_text_of_builds hh hb hs, Graph.ofSignals_phrase]
    have printed : (do return (← Graph.ofSignals signals).markup indent : Except RenderError String) = .ok markup := hm
    rw [built] at printed
    cases printed
    rfl

/-- What is sent of a document where values are spelled. -/
theorem documentSignals_text_eq {o : Options} (ho : o.rawMarkup ≠ .replay) {d : Document} {signals : List Signal}
    (h : documentSignals .builtIn o .text d = .ok signals) :
    signals = (documentNamespaces o).map .namespaceDecl ++
      (spelledObject o.theme.keyClass (translateDocument o d)).signals :=
  documentSignals_text_of_builds areBuiltIn_builtIn (builds_document o ho d) h

/-- **Documents in markup.** Whenever there is markup of a document, it is that of the spelled translation. -/
theorem documentMarkup_eq {o : Options} (ho : o.rawMarkup ≠ .replay) {indent : Nat} {d : Document} {markup : String}
    (h : documentMarkup .builtIn o indent d = .ok markup) : markup = (spelledTranslation o d).markup indent :=
  documentMarkup_of_builds areBuiltIn_builtIn (builds_document o ho d) h

end FlowDoc.Render
