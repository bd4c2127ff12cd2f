import FlowDoc.Proofs.Render.VisibleText
import FlowDoc.Proofs.Xaml.Tidy

/-!
# The content model of flow documents

What may stand where in a flow document: blocks among blocks, rows in row groups, inlines and text among inlines
(`contentModel`), one row group in a table, and verbatim runs in code alone (`Object.IsModelled`). A writer puts
anything anywhere, so this is a matter of the handlers: what they put into a collection is what the model admits there
(`fills_inline`, `fill_block`), however custom containers, lists, quotes and tables are nested.

So every object of a rendered document is as the model has it (**`documentGraph_isModelled`**).
-/

namespace FlowDoc.Xaml

open Style (Theme)

/-- What a collection of the content model takes. -/
structure ContentRule where
  member : String
  /-- The types that have the collection. -/
  holders : List ElementType
  /-- The types of the objects in it. -/
  types : List ElementType
  /-- Whether texts may stand among the objects. -/
  texts : Bool := false
  deriving DecidableEq

namespace ContentRule

def blocks : ContentRule where
  member := "Blocks"
  holders := [.flowDocument, .sectionElement, .listItem, .tableCell]
  types := [.paragraph, .sectionElement, .list, .table]

def listItems : ContentRule where
  member := "ListItems"
  holders := [.list]
  types := [.listItem]

def columns : ContentRule where
  member := "Columns"
  holders := [.table]
  types := [.tableColumn]

def rowGroups : ContentRule where
  member := "RowGroups"
  holders := [.table]
  types := [.tableRowGroup]

def rows : ContentRule where
  member := "Rows"
  holders := [.tableRowGroup]
  types := [.tableRow]

def cells : ContentRule where
  member := "Cells"
  holders := [.tableRow]
  types := [.tableCell]

def inlines : ContentRule where
  member := "Inlines"
  holders := [.paragraph, .span, .bold, .italic, .underline, .hyperlink]
  types := [.run, .span, .bold, .italic, .underline, .hyperlink, .lineBreak, .image]
  texts := true

/-- What may stand in the collection: no text where there are none, and no empty text anywhere. -/
def Admits (r : ContentRule) : Node → Prop
  | .object o => o.type ∈ r.types
  | .value (.text s) => r.texts = true ∧ s ≠ ""
  | .value _ => False

end ContentRule

/-- The collections of flow documents. -/
def contentModel : List ContentRule :=
  [.blocks, .listItems, .columns, .rowGroups, .rows, .cells, .inlines]

/-- Whether the content of a type is the collection of a rule. -/
def ContentRule.IsContentOf (r : ContentRule) (type : ElementType) : Prop :=
  r ∈ contentModel ∧ type ∈ r.holders ∧ type.content?.all (·.name == r.member) = true

instance (r : ContentRule) (type : ElementType) : Decidable (r.IsContentOf type) :=
  inferInstanceAs (Decidable (_ ∧ _ ∧ _))

namespace Object

/-- All that stands in the members of a name. -/
def itemsOf (o : Object) (name : String) : List Node := o.members.flatMap fun m => if m.name = name then m.items else []

/-- A reference to a resource. -/
def reference (key : ResourceKey) : Object :=
  .mk .staticResourceExtension [.mk "_PositionalParameters" "x" .directive false false [.value (.resourceKey key)]]

/-- Whether the style of an object is the resource of a key. -/
def HasStyle (o : Object) (key : ResourceKey) : Prop := o.itemsOf "Style" = [.object (.reference key)]

/-- Whether an object holds code: a paragraph styled as a code block, or a span styled as code. -/
def IsCode (theme : Theme) (o : Object) : Prop :=
  (o.type = .paragraph ∧ o.HasStyle (theme.resolve .codeBlock)) ∨ (o.type = .span ∧ o.HasStyle (theme.resolve .code))

/-- An object is as the content model has it, as far as what stands directly in it. -/
structure IsModelled (theme : Theme) (o : Object) : Prop where
  collections : ∀ m ∈ o.members, ∀ r ∈ contentModel, r.member = m.name → o.type ∈ r.holders ∧ ∀ n ∈ m.items, r.Admits n
  rowGroup : o.type = .table → ∃ group, o.itemsOf "RowGroups" = [.object group] ∧ group.type = .tableRowGroup
  runs : ∀ m ∈ o.members, ∀ c, .object c ∈ m.items → c.type = .run → o.IsCode theme

/-- An object and all in it are as the content model has it. -/
def AllModelled (theme : Theme) (o : Object) : Prop := ∀ p, Within p o → p.IsModelled theme

theorem IsModelled.all {theme : Theme} {o : Object} (h : o.IsModelled theme)
    (inner : ∀ m ∈ o.members, ∀ c, .object c ∈ m.items → c.AllModelled theme) : o.AllModelled theme := by
  intro p hp
  cases hp with
  | self => exact h
  | inMember hm hc within => exact inner _ hm _ hc p within

end Object

end FlowDoc.Xaml

namespace FlowDoc.Render

open Xaml
open Text (AllChildren Flow)

/-! ## Phrases as nodes -/

theorem membersNodes_eq (type : ElementType) (members : List MemberPhrase) :
    membersNodes type members = members.map (·.node type) := by
  induction members with
  | nil => rfl
  | cons m ms ih => rw [membersNodes, ih, List.map_cons]

theorem itemsNodes_eq (items : List ItemPhrase) : itemsNodes items = items.map (·.node) := by
  induction items with
  | nil => rfl
  | cons i is ih => rw [itemsNodes, ih, List.map_cons]

theorem member?_name {type : ElementType} {name : String} {m : Member} (h : type.member? name = some m) :
    m.name = name := by
  obtain ⟨t, -, own⟩ := List.exists_of_findSome?_eq_some h
  obtain ⟨d, found, rfl⟩ := Option.map_eq_some_iff.mp own
  have same : d.name = name ∧ d.attachable = false := by simpa using List.find?_some found
  exact same.1

/-! ## Members that fit -/

variable {theme : Style.Theme} {type : ElementType} {code : Prop}

/-- A node that may be put into an object, with runs only if that holds code. -/
structure NodeFits (theme : Style.Theme) (code : Prop) (n : Node) : Prop where
  run : ∀ {c}, n = .object c → c.type = .run → code
  all : ∀ {c}, n = .object c → c.AllModelled theme

/-- A member that may be put into an object of a type. -/
structure MemberFits (theme : Style.Theme) (type : ElementType) (code : Prop) (m : MemberPhrase) : Prop where
  collections : ∀ r ∈ contentModel, r.member = (m.node type).name →
    type ∈ r.holders ∧ ∀ n ∈ (m.node type).items, r.Admits n
  items : ∀ n ∈ (m.node type).items, NodeFits theme code n

def MembersFit (theme : Style.Theme) (type : ElementType) (code : Prop) (members : List MemberPhrase) : Prop :=
  ∀ m ∈ members, MemberFits theme type code m

theorem MembersFit.append {ms ms' : List MemberPhrase} (h : MembersFit theme type code ms)
    (h' : MembersFit theme type code ms') : MembersFit theme type code (ms ++ ms') :=
  List.forall_mem_append.mpr ⟨h, h'⟩

/-- An object of members that fit, if it may hold what is in them. -/
theorem MembersFit.all {members : List MemberPhrase} (h : MembersFit theme type code members)
    (holds : code → (ObjectPhrase.mk type members).object.IsCode theme)
    (group : type = .table → ∃ group, (ObjectPhrase.mk type members).object.itemsOf "RowGroups" = [.object group] ∧
      group.type = .tableRowGroup) : (ObjectPhrase.mk type members).object.AllModelled theme := by
  have fits : ∀ m ∈ (ObjectPhrase.mk type members).object.members, ∃ p : MemberPhrase, p.node type = m ∧
      MemberFits theme type code p := by
    intro m hm
    rw [ObjectPhrase.object, Object.members, membersNodes_eq] at hm
    obtain ⟨p, hp, rfl⟩ := List.mem_map.mp hm
    exact ⟨p, rfl, h p hp⟩
  have modelled : (ObjectPhrase.mk type members).object.IsModelled theme := {
    collections := fun m hm => by
      obtain ⟨p, rfl, fit⟩ := fits m hm
      exact fit.collections
    rowGroup := group
    runs := fun m hm c hc run => by
      obtain ⟨p, rfl, fit⟩ := fits m hm
      exact holds ((fit.items _ hc).run rfl run) }
  refine modelled.all fun m hm c hc => ?_
  obtain ⟨p, rfl, fit⟩ := fits m hm
  exact (fit.items _ hc).all rfl

/-- An object without runs that is no table. -/
theorem MembersFit.plain {members : List MemberPhrase} (h : MembersFit theme type False members)
    (noTable : type ≠ .table := by decide) : (ObjectPhrase.mk type members).object.AllModelled theme :=
  h.all False.elim fun table => absurd table noTable

theorem mem_items_node {m : Member} {collection : Bool} {items : List ItemPhrase} {n : Node}
    (hn : n ∈ ((MemberPhrase.mk m collection items).node type).items) : ∃ i ∈ items, i.node = n := by
  rw [MemberPhrase.node, MemberNode.items, itemsNodes_eq] at hn
  exact List.mem_map.mp hn

/-- A name that is not that of a collection of the content model. -/
def IsFree (name : String) : Bool := contentModel.all (·.member != name)

theorem memberFits_free {m : Member} (free : IsFree m.name = true) {collection : Bool} {i : ItemPhrase}
    (hi : NodeFits theme code i.node) : MemberFits theme type code (.mk m collection [i]) where
  collections r hr same := by
    have other := List.all_eq_true.mp free r hr
    rw [same, MemberPhrase.node, MemberNode.name] at other
    simp at other
  items n hn := by
    obtain ⟨j, here, rfl⟩ := mem_items_node hn
    cases List.mem_singleton.mp here
    exact hi

theorem nodeFits_value (v : Scalar) : NodeFits theme code (ItemPhrase.value v).node where
  run h := nomatch h
  all h := nomatch h

theorem membersFit_item {member? : Option Member} (free : ∀ m ∈ member?, IsFree m.name = true) {i : ItemPhrase}
    (hi : NodeFits theme code i.node) : MembersFit theme type code (itemMember member? i) := by
  intro m hm
  obtain ⟨member, found, rfl⟩ := List.mem_map.mp hm
  exact memberFits_free (free member (Option.mem_toList.mp found)) hi

theorem membersFit_value (name : String) (v : Scalar) (free : IsFree name = true := by decide) :
    MembersFit theme type code (valueMember type name v) :=
  membersFit_item (fun _ found => by rwa [member?_name found]) (nodeFits_value v)

theorem membersFit_value? (name : String) (v : Option Scalar) (free : IsFree name = true := by decide) :
    MembersFit theme type code (valueMember? type name v) := by
  cases v with
  | none => exact List.forall_mem_nil _
  | some v => exact membersFit_value name v free

/-- A style is a reference to a resource. -/
theorem membersFit_style (r : Style.Role) : MembersFit theme type code (styleMember theme type r) := by
  have argument : MembersFit theme .staticResourceExtension False
      [.mk .positionalParameters false [.value (.resourceKey (theme.resolve r))]] :=
    List.forall_mem_singleton.mpr (memberFits_free (by decide) (nodeFits_value _))
  have reference := argument.plain
  refine membersFit_item (fun _ found => by rw [member?_name found]; decide) ⟨fun same run => ?_, fun same => ?_⟩
  · cases same
    cases run
  · cases same
    exact reference

/-- Items that a rule admits. -/
def ItemsFit (theme : Style.Theme) (r : ContentRule) (code : Prop) (items : List ItemPhrase) : Prop :=
  ∀ i ∈ items, r.Admits i.node ∧ NodeFits theme code i.node

/-- No two rules are for one name. -/
theorem contentRule_unique : ∀ r ∈ contentModel, ∀ r' ∈ contentModel, r.member = r'.member → r = r' := by decide

theorem memberFits_collection {r : ContentRule} (hr : r ∈ contentModel) (holder : type ∈ r.holders) {m : Member}
    (hm : m.name = r.member) {items : List ItemPhrase} (hi : ItemsFit theme r code items) :
    MemberFits theme type code (.mk m true items) where
  collections r' hr' same := by
    obtain rfl := contentRule_unique r' hr' r hr (same.trans hm)
    refine ⟨holder, fun n hn => ?_⟩
    obtain ⟨i, here, rfl⟩ := mem_items_node hn
    exact (hi i here).1
  items n hn := by
    obtain ⟨i, here, rfl⟩ := mem_items_node hn
    exact (hi i here).2

theorem membersFit_collect {r : ContentRule} (hr : r ∈ contentModel) (holder : type ∈ r.holders) {m : Member}
    (hm : m.name = r.member) {items : List ItemPhrase} (hi : ItemsFit theme r code items) :
    MembersFit theme type code (MemberPhrase.collect m items) := by
  cases items with
  | nil => exact List.forall_mem_nil _
  | cons i is => exact List.forall_mem_singleton.mpr (memberFits_collection hr holder hm hi)

/-- The content of a type, under the rule for its content property. -/
theorem membersFit_content {r : ContentRule} {items : List ItemPhrase} (hi : ItemsFit theme r code items)
    (hc : r.IsContentOf type := by decide) : MembersFit theme type code (contentMember type items) := by
  obtain ⟨hr, holder, named⟩ := hc
  rw [contentMember]
  cases found : type.content? with
  | none => exact List.forall_mem_nil _
  | some m =>
    have same : m.name = r.member := by simpa [found] using named
    simpa using membersFit_collect hr holder same hi

/-! ## Objects that fit -/

/-- An object of one of the types that is as the content model has it. -/
structure Fills (theme : Style.Theme) (types : List ElementType) (o : ObjectPhrase) : Prop where
  type : o.object.type ∈ types
  all : o.object.AllModelled theme

/-- An object of members, by its type. -/
theorem fills_mk {types : List ElementType} {members : List MemberPhrase}
    (all : (ObjectPhrase.mk type members).object.AllModelled theme) (ht : type ∈ types := by decide) :
    Fills theme types (.mk type members) :=
  ⟨ht, all⟩

theorem Fills.nodeFits {types : List ElementType} {o : ObjectPhrase} (h : Fills theme types o) (noRun : .run ∉ types) :
    NodeFits theme code (ItemPhrase.object o).node where
  run same run := by
    cases same
    exact absurd (run ▸ h.type) noRun
  all same := by
    cases same
    exact h.all

/-- Objects of the types of a rule. -/
theorem itemsFit_objects {r : ContentRule} {objects : List ObjectPhrase} (h : ∀ o ∈ objects, Fills theme r.types o)
    (noRun : .run ∉ r.types := by decide) : ItemsFit theme r code (objectItems objects) := by
  intro i hi
  obtain ⟨o, ho, rfl⟩ := List.mem_map.mp hi
  exact ⟨(h o ho).type, (h o ho).nodeFits noRun⟩

/-- An object that is no table, with objects as its content. -/
theorem fills_objects {types : List ElementType} {r : ContentRule} {members : List MemberPhrase}
    {objects : List ObjectPhrase} (hm : MembersFit theme type False members)
    (ho : ∀ o ∈ objects, Fills theme r.types o) (hc : r.IsContentOf type := by decide)
    (noRun : .run ∉ r.types := by decide) (noTable : type ≠ .table := by decide) (ht : type ∈ types := by decide) :
    Fills theme types (.mk type (members ++ contentMember type (objectItems objects))) :=
  fills_mk ((hm.append (membersFit_content (itemsFit_objects ho noRun) hc)).plain noTable) ht

/-! ## Items by name -/

theorem itemsOf_append (members members' : List MemberPhrase) (name : String) :
    (ObjectPhrase.mk type (members ++ members')).object.itemsOf name =
      (ObjectPhrase.mk type members).object.itemsOf name ++ (ObjectPhrase.mk type members').object.itemsOf name := by
  simp only [ObjectPhrase.object, Object.itemsOf, Object.members, membersNodes_eq, List.map_append, List.flatMap_append]

/-- Members of other names. -/
theorem itemsOf_other {members : List MemberPhrase} {name : String} (h : ∀ m ∈ members, (m.node type).name ≠ name) :
    (ObjectPhrase.mk type members).object.itemsOf name = [] := by
  simp only [ObjectPhrase.object, Object.itemsOf, Object.members, membersNodes_eq]
  refine List.flatMap_eq_nil_iff.mpr fun n hn => ?_
  obtain ⟨m, hm, rfl⟩ := List.mem_map.mp hn
  exact if_neg (h m hm)

theorem itemsOf_singleton (m : Member) (collection : Bool) (items : List ItemPhrase) :
    (ObjectPhrase.mk type [.mk m collection items]).object.itemsOf m.name = items.map (·.node) := by
  simp [ObjectPhrase.object, Object.itemsOf, Object.members, membersNodes, MemberPhrase.node, MemberNode.name,
    MemberNode.items, itemsNodes_eq]

theorem name_of_mem_collect {m : Member} {items : List ItemPhrase} {p : MemberPhrase}
    (hp : p ∈ MemberPhrase.collect m items) : (p.node type).name = m.name := by
  cases items with
  | nil => cases hp
  | cons i is => obtain rfl := List.mem_singleton.mp hp; rfl

theorem itemsOf_content_other {name : String} (hc : type.content?.all (·.name != name) = true)
    (items : List ItemPhrase) : (ObjectPhrase.mk type (contentMember type items)).object.itemsOf name = [] := by
  refine itemsOf_other fun p hp => ?_
  obtain ⟨m, found, hp⟩ := List.mem_flatMap.mp hp
  rw [name_of_mem_collect hp]
  rw [Option.mem_toList.mp found] at hc
  simpa using hc

/-- An object of a type that has a style has that of the role. -/
theorem itemsOf_style {r : Style.Role} (hs : (type.member? "Style").isSome = true) :
    (ObjectPhrase.mk type (styleMember theme type r)).object.HasStyle (theme.resolve r) := by
  obtain ⟨m, found⟩ := Option.isSome_iff_exists.mp hs
  have named := member?_name found
  rw [Object.HasStyle, styleMember, found, ← named]
  exact itemsOf_singleton m false _

/-! ## Code -/

theorem hasStyle_styled {r : Style.Role} {items : List ItemPhrase}
    (hs : (type.member? "Style").isSome = true := by decide)
    (hc : type.content?.all (·.name != "Style") = true := by decide) :
    (ObjectPhrase.mk type (styleMember theme type r ++ contentMember type items)).object.HasStyle
      (theme.resolve r) := by
  rw [Object.HasStyle, itemsOf_append, itemsOf_content_other hc, List.append_nil]
  exact itemsOf_style hs

/-- An object that holds code. -/
theorem fills_code {types : List ElementType} {r : Style.Role} {items : List ItemPhrase}
    (hi : ItemsFit theme .inlines True items)
    (code : (ObjectPhrase.mk type (styleMember theme type r ++ contentMember type items)).object.IsCode theme)
    (hc : ContentRule.inlines.IsContentOf type := by decide) (noTable : type ≠ .table := by decide)
    (ht : type ∈ types := by decide) :
    Fills theme types (.mk type (styleMember theme type r ++ contentMember type items)) :=
  fills_mk (((membersFit_style r).append (membersFit_content hi hc)).all (fun _ => code)
    fun table => absurd table noTable) ht

theorem nodeFits_run (s : String) :
    NodeFits theme True (ItemPhrase.object (.mk .run [.mk runText false [.value (.text s)]])).node where
  run _ _ := trivial
  all same := by
    have text : MembersFit theme .run False [.mk runText false [.value (.text s)]] :=
      List.forall_mem_singleton.mpr (memberFits_free (by decide) (nodeFits_value _))
    cases same
    exact text.plain

/-- The text of a verbatim run. -/
theorem itemsFit_runOf (s : String) : ItemsFit theme .inlines True (runOf s) := by
  rw [runOf]
  split
  · exact List.forall_mem_nil _
  · have admitted : ElementType.run ∈ ContentRule.inlines.types := by decide
    exact List.forall_mem_singleton.mpr ⟨admitted, nodeFits_run s⟩

theorem fills_lineBreak {types : List ElementType} (h : .lineBreak ∈ types := by decide) :
    Fills theme types (.mk .lineBreak []) :=
  fills_mk (MembersFit.plain (List.forall_mem_nil _)) h

theorem itemsFit_codeItems (join : LineJoin) (lines : List String) :
    ItemsFit theme .inlines True (codeItems join lines) := by
  cases join with
  | newline => exact itemsFit_runOf _
  | lineBreak =>
    cases lines with
    | nil => exact List.forall_mem_nil _
    | cons l ls =>
      refine List.forall_mem_append.mpr ⟨itemsFit_runOf l, fun i hi => ?_⟩
      obtain ⟨k, -, hi⟩ := List.mem_flatMap.mp hi
      rcases List.mem_cons.mp hi with rfl | hi
      · have filled : Fills theme [.lineBreak] (.mk .lineBreak []) := fills_lineBreak
        have admitted : ElementType.lineBreak ∈ ContentRule.inlines.types := by decide
        exact ⟨admitted, filled.nodeFits (by decide)⟩
      · exact itemsFit_runOf k i hi

/-! ## Inlines -/

/-- The types of the objects that inlines become, of which none is a run. -/
def inlineTypes : List ElementType := [.span, .bold, .italic, .hyperlink, .lineBreak, .image]

/-- A flow whose children are inlines. -/
def FlowFills (theme : Style.Theme) (flow : List (Flow ObjectPhrase)) : Prop :=
  AllChildren (Fills theme inlineTypes) flow

/-- A flow with its text collapsed: texts that are not empty, and inlines. -/
theorem itemsFit_collapsedItems {flow : List (Flow ObjectPhrase)} (h : FlowFills theme flow) :
    ItemsFit theme .inlines code (collapsedItems flow) := by
  intro i hi
  obtain ⟨laid, hl, rfl⟩ := List.mem_map.mp hi
  cases laid with
  | piece p =>
    cases p with
    | value s => exact ⟨⟨rfl, Text.text_ne_of_mem_layout hl⟩, nodeFits_value _⟩
    | verbatim s => exact absurd hl (Text.verbatim_not_mem_layout s flow)
  | child o =>
    have filled := h o (Text.child_mem_of_layout hl)
    have inline : ∀ t ∈ inlineTypes, t ∈ ContentRule.inlines.types := by decide
    exact ⟨inline _ filled.type, filled.nodeFits (by decide)⟩

/-- An object with members and inlines. -/
theorem fills_flow {types : List ElementType} {members : List MemberPhrase} {flow : List (Flow ObjectPhrase)}
    (hm : MembersFit theme type False members) (hf : FlowFills theme flow)
    (hc : ContentRule.inlines.IsContentOf type := by decide) (noTable : type ≠ .table := by decide)
    (ht : type ∈ types := by decide) :
    Fills theme types (.mk type (members ++ contentMember type (collapsedItems flow))) :=
  fills_mk ((hm.append (membersFit_content (itemsFit_collapsedItems hf) hc)).plain noTable) ht

/-- An object with inlines alone. -/
theorem fills_plain {types : List ElementType} {flow : List (Flow ObjectPhrase)} (hf : FlowFills theme flow)
    (hc : ContentRule.inlines.IsContentOf type := by decide) (noTable : type ≠ .table := by decide)
    (ht : type ∈ types := by decide) :
    Fills theme types (.mk type (contentMember type (collapsedItems flow))) :=
  fills_flow (List.forall_mem_nil _) hf hc noTable ht

theorem fills_linkObject (target : String) (title : Option String) {flow : List (Flow ObjectPhrase)}
    (h : FlowFills theme flow) : Fills theme inlineTypes (linkObject theme target title (collapsedItems flow)) := by
  have style : MembersFit theme .hyperlink False (styleMember theme .hyperlink .hyperlink) := membersFit_style _
  have members := (style.append (membersFit_value "NavigateUri" (.uri target))).append
    (membersFit_value "ToolTip" (.text (title.getD target)))
  exact fills_flow members h

theorem fills_imageObject (target : String) (title : Option String) :
    Fills theme inlineTypes (imageObject theme target title) := by
  have style : MembersFit theme .image False (styleMember theme .image .image) := membersFit_style _
  refine fills_mk ((style.append ?tip).append (membersFit_value "Source" (.uri target))).plain
  cases title with
  | none => exact List.forall_mem_nil _
  | some title => exact membersFit_item (by decide) (nodeFits_value _)

mutual

/-- **Inlines.** What an inline puts into its collection are texts and inlines. -/
theorem fills_inline (o : Options) : ∀ i : Inline, FlowFills o.theme (flattenInline o i)
  | .text s => by
    rw [flattenInline]
    exact AllChildren.text s
  | .lineBreak hard => by
    rw [flattenInline]
    split
    · exact AllChildren.child fills_lineBreak
    · exact AllChildren.text " "
  | .code s => by
    rw [flattenInline]
    exact AllChildren.child (fills_code (itemsFit_runOf s) (.inr ⟨rfl, hasStyle_styled⟩))
  | .emphasis delimiter count children => by
    have inner := fills_inlines o children
    rw [flattenInline]
    cases ht : emphasisTarget delimiter count with
    | element type =>
      rcases emphasisTarget_element ht with rfl | rfl
      · exact AllChildren.child (fills_plain inner)
      · exact AllChildren.child (fills_plain inner)
    | styled role => exact AllChildren.child (fills_flow (membersFit_style _) inner)
    | unwrapped => exact inner
  | .delimiter literal children => by
    rw [flattenInline, ← List.singleton_append]
    exact AllChildren.append (.text literal) (fills_inlines o children)
  | .link url title isImage children => by
    rw [flattenInline]
    split
    · exact AllChildren.child (fills_imageObject _ _)
    · exact AllChildren.child (fills_linkObject _ _ (fills_inlines o children))
  | .autolink url isEmail => by
    rw [flattenInline]
    exact AllChildren.child (fills_linkObject _ _ (.text url))
  | .raw s => by
    rw [flattenInline]
    split
    · exact AllChildren.text s
    · exact AllChildren.nil
  | .task checked => by
    have style : MembersFit o.theme .span False (styleMember o.theme .span .taskList) := membersFit_style _
    rw [flattenInline]
    exact AllChildren.child (fills_mk (style.append (membersFit_value "Tag" (.bool checked))).plain)
  | .custom _ children => by
    rw [flattenInline]
    exact fills_inlines o children

theorem fills_inlines (o : Options) : ∀ is : List Inline, FlowFills o.theme (flattenInlines o is)
  | [] => by
    rw [flattenInlines]
    exact AllChildren.nil
  | i :: is => by
    rw [flattenInlines]
    exact AllChildren.append (fills_inline o i) (fills_inlines o is)

end

/-! ## Blocks -/

theorem membersFit_markers (ordered : Bool) (start : Option Nat) :
    MembersFit theme .list False (markerMembers ordered start) := by
  cases ordered with
  | true => exact (membersFit_value "MarkerStyle" _).append (membersFit_value? "StartIndex" _)
  | false => exact membersFit_value "MarkerStyle" _

theorem fills_columnObject (c : Column) : Fills theme ContentRule.columns.types (columnObject c) :=
  fills_mk (membersFit_value "Width" _).plain

theorem membersFit_columns (columns : List Column) : MembersFit theme .table False (columnMember columns) := by
  have items : ItemsFit theme .columns False (objectItems (columns.map columnObject)) := by
    refine itemsFit_objects fun o ho => ?_
    obtain ⟨c, -, rfl⟩ := List.mem_map.mp ho
    exact fills_columnObject c
  intro m hm
  obtain ⟨member, found, hm⟩ := List.mem_flatMap.mp hm
  have name := member?_name (Option.mem_toList.mp found)
  exact membersFit_collect (by decide) (by decide) name items m hm

/-- The row groups of a table are the one that it is given. -/
theorem itemsOf_table (columns : List Column) (group : ObjectPhrase) :
    (ObjectPhrase.mk .table (styleMember theme .table .table ++ columnMember columns ++
      contentMember .table [.object group])).object.itemsOf "RowGroups" = [.object group.object] := by
  have style : ∀ m ∈ styleMember theme .table .table, (m.node .table).name ≠ "RowGroups" := by
    intro m hm
    obtain ⟨member, found, rfl⟩ := List.mem_map.mp hm
    have name := member?_name (Option.mem_toList.mp found)
    show member.name ≠ "RowGroups"
    rw [name]
    decide
  have column : ∀ m ∈ columnMember columns, (m.node .table).name ≠ "RowGroups" := by
    intro m hm
    obtain ⟨member, found, hm⟩ := List.mem_flatMap.mp hm
    rw [name_of_mem_collect hm, member?_name (Option.mem_toList.mp found)]
    decide
  rw [itemsOf_append, itemsOf_append, itemsOf_other style, itemsOf_other column]
  rfl

theorem fills_table {types : List ElementType} (columns : List Column) {group : ObjectPhrase}
    (h : Fills theme [.tableRowGroup] group) (ht : .table ∈ types := by decide) :
    Fills theme types (.mk .table (styleMember theme .table .table ++ columnMember columns ++
      contentMember .table [.object group])) := by
  have style : MembersFit theme .table False (styleMember theme .table .table) := membersFit_style _
  have content : MembersFit theme .table False (contentMember .table [.object group]) :=
    membersFit_content (r := .rowGroups) (itemsFit_objects (List.forall_mem_singleton.mpr h))
  exact ⟨ht, ((style.append (membersFit_columns columns)).append content).all False.elim
    fun _ => ⟨group.object, itemsOf_table columns group, List.mem_singleton.mp h.type⟩⟩

theorem fill_wrappedInlines (o : Options) (inlines : List Inline) :
    ∀ p ∈ wrappedInlines o inlines, Fills o.theme ContentRule.blocks.types p := by
  cases inlines with
  | nil => exact List.forall_mem_nil _
  | cons i is => exact List.forall_mem_singleton.mpr (fills_plain (fills_inlines o _))

mutual

/-- **Blocks.** The objects of a block are blocks. -/
theorem fill_block (o : Options) : ∀ b : Block, ∀ p ∈ translateBlock o b, Fills o.theme ContentRule.blocks.types p
  | .paragraph inlines => by
    rw [translateBlock, List.forall_mem_singleton]
    exact fills_plain (fills_inlines o inlines)
  | .heading level inlines => by
    rw [translateBlock, List.forall_mem_singleton]
    exact fills_flow (membersFit_style _) (fills_inlines o inlines)
  | .codeBlock _ lines => by
    rw [translateBlock, List.forall_mem_singleton]
    exact fills_code (itemsFit_codeItems o.lineJoin lines) (.inl ⟨rfl, hasStyle_styled⟩)
  | .list ordered start items => by
    rw [translateBlock, List.forall_mem_singleton]
    exact fills_objects (r := .listItems) (membersFit_markers ordered start) (fill_items o items)
  | .quote blocks => by
    rw [translateBlock, List.forall_mem_singleton]
    exact fills_objects (r := .blocks) (membersFit_style _) (fill_blocks o blocks)
  | .thematicBreak => by
    have style : MembersFit o.theme .paragraph False (styleMember o.theme .paragraph .thematicBreak) :=
      membersFit_style _
    rw [translateBlock, List.forall_mem_singleton]
    exact fills_mk style.plain
  | .table columns rows => by
    have group : Fills o.theme [.tableRowGroup] (.mk .tableRowGroup
        ([] ++ contentMember .tableRowGroup (objectItems (translateRows o columns rows)))) :=
      fills_objects (r := .rows) (List.forall_mem_nil _) (fill_rows o columns rows)
    rw [translateBlock, List.forall_mem_singleton]
    exact fills_table columns group
  | .html literal => by
    rw [translateBlock]
    split
    · rw [List.forall_mem_singleton]
      exact fills_plain (.text literal)
    · exact List.forall_mem_nil _
  | .custom _ blocks inlines => by
    rw [translateBlock, List.forall_mem_append]
    exact ⟨fill_blocks o blocks, fill_wrappedInlines o inlines⟩

theorem fill_blocks (o : Options) :
    ∀ bs : List Block, ∀ p ∈ translateBlocks o bs, Fills o.theme ContentRule.blocks.types p
  | [] => by
    rw [translateBlocks]
    exact List.forall_mem_nil _
  | b :: bs => by
    rw [translateBlocks, List.forall_mem_append]
    exact ⟨fill_block o b, fill_blocks o bs⟩

theorem fill_items (o : Options) :
    ∀ items : List (List Block), ∀ p ∈ translateItems o items, Fills o.theme ContentRule.listItems.types p
  | [] => by
    rw [translateItems]
    exact List.forall_mem_nil _
  | i :: is => by
    rw [translateItems, List.forall_mem_cons]
    exact ⟨fills_objects (r := .blocks) (List.forall_mem_nil _) (fill_blocks o i), fill_items o is⟩

theorem fill_rows (o : Options) (columns : List Column) :
    ∀ rows : List (Row Block), ∀ p ∈ translateRows o columns rows, Fills o.theme ContentRule.rows.types p
  | [] => by
    rw [translateRows]
    exact List.forall_mem_nil _
  | r :: rs => by
    rw [translateRows, List.forall_mem_cons]
    exact ⟨fills_row o columns r, fill_rows o columns rs⟩

theorem fills_row (o : Options) (columns : List Column) :
    ∀ r : Row Block, Fills o.theme ContentRule.rows.types (translateRow o columns r)
  | ⟨isHeader, cells⟩ => by
    have style : MembersFit o.theme .tableRow False
        (if isHeader then styleMember o.theme .tableRow .tableHeader else []) := by
      split
      · exact membersFit_style _
      · exact List.forall_mem_nil _
    rw [translateRow]
    exact fills_objects (r := .cells) style (fill_cells o columns 0 cells)

theorem fill_cells (o : Options) (columns : List Column) (position : Nat) :
    ∀ cells : List (Cell Block), ∀ p ∈ translateCells o columns position cells, Fills o.theme ContentRule.cells.types p
  | [] => by
    rw [translateCells]
    exact List.forall_mem_nil _
  | c :: cs => by
    rw [translateCells, List.forall_mem_cons]
    exact ⟨fills_cell o columns position c, fill_cells o columns (position + 1) cs⟩

theorem fills_cell (o : Options) (columns : List Column) (position : Nat) :
    ∀ c : Cell Block, Fills o.theme ContentRule.cells.types (translateCell o columns position c)
  | ⟨column, columnSpan, rowSpan, blocks⟩ => by
    have style : MembersFit o.theme .tableCell False (styleMember o.theme .tableCell .tableCell) := membersFit_style _
    have members := ((style.append (membersFit_value? "ColumnSpan" (spanValue columnSpan))).append
      (membersFit_value? "RowSpan" (spanValue rowSpan))).append
      (membersFit_value? "TextAlignment" ((cellAlignment columns column position).map Scalar.alignment))
    rw [translateCell]
    exact fills_objects (r := .blocks) members (fill_blocks o blocks)

end

/-! ## Documents -/

/-- **The content model.** Whenever a document can be rendered with the built-in handlers and without replaying raw
markup, its graph is a flow document, and every object in it is as the content model has it. -/
theorem documentGraph_isModelled {o : Options} (ho : o.rawMarkup ≠ .replay) {d : Document} {g : Graph}
    (h : documentGraph .builtIn o d = .ok g) :
    g.root.type = .flowDocument ∧ ∀ p : Object, p.Within g.root → p.IsModelled o.theme := by
  obtain ⟨signals, sent, received⟩ := signals_of_documentGraph h
  rw [documentSignals_eq ho sent, Graph.ofSignals_phrase] at received
  cases received
  have root : Fills o.theme [.flowDocument] (translateDocument o d) :=
    fills_objects (r := .blocks) (membersFit_style _) (fill_blocks o d)
  exact ⟨rfl, root.all⟩

/-- A table in a custom block, with code and raw markup in a cell. -/
theorem documentGraph_isModelled_table :
    ∃ g, documentGraph .builtIn { rawMarkup := .text } [.custom "k"
        [.table [] [⟨true, [⟨none, 1, 1, [.codeBlock none ["a", ""], .html "<b/>"]⟩]⟩]] [.code "c", .text " d "]] =
          .ok g ∧
      g.root.type = .flowDocument ∧ ∀ p : Object, p.Within g.root → p.IsModelled {} := by
  have found : (documentGraph .builtIn { rawMarkup := .text } [.custom "k"
      [.table [] [⟨true, [⟨none, 1, 1, [.codeBlock none ["a", ""], .html "<b/>"]⟩]⟩]]
      [.code "c", .text " d "]]).isOk = true := by decide +kernel
  cases hg : documentGraph .builtIn { rawMarkup := .text } [.custom "k"
      [.table [] [⟨true, [⟨none, 1, 1, [.codeBlock none ["a", ""], .html "<b/>"]⟩]⟩]] [.code "c", .text " d "]] with
  | error e => rw [hg] at found; cases found
  | ok g => exact ⟨g, rfl, documentGraph_isModelled (by decide) hg⟩

end FlowDoc.Render
