import FlowDoc.Proofs.Render.Failure
import FlowDoc.Proofs.Render.Spelling
import FlowDoc.Proofs.Xaml.Tidy

/-!
# The markup of documents is well nested

No handler sets a member of an object twice, so in the translation of a document the attributes of each element have
distinct names (`areMembers_document`), and spelling its values changes no name (`isTidy_spelledObject`). With a key
class whose prefix is a name of its own the namespaces on the root are attributes as well, and whatever a document is
rendered to is a well nested document (**`documentMarkup_isDocument`**), be its texts and addresses what they may.
-/

namespace FlowDoc.Render

open Xaml
open Style (KeyClass)
open Text (AllChildren Flow Laid layout)
open Xml (isPlainName IsQualified AreAttributes)

/-! ## Members -/

/-- Tidy members, whose attributes have some of the names, each at most once and in order. -/
structure AreMembers (names : List String) (members : List MemberPhrase) : Prop where
  sublist : (attributeNames members).Sublist names
  tidy : MembersTidy members

section Members

variable {names names' : List String} {members members' : List MemberPhrase} {type : ElementType} {name : String}

theorem AreMembers.nil (names : List String) : AreMembers names [] := ⟨List.nil_sublist names, trivial⟩

theorem AreMembers.append (h : AreMembers names members) (h' : AreMembers names' members') :
    AreMembers (names ++ names') (members ++ members') := by
  refine ⟨?_, membersTidy_append.mpr ⟨h.tidy, h'.tidy⟩⟩
  rw [attributeNames, List.map_append]
  exact h.sublist.append h'.sublist

/-- An object with members of distinct names. -/
theorem AreMembers.isTidy (type : ElementType) (h : AreMembers names members) (nodup : names.Nodup)
    (free : "xml:space" ∉ names) : (ObjectPhrase.mk type members).IsTidy :=
  ⟨⟨h.sublist.nodup nodup, fun space => free (h.sublist.subset space)⟩, h.tidy⟩

theorem AreMembers.singleton {m : Member} (hm : m.attributeName = name ∧ m.isNamed = true) {collection : Bool}
    {items : List ItemPhrase} (hi : ItemsTidy items) : AreMembers [name] [.mk m collection items] := by
  obtain ⟨rfl, named⟩ := hm
  exact ⟨.refl _, ⟨named, hi⟩, trivial⟩

theorem itemsTidy_value (v : Scalar) : ItemsTidy [.value v] := ⟨trivial, trivial⟩

/-- An extension with one positional argument. -/
theorem isTidy_extension (type : ElementType) (v : Scalar) :
    (ObjectPhrase.mk type [.mk .positionalParameters false [.value v]]).IsTidy := by
  have argument : AreMembers ["x:_PositionalParameters"] [.mk .positionalParameters false [.value v]] :=
    .singleton (by decide) (itemsTidy_value v)
  exact argument.isTidy type (by decide) (by decide)

theorem areMembers_item {member? : Option Member}
    (h : ∀ m, member? = some m → m.attributeName = name ∧ m.isNamed = true) {i : ItemPhrase} (hi : i.IsTidy) :
    AreMembers [name] (itemMember member? i) := by
  cases member? with
  | none => exact .nil _
  | some m => exact .singleton (h m rfl) ⟨hi, trivial⟩

theorem areMembers_value (type : ElementType) (name : String) (v : Scalar) :
    AreMembers [name] (valueMember type name v) :=
  areMembers_item (fun _ found => member?_named found) (i := .value v) trivial

theorem areMembers_value? (type : ElementType) (name : String) : ∀ v : Option Scalar,
    AreMembers [name] (valueMember? type name v)
  | none => .nil _
  | some v => areMembers_value type name v

theorem areMembers_style (theme : Style.Theme) (type : ElementType) (r : Style.Role) :
    AreMembers ["Style"] (styleMember theme type r) := by
  have resource : (ItemPhrase.object (.mk .staticResourceExtension
      [.mk .positionalParameters false [.value (.resourceKey (theme.resolve r))]])).IsTidy :=
    isTidy_extension .staticResourceExtension _
  exact areMembers_item (fun _ found => member?_named found) resource

theorem areMembers_collect {m : Member} (hm : m.attributeName = name ∧ m.isNamed = true) {items : List ItemPhrase}
    (hi : ItemsTidy items) : AreMembers [name] (MemberPhrase.collect m items) := by
  cases items with
  | nil => exact .nil _
  | cons i is => exact .singleton hm hi

/-- The content of a type has the name of its content property. -/
theorem areMembers_content (h : type.content?.all (·.attributeName == name) = true) {items : List ItemPhrase}
    (hi : ItemsTidy items) : AreMembers [name] (contentMember type items) := by
  rw [contentMember]
  cases hc : type.content? with
  | none => exact .nil _
  | some m =>
    have same : m.attributeName = name := by simpa [hc] using h
    simpa using areMembers_collect ⟨same, content?_named hc⟩ hi

end Members

/-! ## Spelled phrases -/

section Spelled

variable {keys : KeyClass}

theorem isTidy_spelledValue (v : Scalar) : (spelledValue keys v).IsTidy := by
  cases v with
  | resourceKey key =>
    rw [spelledValue]
    split
    · exact isTidy_extension .staticExtension _
    · trivial
  | _ => trivial

theorem attributeNames_spelledMembers : ∀ ms : List MemberPhrase,
    attributeNames (spelledMembers keys ms) = attributeNames ms
  | [] => rfl
  | .mk _ _ _ :: ms => congrArg (_ :: ·) (attributeNames_spelledMembers ms)

mutual

/-- Spelling changes no name. -/
theorem isTidy_spelledObject : ∀ o : ObjectPhrase, o.IsTidy → (spelledObject keys o).IsTidy
  | .mk type members, h => by
    refine ⟨?_, membersTidy_spelledMembers members h.2⟩
    rw [attributeNames_spelledMembers]
    exact h.1

theorem membersTidy_spelledMembers : ∀ ms : List MemberPhrase, MembersTidy ms → MembersTidy (spelledMembers keys ms)
  | [], _ => trivial
  | .mk _ _ items :: ms, h => ⟨⟨h.1.1, itemsTidy_spelledItems items h.1.2⟩, membersTidy_spelledMembers ms h.2⟩

theorem itemsTidy_spelledItems : ∀ is : List ItemPhrase, ItemsTidy is → ItemsTidy (spelledItems keys is)
  | [], _ => trivial
  | .object o :: is, h => ⟨isTidy_spelledObject o h.1, itemsTidy_spelledItems is h.2⟩
  | .value v :: is, h => ⟨isTidy_spelledValue v, itemsTidy_spelledItems is h.2⟩

end

end Spelled

/-! ## Items -/

theorem itemsTidy_objectItems {objects : List ObjectPhrase} (h : ∀ o ∈ objects, o.IsTidy) :
    ItemsTidy (objectItems objects) := by
  refine itemsTidy_iff.mpr fun i hi => ?_
  obtain ⟨o, ho, rfl⟩ := List.mem_map.mp hi
  exact h o ho

theorem isTidy_lineBreak : (ObjectPhrase.mk .lineBreak []).IsTidy :=
  (AreMembers.nil []).isTidy .lineBreak (by decide) (by decide)

/-- A verbatim run. -/
theorem isTidy_run (s : String) : (ObjectPhrase.mk .run [.mk runText false [.value (.text s)]]).IsTidy :=
  (AreMembers.singleton (show runText.attributeName = "Text" ∧ runText.isNamed = true by decide)
    (itemsTidy_value _)).isTidy .run (by decide) (by decide)

theorem itemsTidy_runOf (s : String) : ItemsTidy (runOf s) := by
  rw [runOf]
  split
  · trivial
  · exact ⟨isTidy_run s, trivial⟩

/-- A flow whose children are tidy. -/
def FlowTidy (flow : List (Flow ObjectPhrase)) : Prop := ∀ o, Flow.child o ∈ flow → o.IsTidy

theorem flowTidy_nil : FlowTidy [] := AllChildren.nil

theorem FlowTidy.append {flow flow' : List (Flow ObjectPhrase)} (h : FlowTidy flow) (h' : FlowTidy flow') :
    FlowTidy (flow ++ flow') := AllChildren.append h h'

theorem flowTidy_text (s : String) : FlowTidy [.text s] := AllChildren.text s

theorem flowTidy_child {o : ObjectPhrase} (h : o.IsTidy) : FlowTidy [.child o] := AllChildren.child h

theorem itemsTidy_collapsedItems {flow : List (Flow ObjectPhrase)} (h : FlowTidy flow) :
    ItemsTidy (collapsedItems flow) := by
  refine itemsTidy_iff.mpr fun i hi => ?_
  obtain ⟨laid, hl, rfl⟩ := List.mem_map.mp hi
  cases laid with
  | piece p =>
    cases p with
    | value s => trivial
    | verbatim s => exact isTidy_run s
  | child o => exact h o (Text.child_mem_of_layout hl)

/-! ## Inlines -/

/-- An object of inlines with a style or without. -/
theorem isTidy_inlines (type : ElementType) (h : type.content?.all (·.attributeName == "Inlines") = true)
    {items : List ItemPhrase} (hi : ItemsTidy items) {style : List MemberPhrase} (hs : AreMembers ["Style"] style) :
    (ObjectPhrase.mk type (style ++ contentMember type items)).IsTidy :=
  (hs.append (areMembers_content h hi)).isTidy type (by decide) (by decide)

theorem isTidy_flow (type : ElementType) (h : type.content?.all (·.attributeName == "Inlines") = true)
    {flow : List (Flow ObjectPhrase)} (hf : FlowTidy flow) {style : List MemberPhrase}
    (hs : AreMembers ["Style"] style) :
    (ObjectPhrase.mk type (style ++ contentMember type (collapsedItems flow))).IsTidy :=
  isTidy_inlines type h (itemsTidy_collapsedItems hf) hs

theorem isTidy_plain (type : ElementType) (h : type.content?.all (·.attributeName == "Inlines") = true)
    {flow : List (Flow ObjectPhrase)} (hf : FlowTidy flow) :
    (ObjectPhrase.mk type (contentMember type (collapsedItems flow))).IsTidy :=
  (areMembers_content h (itemsTidy_collapsedItems hf)).isTidy type (by decide) (by decide)

theorem isTidy_linkObject (theme : Style.Theme) (target : String) (title : Option String)
    {flow : List (Flow ObjectPhrase)} (h : FlowTidy flow) :
    (linkObject theme target title (collapsedItems flow)).IsTidy := by
  have style := areMembers_style theme .hyperlink .hyperlink
  have uri := areMembers_value .hyperlink "NavigateUri" (.uri target)
  have tip := areMembers_value .hyperlink "ToolTip" (.text (title.getD target))
  have content : AreMembers ["Inlines"] (contentMember .hyperlink (collapsedItems flow)) :=
    areMembers_content (by decide) (itemsTidy_collapsedItems h)
  exact (((style.append uri).append tip).append content).isTidy .hyperlink (by decide) (by decide)

theorem isTidy_imageObject (theme : Style.Theme) (target : String) (title : Option String) :
    (imageObject theme target title).IsTidy := by
  have style := areMembers_style theme .image .image
  have source := areMembers_value .image "Source" (.uri target)
  refine ((style.append (?tip : AreMembers ["ToolTipService.ToolTip"] _)).append source).isTidy .image
    (by decide) (by decide)
  cases title with
  | none => exact .nil _
  | some title => exact .singleton (by decide) (itemsTidy_value _)

mutual

/-- **Inlines.** What an inline puts into its collection is tidy. -/
theorem flowTidy_inline (o : Options) : ∀ i : Inline, FlowTidy (flattenInline o i)
  | .text s => by
    rw [flattenInline]
    exact flowTidy_text s
  | .lineBreak hard => by
    rw [flattenInline]
    split
    · exact flowTidy_child isTidy_lineBreak
    · exact flowTidy_text " "
  | .code s => by
    rw [flattenInline]
    exact flowTidy_child (isTidy_inlines .span (by decide) (itemsTidy_runOf s) (areMembers_style _ _ _))
  | .emphasis delimiter count children => by
    have inner := flowTidy_inlines o children
    rw [flattenInline]
    cases ht : emphasisTarget delimiter count with
    | element type =>
      have content : type.content?.all (·.attributeName == "Inlines") = true := by
        rcases emphasisTarget_element ht with rfl | rfl <;> decide
      exact flowTidy_child (isTidy_plain type content inner)
    | styled role => exact flowTidy_child (isTidy_flow .span (by decide) inner (areMembers_style _ _ _))
    | unwrapped => exact inner
  | .delimiter literal children => by
    rw [flattenInline, ← List.singleton_append]
    exact (flowTidy_text literal).append (flowTidy_inlines o children)
  | .link url title isImage children => by
    rw [flattenInline]
    split
    · exact flowTidy_child (isTidy_imageObject _ _ _)
    · exact flowTidy_child (isTidy_linkObject _ _ _ (flowTidy_inlines o children))
  | .autolink url isEmail => by
    rw [flattenInline]
    exact flowTidy_child (isTidy_linkObject _ _ _ (flowTidy_text url))
  | .raw s => by
    rw [flattenInline]
    split
    · exact flowTidy_text s
    · exact flowTidy_nil
  | .task checked => by
    have members := (areMembers_style o.theme .span .taskList).append (areMembers_value .span "Tag" (.bool checked))
    rw [flattenInline]
    exact flowTidy_child (members.isTidy .span (by decide) (by decide))
  | .custom _ children => by
    rw [flattenInline]
    exact flowTidy_inlines o children

theorem flowTidy_inlines (o : Options) : ∀ is : List Inline, FlowTidy (flattenInlines o is)
  | [] => by
    rw [flattenInlines]
    exact flowTidy_nil
  | i :: is => by
    rw [flattenInlines]
    exact (flowTidy_inline o i).append (flowTidy_inlines o is)

end

/-! ## Blocks -/

theorem itemsTidy_codeItems (join : LineJoin) (lines : List String) : ItemsTidy (codeItems join lines) := by
  cases join with
  | newline => exact itemsTidy_runOf _
  | lineBreak =>
    cases lines with
    | nil => trivial
    | cons l ls =>
      have runs := fun l => itemsTidy_iff.mp (itemsTidy_runOf l)
      refine itemsTidy_iff.mpr fun i hi => ?_
      rcases List.mem_append.mp hi with hi | hi
      · exact runs l i hi
      · obtain ⟨k, -, hi⟩ := List.mem_flatMap.mp hi
        rcases List.mem_cons.mp hi with rfl | hi
        · exact isTidy_lineBreak
        · exact runs k i hi

/-- An object of objects, with further members. -/
theorem isTidy_objects (type : ElementType) (name : String) {names : List String} {members : List MemberPhrase}
    (hm : AreMembers names members) (hc : type.content?.all (·.attributeName == name) = true)
    {objects : List ObjectPhrase} (ho : ∀ p ∈ objects, p.IsTidy) (nodup : (names ++ [name]).Nodup)
    (free : "xml:space" ∉ names ++ [name]) :
    (ObjectPhrase.mk type (members ++ contentMember type (objectItems objects))).IsTidy :=
  (hm.append (areMembers_content hc (itemsTidy_objectItems ho))).isTidy type nodup free

theorem areMembers_markers (ordered : Bool) (start : Option Nat) :
    AreMembers ["MarkerStyle", "StartIndex"] (markerMembers ordered start) := by
  cases ordered with
  | true => exact (areMembers_value .list _ _).append (areMembers_value? .list _ _)
  | false =>
    have marker := (areMembers_value .list "MarkerStyle" (.marker .disc)).append (.nil ["StartIndex"])
    simpa [markerMembers] using marker

theorem isTidy_columnObject (c : Column) : (columnObject c).IsTidy :=
  (areMembers_value .tableColumn "Width" _).isTidy .tableColumn (by decide) (by decide)

theorem areMembers_columns (columns : List Column) : AreMembers ["Columns"] (columnMember columns) := by
  have tidy : ItemsTidy (objectItems (columns.map columnObject)) := by
    refine itemsTidy_objectItems fun o ho => ?_
    obtain ⟨c, -, rfl⟩ := List.mem_map.mp ho
    exact isTidy_columnObject c
  rw [columnMember]
  cases hm : ElementType.member? .table "Columns" with
  | none => exact .nil _
  | some m => simpa using areMembers_collect (member?_named hm) tidy

theorem areTidy_wrappedInlines (o : Options) (inlines : List Inline) : ∀ p ∈ wrappedInlines o inlines, p.IsTidy := by
  cases inlines with
  | nil => exact List.forall_mem_nil _
  | cons i is =>
    intro p hp
    obtain rfl := List.mem_singleton.mp hp
    exact isTidy_plain .paragraph (by decide) (flowTidy_inlines o _)

mutual

/-- **Blocks.** The objects of a block are tidy. -/
theorem areTidy_block (o : Options) : ∀ b : Block, ∀ p ∈ translateBlock o b, p.IsTidy
  | .paragraph inlines => by
    rw [translateBlock, List.forall_mem_singleton]
    exact isTidy_plain .paragraph (by decide) (flowTidy_inlines o inlines)
  | .heading level inlines => by
    rw [translateBlock, List.forall_mem_singleton]
    exact isTidy_flow .paragraph (by decide) (flowTidy_inlines o inlines) (areMembers_style _ _ _)
  | .codeBlock _ lines => by
    rw [translateBlock, List.forall_mem_singleton]
    exact isTidy_inlines .paragraph (by decide) (itemsTidy_codeItems o.lineJoin lines) (areMembers_style _ _ _)
  | .list ordered start items => by
    rw [translateBlock, List.forall_mem_singleton]
    exact isTidy_objects .list "ListItems" (areMembers_markers ordered start) (by decide) (areTidy_items o items)
      (by decide) (by decide)
  | .quote blocks => by
    rw [translateBlock, List.forall_mem_singleton]
    exact isTidy_objects .sectionElement "Blocks" (areMembers_style _ _ _) (by decide) (areTidy_blocks o blocks)
      (by decide) (by decide)
  | .thematicBreak => by
    rw [translateBlock, List.forall_mem_singleton]
    exact (areMembers_style _ _ _).isTidy .paragraph (by decide) (by decide)
  | .table columns rows => by
    have group := isTidy_objects .tableRowGroup "Rows" (.nil []) (by decide) (areTidy_rows o columns rows)
      (by decide) (by decide)
    have members := (areMembers_style o.theme .table .table).append (areMembers_columns columns)
    rw [translateBlock, List.forall_mem_singleton]
    exact isTidy_objects .table "RowGroups" members (by decide) (List.forall_mem_singleton.mpr group)
      (by decide) (by decide)
  | .html literal => by
    rw [translateBlock]
    split
    · rw [List.forall_mem_singleton]
      exact isTidy_plain .paragraph (by decide) (flowTidy_text literal)
    · exact List.forall_mem_nil _
  | .custom _ blocks inlines => by
    rw [translateBlock, List.forall_mem_append]
    exact ⟨areTidy_blocks o blocks, areTidy_wrappedInlines o inlines⟩

theorem areTidy_blocks (o : Options) : ∀ bs : List Block, ∀ p ∈ translateBlocks o bs, p.IsTidy
  | [] => by
    rw [translateBlocks]
    exact List.forall_mem_nil _
  | b :: bs => by
    rw [translateBlocks, List.forall_mem_append]
    exact ⟨areTidy_block o b, areTidy_blocks o bs⟩

theorem areTidy_items (o : Options) : ∀ items : List (List Block), ∀ p ∈ translateItems o items, p.IsTidy
  | [] => by
    rw [translateItems]
    exact List.forall_mem_nil _
  | i :: is => by
    rw [translateItems, List.forall_mem_cons]
    exact ⟨isTidy_objects .listItem "Blocks" (.nil []) (by decide) (areTidy_blocks o i) (by decide) (by decide),
      areTidy_items o is⟩

theorem areTidy_rows (o : Options) (columns : List Column) :
    ∀ rows : List (Row Block), ∀ p ∈ translateRows o columns rows, p.IsTidy
  | [] => by
    rw [translateRows]
    exact List.forall_mem_nil _
  | r :: rs => by
    rw [translateRows, List.forall_mem_cons]
    exact ⟨isTidy_row o columns r, areTidy_rows o columns rs⟩

theorem isTidy_row (o : Options) (columns : List Column) : ∀ r : Row Block, (translateRow o columns r).IsTidy
  | ⟨isHeader, cells⟩ => by
    have style : AreMembers ["Style"] (if isHeader then styleMember o.theme .tableRow .tableHeader else []) := by
      split
      · exact areMembers_style _ _ _
      · exact .nil _
    rw [translateRow]
    exact isTidy_objects .tableRow "Cells" style (by decide) (areTidy_cells o columns 0 cells) (by decide) (by decide)

theorem areTidy_cells (o : Options) (columns : List Column) (position : Nat) :
    ∀ cells : List (Cell Block), ∀ p ∈ translateCells o columns position cells, p.IsTidy
  | [] => by
    rw [translateCells]
    exact List.forall_mem_nil _
  | c :: cs => by
    rw [translateCells, List.forall_mem_cons]
    exact ⟨isTidy_cell o columns position c, areTidy_cells o columns (position + 1) cs⟩

theorem isTidy_cell (o : Options) (columns : List Column) (position : Nat) :
    ∀ c : Cell Block, (translateCell o columns position c).IsTidy
  | ⟨column, columnSpan, rowSpan, blocks⟩ => by
    have members := (((areMembers_style o.theme .tableCell .tableCell).append
      (areMembers_value? .tableCell "ColumnSpan" (spanValue columnSpan))).append
      (areMembers_value? .tableCell "RowSpan" (spanValue rowSpan))).append
      (areMembers_value? .tableCell "TextAlignment" ((cellAlignment columns column position).map Scalar.alignment))
    rw [translateCell]
    exact isTidy_objects .tableCell "Blocks" members (by decide) (areTidy_blocks o blocks) (by decide) (by decide)

end

/-! ## Documents -/

theorem areMembers_document (o : Options) (d : Document) : AreMembers ["Style", "Blocks"]
    (styleMember o.theme .flowDocument .document ++
      contentMember .flowDocument (objectItems (translateBlocks o d))) :=
  (areMembers_style _ _ _).append (areMembers_content (by decide) (itemsTidy_objectItems (areTidy_blocks o d)))

/-- A prefix is declared under a name of its own, which names no member. -/
theorem isQualified_declaration {pre : String} (hp : isPlainName pre = true) (hx : pre ≠ "x") :
    IsQualified ("xmlns:" ++ pre) ∧
      "xmlns:" ++ pre ∉ ["xmlns", "xmlns:x", "xml:space", "Style", "Blocks"] := by
  refine ⟨IsQualified.prefixed (show isPlainName "xmlns" = true by decide) hp, ?_⟩
  have other : "xmlns:" ++ pre ≠ "xmlns:x" := fun same => hx (by
    have chars := congrArg String.toList same
    exact String.toList_inj.mp (by simpa using chars))
  simp only [List.mem_cons, List.not_mem_nil, or_false, not_or]
  refine ⟨?_, other, ?_, ?_, ?_⟩ <;>
    · intro same
      have chars := congrArg String.toList same
      simp at chars

theorem attributes_namespaces {o : Options} (hp : isPlainName o.theme.keyClass.pre = true) :
    (documentNamespaces o).map NamespaceDecl.attribute = [("xmlns", presentationNamespace),
      ("xmlns:x", languageNamespace), ("xmlns:" ++ o.theme.keyClass.pre, o.theme.keyClass.namespaceUri)] := by
  have nonempty : o.theme.keyClass.pre.isEmpty = false := by
    cases he : o.theme.keyClass.pre.isEmpty with
    | false => rfl
    | true =>
      rw [String.isEmpty_iff.mp he] at hp
      exact absurd hp (by decide)
  simp [documentNamespaces, NamespaceDecl.attribute, nonempty]

/-- **Namespaces.** Those on the root are attributes, and none has the name of another attribute. -/
theorem areAttributes_namespaces {o : Options} (hp : isPlainName o.theme.keyClass.pre = true)
    (hx : o.theme.keyClass.pre ≠ "x") :
    AreAttributes ((documentNamespaces o).map NamespaceDecl.attribute) ∧
      ∀ a ∈ (documentNamespaces o).map NamespaceDecl.attribute,
        a.1 ≠ "xml:space" ∧ a.1 ∉ ["Style", "Blocks"] := by
  obtain ⟨qualified, apart⟩ := isQualified_declaration hp hx
  have xmlns : IsQualified "xmlns" := .plain (by decide)
  have language : IsQualified "xmlns:x" :=
    IsQualified.prefixed (show isPlainName "xmlns" = true by decide) (show isPlainName "x" = true by decide)
  simp only [List.mem_cons, List.not_mem_nil, or_false, not_or] at apart
  obtain ⟨other, apartLanguage, apartSpace, apartStyle, apartBlocks⟩ := apart
  rw [attributes_namespaces hp]
  refine ⟨⟨?_, ?_⟩, ?_⟩
  · simp [xmlns, language, qualified]
  · simp [Ne.symm other, Ne.symm apartLanguage]
  · simp [apartSpace, apartStyle, apartBlocks]

theorem havePrefixes_documentNamespaces {o : Options} (hp : isPlainName o.theme.keyClass.pre = true) :
    HavePrefixes (documentNamespaces o) := by
  intro ns hns
  simp only [documentNamespaces, List.mem_cons, List.not_mem_nil, or_false] at hns
  rcases hns with rfl | rfl | rfl
  · exact .inl rfl
  · exact .inr (by decide)
  · exact .inr hp

theorem isTidy_spelledDocument (o : Options) (d : Document) :
    (spelledObject o.theme.keyClass (translateDocument o d)).IsTidy :=
  isTidy_spelledObject _ ((areMembers_document o d).isTidy .flowDocument (by decide) (by decide))

/-- The markup of the spelled translation. -/
theorem isDocument_spelledTranslation {o : Options} (hp : isPlainName o.theme.keyClass.pre = true)
    (hx : o.theme.keyClass.pre ≠ "x") (indent : Nat) (d : Document) :
    Xml.IsDocument ((spelledTranslation o d).markup indent) := by
  obtain ⟨declared, apart⟩ := areAttributes_namespaces hp hx
  have tidy := isTidy_element (havePrefixes_documentNamespaces hp) _ _ (isTidy_spelledDocument o d) declared fun a ha =>
    ⟨(apart a ha).1, fun type ms same own => (apart a ha).2 (by
      -- the root has the members of the document, spelled
      rw [translateDocument, spelledObject] at same
      cases same
      rw [attributeNames_spelledMembers] at own
      exact (areMembers_document o d).sublist.subset own)⟩
  exact Xml.isDocument_print indent tidy

/-- **Markup is well nested.** With the built-in handlers and without replay, and with a key class whose prefix is a
name other than that of the language, any document is rendered to one well nested element, at any indentation, unless
it has a fault. -/
theorem documentMarkup_isDocument {o : Options} (ho : o.rawMarkup ≠ .replay)
    (hp : isPlainName o.theme.keyClass.pre = true) (hx : o.theme.keyClass.pre ≠ "x") (indent : Nat) (d : Document) :
    (∃ markup, documentMarkup .builtIn o indent d = .ok markup ∧ Xml.IsDocument markup) ∨
      ∃ e, documentMarkup .builtIn o indent d = .error e ∧ documentFault .text d = some e := by
  cases h : documentMarkup .builtIn o indent d with
  | ok markup =>
    have nested := isDocument_spelledTranslation hp hx indent d
    rw [← documentMarkup_eq ho h] at nested
    exact .inl ⟨markup, rfl, nested⟩
  | error e =>
    have failed := (documentMarkup_error_iff areBuiltIn_builtIn).mp h
    exact .inr ⟨e, rfl, (documentSignals_error_iff ho .text d e).mp failed⟩

/-- Brackets, quotes and ampersands in a text, an address and a title. -/
theorem documentMarkup_isDocument_link :
    ∃ markup, documentMarkup .builtIn {} 2
        [.heading 1 [.text "a]]>&", .link "b?c=\"&d" (some "<e>\n") false [.code "'f'"]]] = .ok markup ∧
      Xml.IsDocument markup := by
  have faultless : documentFault .text
      [.heading 1 [.text "a]]>&", .link "b?c=\"&d" (some "<e>\n") false [.code "'f'"]]] = none := by decide
  refine (documentMarkup_isDocument (by decide) (by decide) (by decide) 2 _).resolve_right ?_
  rintro ⟨e, -, fault⟩
  cases faultless.symm.trans fault

end FlowDoc.Render
