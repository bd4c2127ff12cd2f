import FlowDoc.Proofs.Render.ContentModel
import FlowDoc.Proofs.Render.Nesting
import FlowDoc.Proofs.Xaml.Space

/-!
# White space in the markup of documents

Text of a document is collapsed where it is put into a collection: single spaces are left in it, and none at the ends of
the collection, so there is nothing in a collapsed flow that normalisation would change (`areSpaced_collapsedItems`).
Only code is kept as it is, in runs of its own. So in the markup of a document only runs ask for their white space to be
kept, they do so exactly where they need it, and wherever an element does not ask for it, normalisation changes nothing
(**`space_kept_where_needed`**).
-/

namespace FlowDoc.Render

open Xaml
open Style (KeyClass)
open Text (AllChildren Flow Laid layoutFrom gapText squeeze spaced trimLeft trimRight isSpace isMarkupSpace)

/-! ## Collapsed text -/

theorem hasRun_append {as bs : List Char} (h : hasRun (as ++ bs) = false) : hasRun as = false ∧ hasRun bs = false := by
  induction as with
  | nil => exact ⟨rfl, h⟩
  | cons a as ih =>
    simp only [List.cons_append, hasRun, Bool.or_eq_false_iff, Bool.and_eq_false_iff] at h ⊢
    obtain ⟨⟨breaks, double⟩, rest⟩ := h
    refine ⟨⟨⟨breaks, double.imp_right fun apart => ?_⟩, (ih rest).1⟩, (ih rest).2⟩
    cases as with
    | nil => rfl
    | cons b bs => exact apart

theorem hasRun_cons_of_not {c : Char} (h : isSpace c = false) (cs : List Char) : hasRun (c :: cs) = hasRun cs := by
  have other : ∀ d, isSpace d = true → (c == d) = false := by
    intro d hd
    refine beq_eq_false_iff_ne.mpr fun same => ?_
    rw [same, hd] at h
    cases h
  simp [hasRun, other '\n' (by decide), other '\r' (by decide), other '\t' (by decide), other ' ' (by decide)]

/-- Squeezed text has single spaces only. -/
theorem hasRun_squeeze (cs : List Char) : hasRun (squeeze cs) = false := by
  induction cs with
  | nil => rfl
  | cons c cs ih =>
    cases hc : isSpace c with
    | false => rw [Text.squeeze_cons_of_not hc, hasRun_cons_of_not hc, ih]
    | true =>
      rw [Text.squeeze_cons_of_isSpace hc, spaced]
      split
      · exact ih
      · next apart => simp [hasRun, ih, apart]

theorem hasRun_trimLeft {cs : List Char} (h : hasRun cs = false) : hasRun (trimLeft isSpace cs) = false := by
  rw [← List.takeWhile_append_dropWhile (p := isSpace) (l := cs)] at h
  exact (hasRun_append h).2

theorem trimRight_isPrefix (cs : List Char) : trimRight isSpace cs <+: cs := by
  rw [← List.reverse_suffix, trimRight, List.reverse_reverse]
  exact List.dropWhile_suffix isSpace

theorem hasRun_trimRight {cs : List Char} (h : hasRun cs = false) : hasRun (trimRight isSpace cs) = false := by
  obtain ⟨rest, split⟩ := trimRight_isPrefix cs
  rw [← split] at h
  exact (hasRun_append h).1

theorem isSpace_head_trimLeft (cs : List Char) : ∀ c ∈ (trimLeft isSpace cs).head?, isSpace c = false := by
  intro c hc
  have := List.head?_dropWhile_not isSpace cs
  rw [trimLeft] at hc
  rw [Option.mem_def.mp hc] at this
  simpa using this

theorem isSpace_last_trimRight (cs : List Char) : ∀ c ∈ (trimRight isSpace cs).getLast?, isSpace c = false := by
  intro c hc
  rw [trimRight, List.getLast?_reverse] at hc
  exact isSpace_head_trimLeft cs.reverse c hc

theorem head_of_isPrefix {α : Type} {as bs : List α} (h : as <+: bs) {a : α} (ha : a ∈ as.head?) : a ∈ bs.head? := by
  obtain ⟨cs, rfl⟩ := h
  cases as with
  | nil => cases ha
  | cons b bs => exact ha

/-- The text of a gap that collapses has no runs of white space, and none at an end of the collection. -/
theorem gapText_spaced (first last : Bool) (s : String) :
    hasRun (gapText .collapse first last s).toList = false ∧
      (first = true → startsBlank (gapText .collapse first last s) = false) ∧
      (last = true → endsBlank (gapText .collapse first last s) = false) := by
  have start : hasRun (if first then trimLeft isSpace (squeeze s.toList) else squeeze s.toList) = false := by
    split
    · exact hasRun_trimLeft (hasRun_squeeze _)
    · exact hasRun_squeeze _
  simp only [gapText, startsBlank, endsBlank, String.toList_ofList, Option.any_eq_false]
  refine ⟨?_, ?_, ?_⟩
  · split
    · exact hasRun_trimRight start
    · exact start
  · rintro rfl c hc
    refine isSpace_head_trimLeft (squeeze s.toList) c ?_
    split at hc
    · exact head_of_isPrefix (trimRight_isPrefix _) hc
    · exact hc
  · rintro rfl c hc
    exact isSpace_last_trimRight _ c hc

/-- A collapsed gap before the rest of a collection. -/
theorem needsPreserve_gap (first last : Bool) (s : String) (rest : List ItemPhrase) (atEnd : rest = [] → last = true)
    (h : ∀ first, needsPreserveFrom first (itemsNodes rest) = false) :
    needsPreserveFrom first
      (itemsNodes ((Text.laidPieces (Text.gapPiece .collapse first last s)).map .ofLaid ++ rest)) = false := by
  obtain ⟨run, start, ending⟩ := gapText_spaced first last s
  rw [Text.gapPiece, Text.pieceOf]
  split
  · exact h first
  · have value : itemsNodes ((Text.laidPieces (some (Text.Piece.value (gapText .collapse first last s)))).map .ofLaid ++
        rest) = .value (.text (gapText .collapse first last s)) :: itemsNodes rest := rfl
    rw [value, needsPreserveFrom, Scalar.display, run, h false]
    cases rest with
    | nil => cases first <;> simp_all [itemsNodes]
    | cons i is => cases first <;> simp_all [itemsNodes]

/-- **Collapsed flows.** There is nothing to be preserved in what a flow is laid out as. -/
theorem needsPreserve_layoutFrom : ∀ (flow : List (Flow ObjectPhrase)) (first : Bool) (gap : String),
    needsPreserveFrom first (itemsNodes ((layoutFrom .collapse first gap flow).map .ofLaid)) = false
  | [], first, gap => by
    have last := needsPreserve_gap first true gap [] (fun _ => rfl) fun _ => rfl
    rwa [List.append_nil] at last
  | .text s :: flow, first, gap => needsPreserve_layoutFrom flow first (gap ++ s)
  | .child c :: flow, first, gap => by
    rw [layoutFrom, List.map_append]
    exact needsPreserve_gap first false gap _ (fun h => absurd h (List.cons_ne_nil _ _)) fun _ =>
      needsPreserve_layoutFrom flow false ""

theorem areSpaced_collapsedItems (flow : List (Flow ObjectPhrase)) : AreSpaced (collapsedItems flow) where
  texts v hv := by
    obtain ⟨laid, hl, same⟩ := List.mem_map.mp hv
    rcases laid with (s | s) | o
    · cases same
      exact ⟨s, rfl⟩
    · cases same
    · cases same
  spaced := needsPreserve_layoutFrom flow true ""

/-- Without values there is nothing to be preserved. -/
theorem areSpaced_objects {items : List ItemPhrase} (h : ∀ i ∈ items, i.isValue = false) : AreSpaced items where
  texts v hv := absurd (h _ hv) (by simp [ItemPhrase.isValue])
  spaced := by
    have from_ : ∀ first, needsPreserveFrom first (itemsNodes items) = false := by
      induction items with
      | nil => exact fun _ => rfl
      | cons i is ih =>
        obtain ⟨first, rest⟩ := List.forall_mem_cons.mp h
        cases i with
        | object o => exact fun _ => ih rest false
        | value v => cases first
    exact from_ true

/-! ## Spelled phrases -/

section Spelled

variable {keys : KeyClass}

/-- Spelling texts changes nothing of what is to be preserved. -/
theorem needsPreserve_spelledItems : ∀ (items : List ItemPhrase) (first : Bool),
    (∀ v, .value v ∈ items → ∃ s, v = .text s) →
      needsPreserveFrom first (itemsNodes (spelledItems keys items)) = needsPreserveFrom first (itemsNodes items)
  | [], _, _ => rfl
  | .object o :: is, first, texts =>
    needsPreserve_spelledItems is false fun v hv => texts v (List.mem_cons_of_mem _ hv)
  | .value v :: is, first, texts => by
    obtain ⟨s, rfl⟩ := texts v List.mem_cons_self
    have rest := needsPreserve_spelledItems is false fun v hv => texts v (List.mem_cons_of_mem _ hv)
    have empty : (itemsNodes (spelledItems keys is)).isEmpty = (itemsNodes is).isEmpty := by cases is <;> rfl
    have same : spelledItem keys (.value (.text s)) = .value (.text s) := rfl
    simp only [spelledItems, same, itemsNodes, ItemPhrase.node, needsPreserveFrom, rest, empty]

theorem areSpaced_spelledItems {items : List ItemPhrase} (h : AreSpaced items) :
    AreSpaced (spelledItems keys items) where
  texts v hv := by
    obtain ⟨texts, -⟩ := h
    induction items with
    | nil => cases hv
    | cons i is ih =>
      have later := fun v hv => texts v (List.mem_cons_of_mem _ hv)
      rcases List.mem_cons.mp hv with here | hv
      · cases i with
        | object o => cases here
        | value w =>
          obtain ⟨s, rfl⟩ := texts w List.mem_cons_self
          cases here
          exact ⟨s, rfl⟩
      · exact ih hv later
  spaced := (needsPreserve_spelledItems _ _ h.texts).trans h.spaced

/-- An extension with one argument has no content. -/
theorem isLoose_extension {type : ElementType} (v : Scalar)
    (h : Builder.isContentOf .positionalParameters type = false := by decide) :
    (ObjectPhrase.mk type [.mk .positionalParameters false [.value v]]).IsLoose :=
  ⟨⟨fun _ content => absurd content (by simp [h]), trivial, trivial⟩, trivial⟩

mutual

/-- Spelling adds no content to be preserved. -/
theorem isLoose_spelledObject : ∀ o : ObjectPhrase, o.IsLoose → (spelledObject keys o).IsLoose
  | .mk _ members, h => membersLoose_spelledMembers members h

theorem membersLoose_spelledMembers {type : ElementType} : ∀ ms : List MemberPhrase, MembersLoose type ms →
    MembersLoose type (spelledMembers keys ms)
  | [], _ => trivial
  | .mk _ _ items :: ms, h =>
    ⟨⟨fun noRun content => areSpaced_spelledItems (h.1.1 noRun content), itemsLoose_spelledItems items h.1.2⟩,
      membersLoose_spelledMembers ms h.2⟩

theorem itemsLoose_spelledItems : ∀ is : List ItemPhrase, ItemsLoose is → ItemsLoose (spelledItems keys is)
  | [], _ => trivial
  | .object o :: is, h => ⟨isLoose_spelledObject o h.1, itemsLoose_spelledItems is h.2⟩
  | .value v :: is, h => by
    refine ⟨?_, itemsLoose_spelledItems is h.2⟩
    cases v with
    | resourceKey key =>
      rw [spelledItem, spelledValue]
      split
      · exact isLoose_extension _
      · trivial
    | _ => trivial

end

end Spelled

/-! ## Members -/

section Members

variable {type : ElementType} {members : List MemberPhrase}

/-- A member by a name other than that of the content. -/
theorem isContentOf_eq_false {m : Member} (h : type.content?.all (·.name != m.name) = true) :
    Builder.isContentOf m type = false := by
  rw [Builder.isContentOf]
  cases found : type.content? with
  | none => simp
  | some content =>
    rw [found] at h
    simp_all

theorem membersLoose_item {member? : Option Member}
    (h : ∀ m ∈ member?, type.content?.all (·.name != m.name) = true) {i : ItemPhrase} (hi : i.IsLoose) :
    MembersLoose type (itemMember member? i) := by
  cases member? with
  | none => trivial
  | some m => exact ⟨⟨fun _ content => absurd content (by simp [isContentOf_eq_false (h m rfl)]), hi, trivial⟩, trivial⟩

theorem membersLoose_value (name : String) (v : Scalar)
    (h : type.content?.all (·.name != name) = true := by decide) : MembersLoose type (valueMember type name v) :=
  membersLoose_item (fun _ found => by rwa [member?_name found]) (i := .value v) trivial

theorem membersLoose_value? (name : String) (v : Option Scalar)
    (h : type.content?.all (·.name != name) = true := by decide) : MembersLoose type (valueMember? type name v) := by
  cases v with
  | none => trivial
  | some v => exact membersLoose_value name v h

theorem membersLoose_style (theme : Style.Theme) (r : Style.Role)
    (h : type.content?.all (·.name != "Style") = true := by decide) :
    MembersLoose type (styleMember theme type r) :=
  membersLoose_item (fun _ found => by rwa [member?_name found])
    (i := .object (.mk .staticResourceExtension _)) (isLoose_extension _)

theorem membersLoose_collect {m : Member} {items : List ItemPhrase} (hs : AreSpaced items) (hi : ItemsLoose items) :
    MembersLoose type (MemberPhrase.collect m items) := by
  cases items with
  | nil => trivial
  | cons i is => exact ⟨⟨fun _ _ => hs, hi⟩, trivial⟩

theorem membersLoose_content {items : List ItemPhrase} (hs : AreSpaced items) (hi : ItemsLoose items) :
    MembersLoose type (contentMember type items) := by
  rw [contentMember]
  cases type.content? with
  | none => trivial
  | some m => simpa using membersLoose_collect hs hi

/-- A flow whose children are loose. -/
def FlowLoose (flow : List (Flow ObjectPhrase)) : Prop := AllChildren ObjectPhrase.IsLoose flow

/-- Objects with inlines. -/
theorem isLoose_flow {flow : List (Flow ObjectPhrase)} (hm : MembersLoose type members) (hf : FlowLoose flow) :
    (ObjectPhrase.mk type (members ++ contentMember type (collapsedItems flow))).IsLoose := by
  refine membersLoose_append.mpr ⟨hm, membersLoose_content (areSpaced_collapsedItems flow) ?_⟩
  refine itemsLoose_iff.mpr fun i hi => ?_
  obtain ⟨laid, hl, rfl⟩ := List.mem_map.mp hi
  rcases laid with (s | s) | o
  · trivial
  · exact absurd hl (Text.verbatim_not_mem_layout s flow)
  · exact hf o (Text.child_mem_of_layout hl)

theorem isLoose_plain {flow : List (Flow ObjectPhrase)} (hf : FlowLoose flow) :
    (ObjectPhrase.mk type (contentMember type (collapsedItems flow))).IsLoose :=
  @isLoose_flow type [] flow trivial hf

/-- Objects with objects alone. -/
theorem isLoose_items {items : List ItemPhrase} (hm : MembersLoose type members)
    (hi : ∀ i ∈ items, i.isValue = false ∧ i.IsLoose) :
    (ObjectPhrase.mk type (members ++ contentMember type items)).IsLoose :=
  membersLoose_append.mpr ⟨hm, membersLoose_content (areSpaced_objects fun i h => (hi i h).1)
    (itemsLoose_iff.mpr fun i h => (hi i h).2)⟩

theorem isLoose_objects {objects : List ObjectPhrase} (hm : MembersLoose type members)
    (ho : ∀ o ∈ objects, o.IsLoose) :
    (ObjectPhrase.mk type (members ++ contentMember type (objectItems objects))).IsLoose := by
  refine isLoose_items hm fun i hi => ?_
  obtain ⟨o, h, rfl⟩ := List.mem_map.mp hi
  exact ⟨rfl, ho o h⟩

theorem isLoose_children {objects : List ObjectPhrase} (ho : ∀ o ∈ objects, o.IsLoose) :
    (ObjectPhrase.mk type (contentMember type (objectItems objects))).IsLoose :=
  @isLoose_objects type [] objects trivial ho

end Members

/-! ## Inlines -/

theorem isLoose_run (s : String) : (ObjectPhrase.mk .run [.mk runText false [.value (.text s)]]).IsLoose :=
  ⟨⟨fun noRun => absurd rfl noRun, trivial, trivial⟩, trivial⟩

theorem loose_of_mem_runOf {s : String} : ∀ i ∈ runOf s, i.isValue = false ∧ i.IsLoose := by
  rw [runOf]
  split
  · exact List.forall_mem_nil _
  · exact List.forall_mem_singleton.mpr ⟨rfl, isLoose_run s⟩

theorem isLoose_lineBreak : (ObjectPhrase.mk .lineBreak []).IsLoose := trivial

theorem isLoose_linkObject (theme : Style.Theme) (target : String) (title : Option String)
    {flow : List (Flow ObjectPhrase)} (h : FlowLoose flow) :
    (linkObject theme target title (collapsedItems flow)).IsLoose :=
  isLoose_flow (membersLoose_append.mpr ⟨membersLoose_append.mpr
    ⟨membersLoose_style theme .hyperlink, membersLoose_value "NavigateUri" (.uri target)⟩,
    membersLoose_value "ToolTip" (.text (title.getD target))⟩) h

theorem isLoose_imageObject (theme : Style.Theme) (target : String) (title : Option String) :
    (imageObject theme target title).IsLoose := by
  refine membersLoose_append.mpr ⟨membersLoose_append.mpr ⟨membersLoose_style theme .image, ?_⟩,
    membersLoose_value "Source" (.uri target)⟩
  cases title with
  | none => trivial
  | some title => exact membersLoose_item (by decide) (i := .value _) trivial

mutual

/-- **Inlines.** Only code puts white space to be preserved into a collection, in runs of its own. -/
theorem flowLoose_inline (o : Options) : ∀ i : Inline, FlowLoose (flattenInline o i)
  | .text s => by
    rw [flattenInline]
    exact AllChildren.text s
  | .lineBreak hard => by
    rw [flattenInline]
    split
    · exact AllChildren.child isLoose_lineBreak
    · exact AllChildren.text " "
  | .code s => by
    rw [flattenInline]
    exact AllChildren.child (isLoose_items (membersLoose_style o.theme .code) loose_of_mem_runOf)
  | .emphasis delimiter count children => by
    have inner := flowLoose_inlines o children
    rw [flattenInline]
    cases emphasisTarget delimiter count with
    | element type => exact AllChildren.child (isLoose_plain inner)
    | styled role => exact AllChildren.child (isLoose_flow (membersLoose_style o.theme role) inner)
    | unwrapped => exact inner
  | .delimiter literal children => by
    rw [flattenInline, ← List.singleton_append]
    exact AllChildren.append (.text literal) (flowLoose_inlines o children)
  | .link url title isImage children => by
    rw [flattenInline]
    split
    · exact AllChildren.child (isLoose_imageObject _ _ _)
    · exact AllChildren.child (isLoose_linkObject _ _ _ (flowLoose_inlines o children))
  | .autolink url isEmail => by
    rw [flattenInline]
    exact AllChildren.child (isLoose_linkObject _ _ _ (.text url))
  | .raw s => by
    rw [flattenInline]
    split
    · exact AllChildren.text s
    · exact AllChildren.nil
  | .task checked => by
    rw [flattenInline]
    exact AllChildren.child (membersLoose_append.mpr
      ⟨membersLoose_style o.theme .taskList, membersLoose_value "Tag" (.bool checked)⟩)
  | .custom _ children => by
    rw [flattenInline]
    exact flowLoose_inlines o children

theorem flowLoose_inlines (o : Options) : ∀ is : List Inline, FlowLoose (flattenInlines o is)
  | [] => by
    rw [flattenInlines]
    exact AllChildren.nil
  | i :: is => by
    rw [flattenInlines]
    exact AllChildren.append (flowLoose_inline o i) (flowLoose_inlines o is)

end

/-! ## Blocks -/

theorem loose_of_mem_codeItems (join : LineJoin) (lines : List String) :
    ∀ i ∈ codeItems join lines, i.isValue = false ∧ i.IsLoose := by
  cases join with
  | newline => exact loose_of_mem_runOf
  | lineBreak =>
    cases lines with
    | nil => exact List.forall_mem_nil _
    | cons l ls =>
      refine List.forall_mem_append.mpr ⟨loose_of_mem_runOf, fun i hi => ?_⟩
      obtain ⟨k, -, hi⟩ := List.mem_flatMap.mp hi
      exact List.forall_mem_cons.mpr ⟨⟨rfl, isLoose_lineBreak⟩, loose_of_mem_runOf⟩ i hi

theorem membersLoose_markers (ordered : Bool) (start : Option Nat) :
    MembersLoose .list (markerMembers ordered start) := by
  cases ordered with
  | true => exact membersLoose_append.mpr ⟨membersLoose_value "MarkerStyle" _, membersLoose_value? "StartIndex" _⟩
  | false => exact membersLoose_value "MarkerStyle" _

theorem isLoose_columnObject (c : Column) : (columnObject c).IsLoose := membersLoose_value "Width" _

theorem membersLoose_columns (columns : List Column) : MembersLoose .table (columnMember columns) := by
  have objects : ∀ i ∈ objectItems (columns.map columnObject), i.isValue = false ∧ i.IsLoose := by
    intro i hi
    obtain ⟨o, ho, rfl⟩ := List.mem_map.mp hi
    obtain ⟨c, -, rfl⟩ := List.mem_map.mp ho
    exact ⟨rfl, isLoose_columnObject c⟩
  rw [columnMember]
  cases ElementType.member? .table "Columns" with
  | none => trivial
  | some m =>
    simpa using membersLoose_collect (areSpaced_objects fun i h => (objects i h).1)
      (itemsLoose_iff.mpr fun i h => (objects i h).2)

/-- A paragraph of a flow, as the only object of its block. -/
theorem loose_paragraph {flow : List (Flow ObjectPhrase)} (h : FlowLoose flow) :
    ∀ p ∈ [ObjectPhrase.mk .paragraph (contentMember .paragraph (collapsedItems flow))], p.IsLoose :=
  List.forall_mem_singleton.mpr (isLoose_plain h)

theorem loose_wrappedInlines (o : Options) (inlines : List Inline) : ∀ p ∈ wrappedInlines o inlines, p.IsLoose := by
  cases inlines with
  | nil => exact List.forall_mem_nil _
  | cons i is =>
    exact loose_paragraph (flowLoose_inlines o _)

mutual

/-- **Blocks.** Only code has white space to be preserved. -/
theorem loose_block (o : Options) : ∀ b : Block, ∀ p ∈ translateBlock o b, p.IsLoose
  | .paragraph inlines => by
    rw [translateBlock]
    exact loose_paragraph (flowLoose_inlines o inlines)
  | .heading level inlines => by
    rw [translateBlock, List.forall_mem_singleton]
    exact isLoose_flow (membersLoose_style _ _) (flowLoose_inlines o inlines)
  | .codeBlock _ lines => by
    rw [translateBlock, List.forall_mem_singleton]
    exact isLoose_items (membersLoose_style _ _) (loose_of_mem_codeItems o.lineJoin lines)
  | .list ordered start items => by
    rw [translateBlock, List.forall_mem_singleton]
    exact isLoose_objects (membersLoose_markers ordered start) (loose_items o items)
  | .quote blocks => by
    rw [translateBlock, List.forall_mem_singleton]
    exact isLoose_objects (membersLoose_style _ _) (loose_blocks o blocks)
  | .thematicBreak => by
    rw [translateBlock, List.forall_mem_singleton]
    exact membersLoose_style _ _
  | .table columns rows => by
    have group : (ObjectPhrase.mk .tableRowGroup
        (contentMember .tableRowGroup (objectItems (translateRows o columns rows)))).IsLoose :=
      isLoose_children (loose_rows o columns rows)
    rw [translateBlock, List.forall_mem_singleton]
    exact isLoose_items (membersLoose_append.mpr ⟨membersLoose_style _ _, membersLoose_columns columns⟩)
      (List.forall_mem_singleton.mpr ⟨rfl, group⟩)
  | .html literal => by
    rw [translateBlock]
    split
    · exact loose_paragraph (AllChildren.text literal)
    · exact List.forall_mem_nil _
  | .custom _ blocks inlines => by
    rw [translateBlock, List.forall_mem_append]
    exact ⟨loose_blocks o blocks, loose_wrappedInlines o inlines⟩

theorem loose_blocks (o : Options) : ∀ bs : List Block, ∀ p ∈ translateBlocks o bs, p.IsLoose
  | [] => by
    rw [translateBlocks]
    exact List.forall_mem_nil _
  | b :: bs => by
    rw [translateBlocks, List.forall_mem_append]
    exact ⟨loose_block o b, loose_blocks o bs⟩

theorem loose_items (o : Options) : ∀ items : List (List Block), ∀ p ∈ translateItems o items, p.IsLoose
  | [] => by
    rw [translateItems]
    exact List.forall_mem_nil _
  | i :: is => by
    rw [translateItems, List.forall_mem_cons]
    exact ⟨isLoose_children (loose_blocks o i), loose_items o is⟩

theorem loose_rows (o : Options) (columns : List Column) :
    ∀ rows : List (Row Block), ∀ p ∈ translateRows o columns rows, p.IsLoose
  | [] => by
    rw [translateRows]
    exact List.forall_mem_nil _
  | r :: rs => by
    rw [translateRows, List.forall_mem_cons]
    exact ⟨isLoose_row o columns r, loose_rows o columns rs⟩

theorem isLoose_row (o : Options) (columns : List Column) : ∀ r : Row Block, (translateRow o columns r).IsLoose
  | ⟨isHeader, cells⟩ => by
    have style : MembersLoose .tableRow (if isHeader then styleMember o.theme .tableRow .tableHeader else []) := by
      split
      · exact membersLoose_style _ _
      · trivial
    rw [translateRow]
    exact isLoose_objects style (loose_cells o columns 0 cells)

theorem loose_cells (o : Options) (columns : List Column) (position : Nat) :
    ∀ cells : List (Cell Block), ∀ p ∈ translateCells o columns position cells, p.IsLoose
  | [] => by
    rw [translateCells]
    exact List.forall_mem_nil _
  | c :: cs => by
    rw [translateCells, List.forall_mem_cons]
    exact ⟨isLoose_cell o columns position c, loose_cells o columns (position + 1) cs⟩

theorem isLoose_cell (o : Options) (columns : List Column) (position : Nat) :
    ∀ c : Cell Block, (translateCell o columns position c).IsLoose
  | ⟨column, columnSpan, rowSpan, blocks⟩ => by
    have style : MembersLoose .tableCell (styleMember o.theme .tableCell .tableCell) := membersLoose_style _ _
    have columns' : MembersLoose .tableCell (valueMember? .tableCell "ColumnSpan" (spanValue columnSpan)) :=
      membersLoose_value? _ _
    have rows : MembersLoose .tableCell (valueMember? .tableCell "RowSpan" (spanValue rowSpan)) :=
      membersLoose_value? _ _
    have alignment : MembersLoose .tableCell (valueMember? .tableCell "TextAlignment"
        ((cellAlignment columns column position).map Scalar.alignment)) := membersLoose_value? _ _
    have spans := membersLoose_append.mpr ⟨membersLoose_append.mpr ⟨style, columns'⟩, rows⟩
    have members := membersLoose_append.mpr ⟨spans, alignment⟩
    rw [translateCell]
    exact isLoose_objects members (loose_blocks o blocks)

end

/-! ## Documents -/

/-- No namespace is declared as `xml:space`. -/
theorem space_not_declared (namespaces : List NamespaceDecl) :
    "xml:space" ∉ (namespaces.map NamespaceDecl.attribute).map Prod.fst := by
  intro mem
  rw [List.map_map] at mem
  obtain ⟨ns, -, same⟩ := List.mem_map.mp mem
  simp only [Function.comp_apply, NamespaceDecl.attribute] at same
  split at same
  · exact absurd same (by decide)
  · have chars := congrArg String.toList same
    simp at chars

/-- The elements of a document's markup that keep their white space. -/
theorem keepSpace_spelledTranslation (o : Options) (d : Document) :
    Xml.KeepSpace "Run" (spelledTranslation o d).element.tags := by
  have loose := @isLoose_spelledObject o.theme.keyClass (translateDocument o d)
    (isLoose_objects (membersLoose_style _ _) (loose_blocks o d))
  exact keepSpace_element _ _ (isTidy_spelledDocument o d) loose (space_not_declared _)

/-- The objects of a document ask for their white space to be kept where they need it. -/
theorem keepsSpace_iff_spelled (o : Options) (d : Document) {p : Object}
    (within : p.Within (spelledTranslation o d).root) {declared : List (String × String)}
    (known : declared ⊆ (spelledTranslation o d).namespaces.map NamespaceDecl.attribute) :
    (p.element (spelledTranslation o d).namespaces declared).keepsSpace = true ↔ needsPreserve p.content = true := by
  have named := isNamed_object _ (isTidy_spelledDocument o d)
  exact keepsSpace_iff (within.passes named) fun mem => space_not_declared _ (List.map_subset Prod.fst known mem)

/-- **White space is kept where needed, and only there.** Where no two values stand side by side in the content of an
element that does not ask for its white space to be kept, normalisation changes none of them. The element of an object
asks for it exactly if the content needs it. In whatever a document is rendered to with the built-in handlers and without
replay this holds of all objects, and the elements that do ask for it are runs. -/
theorem space_kept_where_needed :
    (∀ o : Object, o.content.IsChain (fun a b => ¬(a.isValue = true ∧ b.isValue = true)) →
      needsPreserve o.content = false → normalizedTexts true o.content = valueTexts o.content) ∧
    (∀ (o : Object) (namespaces : List NamespaceDecl) (declared : List (String × String)),
      o.passes MemberNode.isNamed = true → "xml:space" ∉ declared.map Prod.fst →
        ((o.element namespaces declared).keepsSpace = true ↔ needsPreserve o.content = true)) ∧
    ∀ (o : Options) (indent : Nat) (d : Document) (markup : String), o.rawMarkup ≠ .replay →
      documentMarkup .builtIn o indent d = .ok markup →
        ∃ signals g, documentSignals .builtIn o .text d = .ok signals ∧ Graph.ofSignals signals = .ok g ∧
          markup = g.markup indent ∧
          (∀ p : Object, p.Within g.root → ∀ declared ⊆ g.namespaces.map NamespaceDecl.attribute,
            ((p.element g.namespaces declared).keepsSpace = true ↔ needsPreserve p.content = true)) ∧
          ∀ tag ∈ g.element.tags, "xml:space" ∈ tag.2.map Prod.fst → tag.1 = "Run" := by
  refine ⟨fun o apart none => normalizedTexts_eq apart none, fun o _ _ named apart => keepsSpace_iff named apart,
    fun o indent d markup ho h => ?_⟩
  have printed := documentMarkup_eq ho h
  rw [documentMarkup] at h
  cases hs : documentSignals .builtIn o .text d with
  | error e => rw [hs] at h; cases h
  | ok signals =>
    have built : Graph.ofSignals signals = .ok (spelledTranslation o d) := by
      rw [documentSignals_text_eq ho hs, Graph.ofSignals_phrase]
      rfl
    exact ⟨signals, _, rfl, built, printed, fun _ within _ known => keepsSpace_iff_spelled o d within known,
      keepSpace_spelledTranslation o d⟩

/-- A span with a line break between its texts, a run with spaces at its ends, and code between spaces. -/
theorem space_kept_where_needed_code :
    normalizedTexts true [.value (.text "a "), .object (.mk .lineBreak []), .value (.text " b")] = ["a ", " b"] ∧
    ((Object.mk .run [.mk "Text" "Run" .property true false [.value (.text " b ")]]).element [] []).keepsSpace = true ∧
    ∃ signals g, documentSignals .builtIn {} .text [.paragraph [.text " a", .code " b "]] = .ok signals ∧
      Graph.ofSignals signals = .ok g ∧
        ∀ tag ∈ g.element.tags, "xml:space" ∈ tag.2.map Prod.fst → tag.1 = "Run" := by
  refine ⟨space_kept_where_needed.1 (.mk .span [.mk "Inlines" "Span" .property true true
    [.value (.text "a "), .object (.mk .lineBreak []), .value (.text " b")]]) (by decide) (by decide),
    (space_kept_where_needed.2.1 _ [] [] (by decide) (by decide)).mpr (by decide), ?_⟩
  have found : (documentMarkup .builtIn {} 2 [.paragraph [.text " a", .code " b "]]).isOk = true := by decide +kernel
  cases h : documentMarkup .builtIn {} 2 [.paragraph [.text " a", .code " b "]] with
  | error e => rw [h] at found; cases found
  | ok markup =>
    obtain ⟨signals, g, sent, built, -, -, runs⟩ := space_kept_where_needed.2.2 _ 2 _ markup (by decide) h
    exact ⟨signals, g, sent, built, runs⟩

end FlowDoc.Render
