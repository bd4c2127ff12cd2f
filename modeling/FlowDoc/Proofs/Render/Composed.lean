import FlowDoc.Proofs.Render.Simulation

/-!
# What writing is composed of

All that the built-in handlers and the fallbacks write is composed of a few parts (`Composed`): text and whole objects
in a collection, whole members and whole collections in an object, and errors in between. So what holds of these parts,
and of parts one after the other, holds of every block and inline, whichever handlers are left out
(**`composed_block`**, **`composed_inline`**), and of replayed markup.
-/

namespace FlowDoc.Render

open Xaml

/-- Whether an error is a violation of the protocol. -/
def IsProtocol (e : RenderError) : Prop := ∃ operation violation, e = .protocol operation violation

/-- What is innermost where something is written. -/
inductive Top
  /-- A collection. -/
  | items
  | object (type : ElementType)

/-- What is composed of whole parts. -/
inductive Composed : Top → Write Unit → Prop
  | nothing {top : Top} : Composed top (pure ())
  | fail {top : Top} {e : RenderError} : ¬ IsProtocol e → Composed top (throw e)
  | andThen {top : Top} {m n : Write Unit} : Composed top m → Composed top n → Composed top (do m; n)
  | gather (operation : Operation) (s : String) : Composed .items (Write.gather operation s)
  | object (type : ElementType) {body : Write Unit} : Composed (.object type) body → Composed .items (object type body)
  | member {type : ElementType} (ref : MemberRef) {v : Scalar} : (∀ key, v ≠ .resourceKey key) →
      Composed (.object type) (Write.member ref v)
  | resource {type : ElementType} (ref : MemberRef) (style : Style.Ref) :
      Composed (.object type) (Write.resource ref style)
  | collection {type : ElementType} (ref : MemberRef) (preserve : Bool) {body : Write Unit} : Composed .items body →
      Composed (.object type) (do Write.startItems ref preserve; body; Write.endItems)
  | content {type : ElementType} (preserve : Bool) {body : Write Unit} : Composed .items body →
      Composed (.object type) (do Write.startContent preserve; body; Write.endItems)

variable {top : Top} {type : ElementType} {o : Options} {h : Handlers}

/-! ## Parts of handlers -/

theorem composed_mismatch (kind : String) : Composed top (mismatch kind) := by
  refine .fail ?_
  rintro ⟨_, _, he⟩
  cases he

theorem composed_text (s : String) : Composed .items (Write.text s) := .gather .writeText s

theorem composed_literal (s : String) : Composed .items (Write.literal s) := .gather .writeValue s

theorem composed_lineBreak : Composed .items Write.lineBreak := .object .lineBreak .nothing

theorem composed_style (r : Style.Role) : Composed (.object type) (Write.style r) := .resource (.name "Style") (.role r)

theorem composed_member? (ref : MemberRef) {v : Option Scalar} (hv : ∀ key, v ≠ some (.resourceKey key)) :
    Composed (.object type) (Write.member? ref v) := by
  cases v with
  | none => exact .nothing
  | some v =>
    refine .member ref fun key hk => ?_
    exact hv key (by rw [hk])

theorem composed_inOrder {ws : List (Write Unit)} (hw : ∀ w ∈ ws, Composed top w) : Composed top (inOrder ws) := by
  induction ws with
  | nil => exact .nothing
  | cons w ws ih =>
    have first := hw w List.mem_cons_self
    have rest := ih fun v hv => hw v (List.mem_cons_of_mem w hv)
    exact first.andThen rest

theorem composed_content (preserve : Bool) {ws : List (Write Unit)} (hw : ∀ w ∈ ws, Composed .items w) :
    Composed (.object type) (content preserve ws) :=
  .content preserve (composed_inOrder hw)

/-- Content of one thing. -/
theorem composed_content_singleton (preserve : Bool) {w : Write Unit} (hw : Composed .items w) :
    Composed (.object type) (content preserve [w]) := by
  refine composed_content preserve fun v hv => ?_
  rw [List.mem_singleton.mp hv]
  exact hw

theorem composed_wrapInlines {ws : List (Write Unit)} (hw : ∀ w ∈ ws, Composed .items w) :
    Composed .items (wrapInlines ws) := by
  cases ws with
  | nil => exact .nothing
  | cons w ws => exact .object .paragraph (composed_content false hw)

/-! ## Replayed markup -/

theorem getTypeIn_error {space name : String} {e : RenderError} (he : getTypeIn space name = .error e) :
    ¬ IsProtocol e := by
  unfold getTypeIn at he
  split at he
  · cases he
  · cases he
    rintro ⟨_, _, h⟩
    cases h

theorem not_isProtocol_unsupportedFragment (fragment : String) (fault : FragmentFault) :
    ¬ IsProtocol (.unsupportedFragment fragment fault) := by
  rintro ⟨_, _, h⟩
  cases h

theorem composed_replayAttributes (fragment : String) (attributes : List Xml.Attribute) :
    Composed (.object type) (replayAttributes fragment attributes) := by
  induction attributes with
  | nil => exact .nothing
  | cons a rest ih =>
    have member : Composed (.object type) (Write.member (.ofName a.name) (.text a.value)) :=
      .member _ fun key hk => by cases hk
    rw [replayAttributes]
    cases a.space with
    | none => exact member.andThen ih
    | some space => exact .fail (not_isProtocol_unsupportedFragment _ _)

mutual

theorem composed_replayNode (fragment : String) : ∀ node : Xml.Node, Composed .items (replayNode fragment node)
  | .text s => composed_text s
  | .element space name attributes children => by
    have inner := composed_replayNodes fragment children
    rw [replayNode]
    by_cases dotted : name.toList.contains '.' = true
    · rw [if_pos dotted]
      exact .fail (not_isProtocol_unsupportedFragment _ _)
    · rw [if_neg dotted]
      cases ht : getTypeIn (space.getD presentationNamespace) name with
      | error e => exact .fail (getTypeIn_error ht)
      | ok type =>
        have members : Composed (.object type) (replayAttributes fragment attributes) :=
          composed_replayAttributes fragment attributes
        by_cases filled : children.any isSubstantial = true
        · rw [if_pos filled]
          have whole := Composed.object type (members.andThen (.content false inner))
          simpa only [Write.lift, pure_bind, object, bind_assoc] using whole
        · rw [if_neg filled]
          exact .object type members

theorem composed_replayNodes (fragment : String) :
    ∀ nodes : List Xml.Node, Composed .items (replayNodes fragment nodes)
  | [] => .nothing
  | n :: ns => (composed_replayNode fragment n).andThen (composed_replayNodes fragment ns)

end

theorem composed_replayFragment (fragment : String) : Composed .items (replayFragment fragment) := by
  unfold replayFragment
  split
  · split
    · exact composed_replayNodes fragment _
    · exact .fail (not_isProtocol_unsupportedFragment _ _)
  · split
    · exact composed_text _
    · exact .fail (not_isProtocol_unsupportedFragment _ _)

/-! ## Handlers -/

/-- Whether all that stands in place of an inline's children has a property. -/
def InlineShape.All {ι : Type} (P : ι → Prop) : InlineShape ι → Prop
  | .emphasis _ _ children | .delimiter _ children | .link _ _ _ children | .custom _ children => ∀ i ∈ children, P i
  | .text _ | .lineBreak _ | .code _ | .autolink _ _ | .raw _ | .task _ => True

/-- Whether all that stands in place of a block's blocks and inlines has a property. -/
def BlockShape.All {β ι : Type} (P : β → Prop) (Q : ι → Prop) : BlockShape β ι → Prop
  | .paragraph inlines | .heading _ inlines => ∀ i ∈ inlines, Q i
  | .list _ _ items => ∀ blocks ∈ items, ∀ b ∈ blocks, P b
  | .quote blocks => ∀ b ∈ blocks, P b
  | .table _ rows => ∀ r ∈ rows, ∀ c ∈ r.cells, ∀ b ∈ c.blocks, P b
  | .custom _ blocks inlines => (∀ b ∈ blocks, P b) ∧ ∀ i ∈ inlines, Q i
  | .codeBlock _ _ | .thematicBreak | .html _ => True

theorem composed_fallbackInline {s : InlineShape (Write Unit)} (hs : s.All (Composed .items)) :
    Composed .items (fallbackInline s) := by
  cases s with
  | text s => exact composed_text s
  | code s => exact composed_text s
  | emphasis c n children => exact composed_inOrder hs
  | delimiter literal children => exact composed_inOrder hs
  | link url title isImage children => exact composed_inOrder hs
  | custom kind children => exact composed_inOrder hs
  | lineBreak hard => exact .nothing
  | autolink url isEmail => exact .nothing
  | raw s => exact .nothing
  | task checked => exact .nothing

theorem composed_fallbackBlock {s : BlockShape (Write Unit) (Write Unit)}
    (hs : s.All (Composed .items) (Composed .items)) : Composed .items (fallbackBlock s) := by
  cases s with
  | paragraph inlines => exact composed_wrapInlines hs
  | heading level inlines => exact composed_wrapInlines hs
  | list ordered start items =>
    refine composed_inOrder fun w hw => ?_
    obtain ⟨blocks, hb, hw⟩ := List.mem_flatten.mp hw
    exact hs blocks hb w hw
  | quote blocks => exact composed_inOrder hs
  | custom kind blocks inlines => exact (composed_inOrder hs.1).andThen (composed_wrapInlines hs.2)
  | codeBlock info lines => exact .nothing
  | thematicBreak => exact .nothing
  | table columns rows => exact .nothing
  | html literal => exact .nothing

/-! ### Inlines -/

theorem composed_hyperlink (target : String) (title : Option String) {body : Write Unit}
    (hb : Composed (.object .hyperlink) body) : Composed .items (hyperlink target title body) := by
  have uri : Composed (.object .hyperlink) (Write.member (.name "NavigateUri") (.uri target)) :=
    .member _ fun key hk => by cases hk
  have tip : Composed (.object .hyperlink) (Write.member (.name "ToolTip") (.text (title.getD target))) :=
    .member _ fun key hk => by cases hk
  exact .object .hyperlink ((composed_style .hyperlink).andThen (uri.andThen (tip.andThen hb)))

theorem composed_image (target : String) (title : Option String) : Composed .items (image target title) := by
  have source : Composed (.object .image) (Write.member (.name "Source") (.uri target)) :=
    .member _ fun key hk => by cases hk
  have tip : Composed (.object .image)
      (Write.member? (.attached "ToolTipService" "ToolTip") (title.map Scalar.text)) :=
    composed_member? _ fun key hk => by cases title <;> cases hk
  exact .object .image ((composed_style .image).andThen (tip.andThen source))

section Inlines

variable {s : InlineShape (Write Unit)}

theorem composed_code : Composed .items (code o s) := by
  cases s with
  | code s =>
    exact .object .span ((composed_style .code).andThen (composed_content_singleton true (composed_text s)))
  | _ => exact composed_mismatch _

theorem composed_emphasis (hs : s.All (Composed .items)) : Composed .items (emphasis o s) := by
  cases s with
  | emphasis delimiter count children =>
    have inner : ∀ type, Composed (.object type) (content false children) := fun _ => composed_content false hs
    rw [emphasis]
    cases emphasisTarget delimiter count with
    | element type => exact .object type (inner type)
    | styled role => exact .object .span ((composed_style role).andThen (inner .span))
    | unwrapped => exact composed_inOrder hs
  | _ => exact composed_mismatch _

theorem composed_link (hs : s.All (Composed .items)) : Composed .items (link o s) := by
  cases s with
  | link url title isImage children =>
    cases isImage with
    | true => exact composed_image _ _
    | false => exact composed_hyperlink _ _ (composed_content false hs)
  | _ => exact composed_mismatch _

theorem composed_autolink : Composed .items (autolink o s) := by
  cases s with
  | autolink url isEmail => exact composed_hyperlink _ _ (composed_content_singleton false (composed_text url))
  | _ => exact composed_mismatch _

theorem composed_rawInline : Composed .items (rawInline o s) := by
  cases s with
  | raw s =>
    rw [rawInline]
    cases o.rawMarkup with
    | replay => exact composed_replayFragment s
    | text => exact composed_literal s
    | skip => exact .nothing
  | _ => exact composed_mismatch _

theorem composed_taskMarker : Composed .items (taskMarker o s) := by
  cases s with
  | task checked =>
    have tag : Composed (.object .span) (Write.member (.name "Tag") (.bool checked)) :=
      .member _ fun key hk => by cases hk
    exact .object .span ((composed_style .taskList).andThen tag)
  | _ => exact composed_mismatch _

theorem composed_delimiter (hs : s.All (Composed .items)) : Composed .items (delimiter o s) := by
  cases s with
  | delimiter literal children => exact (composed_literal literal).andThen (composed_inOrder hs)
  | _ => exact composed_mismatch _

theorem composed_lineBreakHandler : Composed .items (lineBreak o s) := by
  cases s with
  | lineBreak hard =>
    cases hard with
    | true => exact composed_lineBreak
    | false => exact .gather .writeChar _
  | _ => exact composed_mismatch _

theorem composed_textHandler : Composed .items (text o s) := by
  cases s with
  | text s => exact composed_text s
  | _ => exact composed_mismatch _

/-- **Inline handlers.** A built-in handler composes what it writes, whatever the node is. -/
theorem composed_inlineHandler {kind : String} {handler : InlineHandler}
    (known : Handlers.builtIn.inline? kind = some handler) (hs : s.All (Composed .items)) :
    Composed .items (handler o s) := by
  have hm := mem_of_lookup known
  simp only [Handlers.builtIn, List.mem_cons, Prod.mk.injEq, List.not_mem_nil, or_false] at hm
  rcases hm with ⟨-, rfl⟩ | ⟨-, rfl⟩ | ⟨-, rfl⟩ | ⟨-, rfl⟩ | ⟨-, rfl⟩ | ⟨-, rfl⟩ | ⟨-, rfl⟩ | ⟨-, rfl⟩ | ⟨-, rfl⟩
  · exact composed_textHandler
  · exact composed_lineBreakHandler
  · exact composed_code
  · exact composed_emphasis hs
  · exact composed_delimiter hs
  · exact composed_link hs
  · exact composed_autolink
  · exact composed_rawInline
  · exact composed_taskMarker

end Inlines

/-! ### Blocks -/

section Blocks

variable {s : BlockShape (Write Unit) (Write Unit)}

theorem composed_paragraph (hs : s.All (Composed .items) (Composed .items)) : Composed .items (paragraph o s) := by
  cases s with
  | paragraph inlines => exact .object .paragraph (composed_content false hs)
  | _ => exact composed_mismatch _

theorem composed_heading (hs : s.All (Composed .items) (Composed .items)) : Composed .items (heading o s) := by
  cases s with
  | heading level inlines =>
    exact .object .paragraph ((composed_style (Style.Role.heading level)).andThen (composed_content false hs))
  | _ => exact composed_mismatch _

theorem composed_codeLines (join : LineJoin) : ∀ lines, ∀ w ∈ codeLines join lines, Composed .items w
  | [], _, hw => by cases hw
  | [l], w, hw => by
    rw [List.mem_singleton.mp hw]
    exact composed_text l
  | l :: k :: ls, w, hw => by
    rcases List.mem_cons.mp hw with rfl | hw
    · exact composed_text l
    · rcases List.mem_cons.mp hw with rfl | hw
      · cases join with
        | newline => exact .gather .writeChar _
        | lineBreak => exact composed_lineBreak
      · exact composed_codeLines join (k :: ls) w hw

theorem composed_codeBlock : Composed .items (codeBlock o s) := by
  cases s with
  | codeBlock info lines =>
    exact .object .paragraph
      ((composed_style .codeBlock).andThen (composed_content true (composed_codeLines o.lineJoin lines)))
  | _ => exact composed_mismatch _

theorem composed_listMembers (ordered : Bool) (start : Option Nat) :
    Composed (.object .list) (listMembers ordered start) := by
  have marker : ∀ m, Composed (.object .list) (Write.member (.name "MarkerStyle") (.marker m)) :=
    fun m => .member _ fun key hk => by cases hk
  cases ordered with
  | true =>
    refine (marker .decimal).andThen (composed_member? _ fun key hk => ?_)
    cases hf : start.filter (· != 1) <;> rw [hf] at hk <;> cases hk
  | false => exact marker .disc

theorem composed_list (hs : s.All (Composed .items) (Composed .items)) : Composed .items (list o s) := by
  cases s with
  | list ordered start items =>
    refine .object .list ((composed_listMembers ordered start).andThen (composed_content false fun w hw => ?_))
    obtain ⟨blocks, hb, rfl⟩ := List.mem_map.mp hw
    exact .object .listItem (composed_content false (hs blocks hb))
  | _ => exact composed_mismatch _

theorem composed_quote (hs : s.All (Composed .items) (Composed .items)) : Composed .items (quote o s) := by
  cases s with
  | quote blocks => exact .object .sectionElement ((composed_style .quoteBlock).andThen (composed_content false hs))
  | _ => exact composed_mismatch _

theorem composed_thematicBreak : Composed .items (thematicBreak o s) := by
  cases s with
  | thematicBreak => exact .object .paragraph (composed_style .thematicBreak)
  | _ => exact composed_mismatch _

theorem composed_tableCell (columns : List Column) (position : Nat) {c : Cell (Write Unit)}
    (hc : ∀ w ∈ c.blocks, Composed .items w) : Composed .items (tableCell columns position c) := by
  have span : ∀ name n, Composed (.object .tableCell) (Write.member? (.name name) (spanValue n)) := by
    intro name n
    refine composed_member? _ fun key hk => ?_
    unfold spanValue at hk
    split at hk <;> cases hk
  have alignment : Composed (.object .tableCell) (Write.member? (.name "TextAlignment")
      ((cellAlignment columns c.column position).map Scalar.alignment)) := by
    refine composed_member? _ fun key hk => ?_
    cases ha : cellAlignment columns c.column position <;> rw [ha] at hk <;> cases hk
  exact .object .tableCell ((composed_style .tableCell).andThen ((span _ _).andThen ((span _ _).andThen
    (alignment.andThen (composed_content false hc)))))

theorem composed_tableCells (columns : List Column) : ∀ (position : Nat) (cells : List (Cell (Write Unit))),
    (∀ c ∈ cells, ∀ w ∈ c.blocks, Composed .items w) → ∀ w ∈ tableCells columns position cells, Composed .items w
  | _, [], _, _, hw => by cases hw
  | position, c :: cs, hc, w, hw => by
    rcases List.mem_cons.mp hw with rfl | hw
    · exact composed_tableCell columns position (hc c List.mem_cons_self)
    · exact composed_tableCells columns (position + 1) cs (fun d hd => hc d (List.mem_cons_of_mem c hd)) w hw

theorem composed_tableRow (columns : List Column) {r : Row (Write Unit)}
    (hr : ∀ c ∈ r.cells, ∀ w ∈ c.blocks, Composed .items w) : Composed .items (tableRow columns r) := by
  have cells : Composed (.object .tableRow) (content false (tableCells columns 0 r.cells)) :=
    composed_content false (composed_tableCells columns 0 r.cells hr)
  unfold tableRow
  cases r.isHeader with
  | true => exact .object .tableRow ((composed_style .tableHeader).andThen cells)
  | false => exact .object .tableRow cells

theorem composed_table (hs : s.All (Composed .items) (Composed .items)) : Composed .items (table o s) := by
  cases s with
  | table columns rows =>
    have column : ∀ w ∈ columns.map tableColumn, Composed .items w := by
      intro w hw
      obtain ⟨c, -, rfl⟩ := List.mem_map.mp hw
      exact .object .tableColumn (.member _ fun key hk => by cases hk)
    have row : ∀ w ∈ rows.map (tableRow columns), Composed .items w := by
      intro w hw
      obtain ⟨r, hr, rfl⟩ := List.mem_map.mp hw
      exact composed_tableRow columns (hs r hr)
    have group : Composed (.object .table) _ := composed_content_singleton false
      (.object .tableRowGroup (composed_content false row))
    have whole := Composed.object .table ((composed_style .table).andThen
      ((Composed.collection (.name "Columns") false (composed_inOrder column)).andThen group))
    simpa only [table, object, bind_assoc] using whole
  | _ => exact composed_mismatch _

theorem composed_htmlBlock : Composed .items (htmlBlock o s) := by
  cases s with
  | html literal =>
    rw [htmlBlock]
    cases o.rawMarkup with
    | replay => exact composed_replayFragment _
    | text => exact .object .paragraph (composed_content_singleton false (composed_text literal))
    | skip => exact .nothing
  | _ => exact composed_mismatch _

/-- **Block handlers.** A built-in handler composes what it writes, whatever the node is. -/
theorem composed_blockHandler {kind : String} {handler : BlockHandler}
    (known : Handlers.builtIn.block? kind = some handler) (hs : s.All (Composed .items) (Composed .items)) :
    Composed .items (handler o s) := by
  have hm := mem_of_lookup known
  simp only [Handlers.builtIn, List.mem_cons, Prod.mk.injEq, List.not_mem_nil, or_false] at hm
  rcases hm with ⟨-, rfl⟩ | ⟨-, rfl⟩ | ⟨-, rfl⟩ | ⟨-, rfl⟩ | ⟨-, rfl⟩ | ⟨-, rfl⟩ | ⟨-, rfl⟩ | ⟨-, rfl⟩
  · exact composed_paragraph hs
  · exact composed_heading hs
  · exact composed_codeBlock
  · exact composed_list hs
  · exact composed_quote hs
  · exact composed_thematicBreak
  · exact composed_table hs
  · exact composed_htmlBlock

end Blocks

/-! ## Documents -/

/-- Whether all handlers are built-in ones of the same kinds. -/
structure Handlers.AreBuiltIn (h : Handlers) : Prop where
  block : ∀ kind handler, h.block? kind = some handler → Handlers.builtIn.block? kind = some handler
  inline : ∀ kind handler, h.inline? kind = some handler → Handlers.builtIn.inline? kind = some handler

theorem areBuiltIn_builtIn : Handlers.builtIn.AreBuiltIn := ⟨fun _ _ h => h, fun _ _ h => h⟩

theorem composed_handleInline (hh : h.AreBuiltIn) (kind : String) {s : InlineShape (Write Unit)}
    (hs : s.All (Composed .items)) : Composed .items (handleInline h o kind s) := by
  unfold handleInline
  cases hk : h.inline? kind with
  | some handler => exact composed_inlineHandler (hh.inline kind handler hk) hs
  | none => exact composed_fallbackInline hs

theorem composed_handleBlock (hh : h.AreBuiltIn) (kind : String) {s : BlockShape (Write Unit) (Write Unit)}
    (hs : s.All (Composed .items) (Composed .items)) : Composed .items (handleBlock h o kind s) := by
  unfold handleBlock
  cases hk : h.block? kind with
  | some handler => exact composed_blockHandler (hh.block kind handler hk) hs
  | none => exact composed_fallbackBlock hs

mutual

/-- **Inlines.** Whatever handlers there are of the built-in ones, an inline is composed. -/
theorem composed_inline (hh : h.AreBuiltIn) (o : Options) : ∀ i : Inline, Composed .items (renderInline h o i)
  | .text _ => composed_handleInline hh _ trivial
  | .lineBreak _ => composed_handleInline hh _ trivial
  | .code _ => composed_handleInline hh _ trivial
  | .emphasis _ _ children => composed_handleInline hh _ (composed_inlines hh o children)
  | .delimiter _ children => composed_handleInline hh _ (composed_inlines hh o children)
  | .link _ _ _ children => composed_handleInline hh _ (composed_inlines hh o children)
  | .autolink _ _ => composed_handleInline hh _ trivial
  | .raw _ => composed_handleInline hh _ trivial
  | .task _ => composed_handleInline hh _ trivial
  | .custom _ children => composed_handleInline hh _ (composed_inlines hh o children)

theorem composed_inlines (hh : h.AreBuiltIn) (o : Options) :
    ∀ is : List Inline, ∀ w ∈ renderInlines h o is, Composed .items w
  | [], _, hw => by cases hw
  | i :: is, w, hw => by
    rcases List.mem_cons.mp hw with rfl | hw
    · exact composed_inline hh o i
    · exact composed_inlines hh o is w hw

end

mutual

/-- **Blocks.** Whatever handlers there are of the built-in ones, a block is composed. -/
theorem composed_block (hh : h.AreBuiltIn) (o : Options) : ∀ b : Block, Composed .items (renderBlock h o b)
  | .paragraph inlines => composed_handleBlock hh _ (composed_inlines hh o inlines)
  | .heading _ inlines => composed_handleBlock hh _ (composed_inlines hh o inlines)
  | .codeBlock _ _ => composed_handleBlock hh _ trivial
  | .list _ _ items => composed_handleBlock hh _ (composed_items hh o items)
  | .quote blocks => composed_handleBlock hh _ (composed_blocks hh o blocks)
  | .thematicBreak => composed_handleBlock hh _ trivial
  | .table _ rows => composed_handleBlock hh _ (composed_rows hh o rows)
  | .html _ => composed_handleBlock hh _ trivial
  | .custom _ blocks inlines =>
    composed_handleBlock hh _ ⟨composed_blocks hh o blocks, composed_inlines hh o inlines⟩

theorem composed_blocks (hh : h.AreBuiltIn) (o : Options) :
    ∀ bs : List Block, ∀ w ∈ renderBlocks h o bs, Composed .items w
  | [], _, hw => by cases hw
  | b :: bs, w, hw => by
    rcases List.mem_cons.mp hw with rfl | hw
    · exact composed_block hh o b
    · exact composed_blocks hh o bs w hw

theorem composed_items (hh : h.AreBuiltIn) (o : Options) :
    ∀ items : List (List Block), ∀ ws ∈ renderItems h o items, ∀ w ∈ ws, Composed .items w
  | [], _, hws => by cases hws
  | i :: is, ws, hws => by
    rcases List.mem_cons.mp hws with rfl | hws
    · exact composed_blocks hh o i
    · exact composed_items hh o is ws hws

theorem composed_rows (hh : h.AreBuiltIn) (o : Options) :
    ∀ rows : List (Row Block), ∀ r ∈ renderRows h o rows, ∀ c ∈ r.cells, ∀ w ∈ c.blocks, Composed .items w
  | [], _, hr => by cases hr
  | r :: rs, r', hr => by
    rcases List.mem_cons.mp hr with rfl | hr
    · exact composed_row hh o r
    · exact composed_rows hh o rs r' hr

theorem composed_row (hh : h.AreBuiltIn) (o : Options) :
    ∀ r : Row Block, ∀ c ∈ (renderRow h o r).cells, ∀ w ∈ c.blocks, Composed .items w
  | ⟨_, cells⟩ => composed_cells hh o cells

theorem composed_cells (hh : h.AreBuiltIn) (o : Options) :
    ∀ cells : List (Cell Block), ∀ c ∈ renderCells h o cells, ∀ w ∈ c.blocks, Composed .items w
  | [], _, hc => by cases hc
  | c :: cs, c', hc => by
    rcases List.mem_cons.mp hc with rfl | hc
    · exact composed_cell hh o c
    · exact composed_cells hh o cs c' hc

theorem composed_cell (hh : h.AreBuiltIn) (o : Options) :
    ∀ c : Cell Block, ∀ w ∈ (renderCell h o c).blocks, Composed .items w
  | ⟨_, _, _, blocks⟩ => composed_blocks hh o blocks

end

/-- What is written in the root of a document. -/
theorem composed_document (hh : h.AreBuiltIn) (o : Options) (d : Document) :
    Composed (.object .flowDocument) (do Write.style .document; content false (renderBlocks h o d)) :=
  (composed_style .document).andThen (composed_content false (composed_blocks hh o d))

end FlowDoc.Render
