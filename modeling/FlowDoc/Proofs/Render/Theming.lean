import FlowDoc.Proofs.Render.ContentModel
import FlowDoc.Proofs.Render.Failure
import FlowDoc.Proofs.Xaml.Unthemed

/-!
# Themes and base addresses

Two runs are followed side by side: `Twins top` are two sound drafts that hold the same once unthemed and have gathered
the same text, and two operations conform (`Conform`) if they lead twins to twins, or both to the same error. Parts of
handlers conform where they write the same, a style, or the target of a link; so do then all handlers under options that
differ in the theme and the base address alone, by recursion on the tree, and replayed markup. What is rendered under
such options is the same once unthemed (**`documentGraph_unthemed`**).
-/

namespace FlowDoc.Render

open Xaml

/-! ## Two drafts -/

/-- Innermost phrases that a top says and that are the same once unthemed. -/
inductive Alike : Top → OpenPhrase → OpenPhrase → Prop
  | object (type : ElementType) {members members' : List MemberPhrase} : SameMembers type members members' →
      Alike (.object type) (.object type members) (.object type members')
  | items (m : Member) (opened : Bool) (outerMode : Text.SpaceMode) {items items' : List ItemPhrase} :
      SameItems items items' →
      Alike .items (.collection m opened outerMode items) (.collection m opened outerMode items')

/-- Two drafts of typed values, with the same text gathered and the same innermost, over phrases that stay. -/
structure Twins (top : Top) (sp sp' : List OpenPhrase) (g g' : Draft) : Prop where
  sound : g.Sound
  sound' : g'.Sound
  native : g.mode = .native
  native' : g'.mode = .native
  buffer : g'.buffer = g.buffer
  alike : ∃ p p', g.spine = p :: sp ∧ g'.spine = p' :: sp' ∧ Alike top p p'

/-- Whether two operations do the same to twins: both fail, with the same error, or leave twins. -/
def Conform (top : Top) (m m' : Write Unit) : Prop :=
  ∀ (sp sp' : List OpenPhrase) (g g' : Draft), Twins top sp sp' g g' →
    (∃ (e : RenderError) (w w' : Writer), m.run g.writer = .error e w ∧ m'.run g'.writer = .error e w') ∨
    ∃ h h' : Draft, m.run g.writer = .ok () h.writer ∧ m'.run g'.writer = .ok () h'.writer ∧ Twins top sp sp' h h'

variable {top : Top} {type : ElementType} {m m' n n' body body' : Write Unit} {sp sp' : List OpenPhrase} {g g' : Draft}

theorem Twins.object (t : Twins (.object type) sp sp' g g') :
    ∃ members members', g.spine = .object type members :: sp ∧ g'.spine = .object type members' :: sp' ∧
      SameMembers type members members' := by
  obtain ⟨p, p', hs, hs', alike⟩ := t.alike
  cases alike with
  | object _ same => exact ⟨_, _, hs, hs', same⟩

theorem Twins.items (t : Twins .items sp sp' g g') :
    ∃ member opened outerMode items items', g.spine = .collection member opened outerMode items :: sp ∧
      g'.spine = .collection member opened outerMode items' :: sp' ∧ SameItems items items' := by
  obtain ⟨p, p', hs, hs', alike⟩ := t.alike
  cases alike with
  | items member opened outerMode same => exact ⟨member, opened, outerMode, _, _, hs, hs', same⟩

/-! ## Rules -/

theorem Conform.nothing : Conform top (pure ()) (pure ()) := fun _ _ g g' t => Or.inr ⟨g, g', rfl, rfl, t⟩

theorem Conform.fail (e : RenderError) : Conform top (throw e) (throw e) := fun _ _ _ _ _ => Or.inl ⟨e, _, _, rfl, rfl⟩

theorem Conform.andThen (hm : Conform top m m') (hn : Conform top n n') : Conform top (do m; n) (do m'; n') := by
  intro sp sp' g g' t
  rcases hm sp sp' g g' t with ⟨e, w, w', run, run'⟩ | ⟨h, h', run, run', t⟩
  · exact Or.inl ⟨e, w, w', Write.run_bind_error run, Write.run_bind_error run'⟩
  · rw [Write.run_bind_ok run, Write.run_bind_ok run']
    exact hn sp sp' h h' t

theorem Conform.gather (operation : Operation) (s : String) :
    Conform .items (Write.gather operation s) (Write.gather operation s) := by
  intro sp sp' g g' t
  obtain ⟨member, opened, outerMode, items, items', hs, hs', same⟩ := t.items
  refine Or.inr ⟨_, _, Draft.gather_container hs rfl operation s, Draft.gather_container hs' rfl operation s, ?_⟩
  exact {
    sound := (Draft.Move.text s hs rfl).sound t.sound
    sound' := (Draft.Move.text s hs' rfl).sound t.sound'
    native := t.native
    native' := t.native'
    buffer := congrArg (·.pushAll s) t.buffer
    alike := ⟨_, _, rfl, rfl, .items member opened outerMode same⟩ }

/-- Starting an object in two collections. -/
theorem Twins.startObject (t : Twins .items sp sp' g g') (type : ElementType) :
    ∃ (p p' : OpenPhrase) (h h' : Draft),
      (Write.startObjectOf type).run g.writer = .ok () h.writer ∧
      (Write.startObjectOf type).run g'.writer = .ok () h'.writer ∧
      Twins (.object type) (p :: sp) (p' :: sp') h h' ∧ Alike .items p p' ∧ p.opened = p ∧ p'.opened = p' := by
  obtain ⟨member, opened, outerMode, items, items', hs, hs', same⟩ := t.items
  have started' := Draft.startObjectOf_child t.sound' hs' rfl type
  have sound' := (Draft.Move.startChild type hs' rfl).sound t.sound'
  rw [t.buffer] at started' sound'
  refine ⟨.collection member true outerMode (items ++ pieceItems (g.buffer.take true).1),
    .collection member true outerMode (items' ++ pieceItems (g.buffer.take true).1), _, _,
    Draft.startObjectOf_child t.sound hs rfl type, started', ?_, ?_, rfl, rfl⟩
  · exact {
      sound := (Draft.Move.startChild type hs rfl).sound t.sound
      sound' := sound'
      native := t.native
      native' := t.native'
      buffer := rfl
      alike := ⟨_, _, rfl, rfl, .object type rfl⟩ }
  · exact .items member true outerMode (same.append rfl)

/-- Ending an object in two collections. -/
theorem Twins.endObject {p p' : OpenPhrase} (t : Twins (.object type) (p :: sp) (p' :: sp') g g')
    (alike : Alike .items p p') (hp : p.opened = p) (hp' : p'.opened = p') :
    ∃ h h' : Draft, Write.endObject.run g.writer = .ok () h.writer ∧ Write.endObject.run g'.writer = .ok () h'.writer ∧
      Twins .items sp sp' h h' := by
  obtain ⟨members, members', hs, hs', same⟩ := t.object
  cases alike with
  | items member opened outerMode sameItems =>
    refine ⟨_, _, Draft.endObject_child hs rfl hp, Draft.endObject_child hs' rfl hp', ?_⟩
    exact {
      sound := (Draft.Move.endChild hs).sound t.sound
      sound' := (Draft.Move.endChild hs').sound t.sound'
      native := t.native
      native' := t.native'
      buffer := t.buffer
      alike := ⟨_, _, rfl, rfl, .items member _ outerMode (sameItems.append same.object)⟩ }

/-- **Objects.** -/
theorem Conform.object (hb : Conform (.object type) body body') :
    Conform .items (object type body) (object type body') := by
  intro sp sp' g g' t
  obtain ⟨p, p', h, h', started, started', inner, alike, hp, hp'⟩ := t.startObject type
  rw [Render.object, Render.object, Write.run_bind_ok started, Write.run_bind_ok started']
  rcases hb _ _ h h' inner with ⟨e, w, w', run, run'⟩ | ⟨k, k', run, run', inner⟩
  · exact Or.inl ⟨e, w, w', Write.run_bind_error run, Write.run_bind_error run'⟩
  · rw [Write.run_bind_ok run, Write.run_bind_ok run']
    exact Or.inr (inner.endObject alike hp hp')

theorem Conform.lineBreak : Conform .items Write.lineBreak Write.lineBreak := by
  have empty : Conform .items (Render.object .lineBreak (pure ())) (Render.object .lineBreak (pure ())) :=
    Conform.object Conform.nothing
  exact empty

/-! ## Members -/

/-- Whether an operation puts an item into a member that a reference names, or fails if there is none. -/
def PutsItem (ref : MemberRef) (m : Write Unit) (i : Draft → ItemPhrase) (b : Text.Buffer → Text.Buffer) : Prop :=
  ∀ (type : ElementType) (members : List MemberPhrase) (sp : List OpenPhrase) (g : Draft), g.Sound → g.mode = .native →
    g.spine = .object type members :: sp →
    match lookUp type ref with
    | .ok member =>
      m.run g.writer =
          .ok () (g.withSpine (.object type (members ++ [.mk member false [i g]]) :: sp) (b g.buffer)).writer ∧
        (g.withSpine (.object type (members ++ [.mk member false [i g]]) :: sp) (b g.buffer)).Sound
    | .error e => m.run g.writer = .error e g.writer

theorem putsItem_member (ref : MemberRef) (v : Scalar) : PutsItem ref (Write.member ref v) (fun _ => .value v) id := by
  intro type members sp g sound native hs
  have resolved := resolve_object hs ref
  cases hm : lookUp type ref with
  | error e =>
    rw [hm] at resolved
    exact Write.run_bind_error resolved
  | ok member =>
    rw [hm] at resolved
    have written := Draft.member_object sound hs resolved v
    rw [native, memberItem_native] at written
    exact ⟨written, (Draft.Move.put member (.value v) hs trivial (Or.inl rfl)).sound sound⟩

theorem putsItem_resource (ref : MemberRef) (style : Style.Ref) :
    PutsItem ref (Write.resource ref style) (fun g => .reference (g.theme.keyOf style)) fun b => (b.take true).2 := by
  intro type members sp g sound native hs
  have resolved := resolve_object hs ref
  cases hm : lookUp type ref with
  | error e =>
    rw [hm] at resolved
    show (Write.resource ref style).run g.writer = _
    rw [Write.resource, Write.run_get_bind]
    exact Write.run_bind_error (startMember_unresolved sound hs resolved)
  | ok member =>
    rw [hm] at resolved
    have item : memberItem g.mode g.theme .positionalParameters (.resourceKey (g.theme.keyOf style)) =
        .ok (.value (.resourceKey (g.theme.keyOf style))) := by
      rw [native, memberItem_native]
    have proper : (ItemPhrase.reference (g.theme.keyOf style)).IsProper := by
      simp [ItemPhrase.reference, ItemPhrase.IsProper, ObjectPhrase.IsProper, MembersProper, MemberPhrase.IsProper,
        Separated, ItemsProper]
    exact ⟨Draft.resource_object sound hs resolved item,
      (Draft.Move.put member _ hs proper (Or.inr rfl)).sound sound⟩

/-- Members with items that are the same once unthemed. -/
theorem Conform.putItem {ref : MemberRef} {i i' : Draft → ItemPhrase} {b : Text.Buffer → Text.Buffer}
    (hm : PutsItem ref m i b) (hm' : PutsItem ref m' i' b)
    (same : ∀ member, lookUp type ref = .ok member → ∀ g g', SameIn member [i g] [i' g']) :
    Conform (.object type) m m' := by
  intro sp sp' g g' t
  obtain ⟨members, members', hs, hs', sameMembers⟩ := t.object
  have put := hm type members sp g t.sound t.native hs
  have put' := hm' type members' sp' g' t.sound' t.native' hs'
  cases found : lookUp type ref with
  | error e =>
    rw [found] at put put'
    exact Or.inl ⟨e, _, _, put, put'⟩
  | ok member =>
    rw [found] at put put'
    refine Or.inr ⟨_, _, put.1, put'.1, ?_⟩
    exact {
      sound := put.2
      sound' := put'.2
      native := t.native
      native' := t.native'
      buffer := congrArg b t.buffer
      alike := ⟨_, _, rfl, rfl, .object type (sameMembers.append ((same member found g g').member false))⟩ }

/-- The same member. -/
theorem Conform.member (ref : MemberRef) (v : Scalar) :
    Conform (.object type) (Write.member ref v) (Write.member ref v) :=
  .putItem (putsItem_member ref v) (putsItem_member ref v) fun _ _ _ _ => rfl

theorem Conform.member? (ref : MemberRef) (v : Option Scalar) :
    Conform (.object type) (Write.member? ref v) (Write.member? ref v) := by
  cases v with
  | none => exact .nothing
  | some v => exact .member ref v

theorem lookUp_name {name : String} {member : Member} (h : lookUp type (.name name) = .ok member) :
    member.name = name := by
  rw [lookUp, getMember] at h
  cases hm : type.member? name with
  | none => rw [hm] at h; cases h
  | some own =>
    rw [hm] at h
    cases h
    exact member?_name hm

/-- A member that names a target, with different ones. -/
theorem Conform.target {name : String} (target : name ∈ targetMembers) {v v' : Scalar} (hv : v.cleared = v'.cleared) :
    Conform (.object type) (Write.member (.name name) v) (Write.member (.name name) v') := by
  refine .putItem (putsItem_member _ v) (putsItem_member _ v') fun member found _ _ => ?_
  exact sameIn_target (by rw [lookUp_name found]; exact target) hv

/-- The style of a role, under different themes. -/
theorem Conform.style (r : Style.Role) : Conform (.object type) (Write.style r) (Write.style r) :=
  .putItem (putsItem_resource _ _) (putsItem_resource _ _) fun _ found _ _ => sameIn_style (lookUp_name found) _ _

/-! ## Collections -/

/-- Ending the collections of two objects. -/
theorem Twins.endItems {members members' : List MemberPhrase}
    (t : Twins .items (.object type members :: sp) (.object type members' :: sp') g g')
    (same : SameMembers type members members') :
    ∃ h h' : Draft, Write.endItems.run g.writer = .ok () h.writer ∧ Write.endItems.run g'.writer = .ok () h'.writer ∧
      Twins (.object type) sp sp' h h' := by
  obtain ⟨member, opened, outerMode, items, items', hs, hs', sameItems⟩ := t.items
  have ended' := Draft.endItems_collection t.sound' hs'
  have sound' := (Draft.Move.endItems hs').sound t.sound'
  rw [t.buffer] at ended' sound'
  refine ⟨_, _, Draft.endItems_collection t.sound hs, ended', ?_⟩
  have last : SameItems (items ++ pieceItems (g.buffer.take false).1) (items' ++ pieceItems (g.buffer.take false).1) :=
    sameItems.append rfl
  have closed : SameMembers type
      ((OpenPhrase.collection member opened outerMode items).add (pieceItems (g.buffer.take false).1)).closed
      ((OpenPhrase.collection member opened outerMode items').add (pieceItems (g.buffer.take false).1)).closed := by
    rw [OpenPhrase.add, OpenPhrase.add, OpenPhrase.closed, OpenPhrase.closed]
    split
    · exact (last.sameIn member).member true
    · rfl
  exact {
    sound := (Draft.Move.endItems hs).sound t.sound
    sound' := sound'
    native := t.native
    native' := t.native'
    buffer := rfl
    alike := ⟨_, _, rfl, rfl, .object type (same.append closed)⟩ }

/-- **Collections.** -/
theorem Conform.collection (ref : MemberRef) (preserve : Bool) (hb : Conform .items body body') :
    Conform (.object type) (do Write.startItems ref preserve; body; Write.endItems)
      (do Write.startItems ref preserve; body'; Write.endItems) := by
  intro sp sp' g g' t
  obtain ⟨members, members', hs, hs', same⟩ := t.object
  have resolved := resolve_object hs ref
  have resolved' := resolve_object hs' ref
  cases hm : lookUp type ref with
  | error e =>
    rw [hm] at resolved resolved'
    exact Or.inl ⟨e, _, _, Write.run_bind_error (startItems_unresolved t.sound hs resolved preserve),
      Write.run_bind_error (startItems_unresolved t.sound' hs' resolved' preserve)⟩
  | ok member =>
    rw [hm] at resolved resolved'
    have started := Draft.startItems_object t.sound hs resolved preserve
    have started' := Draft.startItems_object t.sound' hs' resolved' preserve
    have sound' := (Draft.Move.startItems member (.ofPreserve preserve) hs').sound t.sound'
    rw [t.buffer] at started' sound'
    have inner : Twins .items (.object type members :: sp) (.object type members' :: sp') _ _ := {
      sound := (Draft.Move.startItems member (.ofPreserve preserve) hs).sound t.sound
      sound' := sound'
      native := t.native
      native' := t.native'
      buffer := rfl
      alike := ⟨_, _, rfl, rfl, .items member false g.buffer.mode rfl⟩ }
    rw [Write.run_bind_ok started, Write.run_bind_ok started']
    rcases hb _ _ _ _ inner with ⟨e, w, w', run, run'⟩ | ⟨h, h', run, run', inner⟩
    · exact Or.inl ⟨e, w, w', Write.run_bind_error run, Write.run_bind_error run'⟩
    · rw [Write.run_bind_ok run, Write.run_bind_ok run']
      exact Or.inr (inner.endItems same)

/-- Content is the collection of the content member. -/
theorem Conform.startContent (preserve : Bool) (hb : Conform .items body body') :
    Conform (.object type) (do Write.startContent preserve; body; Write.endItems)
      (do Write.startContent preserve; body'; Write.endItems) := by
  intro sp sp' g g' t
  obtain ⟨members, members', hs, hs', same⟩ := t.object
  have property := run_contentProperty_object hs
  have property' := run_contentProperty_object hs'
  rw [Write.startContent, bind_assoc, bind_assoc]
  cases hc : getContent type with
  | error e =>
    rw [hc] at property property'
    exact Or.inl ⟨e, _, _, Write.run_bind_error property, Write.run_bind_error property'⟩
  | ok member =>
    rw [hc] at property property'
    rw [Write.run_bind_ok property, Write.run_bind_ok property']
    exact Conform.collection (.resolved member) preserve hb sp sp' g g' t

theorem Conform.content {ws ws' : List (Write Unit)} (preserve : Bool)
    (hb : Conform .items (inOrder ws) (inOrder ws')) :
    Conform (.object type) (content preserve ws) (content preserve ws') := Conform.startContent preserve hb

theorem Conform.singleton (hm : Conform .items m m') : Conform .items (inOrder [m]) (inOrder [m']) :=
  hm.andThen .nothing

/-! ## Replayed markup -/

theorem conform_replayAttributes (fragment : String) (attributes : List Xml.Attribute) :
    Conform (.object type) (replayAttributes fragment attributes) (replayAttributes fragment attributes) := by
  induction attributes with
  | nil => exact .nothing
  | cons a rest ih =>
    rw [replayAttributes]
    cases a.space with
    | none => exact (Conform.member _ _).andThen ih
    | some space => exact .fail _

mutual

theorem conform_replayNode (fragment : String) : ∀ node : Xml.Node,
    Conform .items (replayNode fragment node) (replayNode fragment node)
  | .text s => .gather .writeText s
  | .element space name attributes children => by
    have inner := conform_replayNodes fragment children
    rw [replayNode]
    by_cases dotted : name.toList.contains '.' = true
    · rw [if_pos dotted]
      exact .fail _
    · rw [if_neg dotted]
      cases getTypeIn (space.getD presentationNamespace) name with
      | error e => exact .fail e
      | ok type =>
        have members : Conform (.object type) _ _ := conform_replayAttributes fragment attributes
        by_cases filled : children.any isSubstantial = true
        · rw [if_pos filled]
          have whole := Conform.object (members.andThen (.startContent false inner))
          simpa only [Write.lift, pure_bind, object, bind_assoc] using whole
        · rw [if_neg filled]
          exact .object members

theorem conform_replayNodes (fragment : String) : ∀ nodes : List Xml.Node,
    Conform .items (replayNodes fragment nodes) (replayNodes fragment nodes)
  | [] => .nothing
  | n :: ns => (conform_replayNode fragment n).andThen (conform_replayNodes fragment ns)

end

theorem conform_replayFragment (fragment : String) :
    Conform .items (replayFragment fragment) (replayFragment fragment) := by
  unfold replayFragment
  split
  · split
    · exact conform_replayNodes fragment _
    · exact .fail _
  · split
    · exact .gather .writeText _
    · exact .fail _

/-! ## Inlines -/

/-- Whether options differ in the theme and the base address alone. -/
structure Options.SameContent (o o' : Options) : Prop where
  lineJoin : o.lineJoin = o'.lineJoin
  rawMarkup : o.rawMarkup = o'.rawMarkup

variable {o o' : Options}

/-- Links with the same title or none, to any targets. -/
theorem conform_hyperlink (target target' : String) (title : Option String)
    (hb : Conform (.object .hyperlink) body body') :
    Conform .items (hyperlink target title body) (hyperlink target' title body') := by
  have uri : Conform (.object .hyperlink) (Write.member (.name "NavigateUri") (.uri target))
      (Write.member (.name "NavigateUri") (.uri target')) := .target (by decide) rfl
  have tip : Conform (.object .hyperlink) (Write.member (.name "ToolTip") (.text (title.getD target)))
      (Write.member (.name "ToolTip") (.text (title.getD target'))) := .target (by decide) rfl
  exact .object ((Conform.style .hyperlink).andThen (uri.andThen (tip.andThen hb)))

theorem conform_image (target target' : String) (title : Option String) :
    Conform .items (image target title) (image target' title) := by
  have source : Conform (.object .image) (Write.member (.name "Source") (.uri target))
      (Write.member (.name "Source") (.uri target')) := .target (by decide) rfl
  exact .object ((Conform.style .image).andThen ((Conform.member? _ _).andThen source))

mutual

/-- **Inlines.** -/
theorem conform_inline (same : o.SameContent o') : ∀ i : Inline,
    Conform .items (renderInline .builtIn o i) (renderInline .builtIn o' i)
  | .text s => .gather .writeText s
  | .lineBreak hard => by
    cases hard with
    | true => exact .lineBreak
    | false => exact .gather .writeChar _
  | .code s => .object ((Conform.style .code).andThen (.content true (.singleton (.gather .writeText s))))
  | .emphasis delimiter count children => by
    have inner := conform_inlines same children
    have handled : ∀ o, renderInline .builtIn o (.emphasis delimiter count children) =
        emphasis o (.emphasis delimiter count (renderInlines .builtIn o children)) := fun _ => rfl
    rw [handled, handled, emphasis, emphasis]
    cases emphasisTarget delimiter count with
    | element type => exact .object (.content false inner)
    | styled role => exact .object ((Conform.style role).andThen (.content false inner))
    | unwrapped => exact inner
  | .delimiter literal children => (Conform.gather .writeValue literal).andThen (conform_inlines same children)
  | .link url title isImage children => by
    cases isImage with
    | true => exact conform_image _ _ _
    | false => exact conform_hyperlink _ _ _ (.content false (conform_inlines same children))
  | .autolink url isEmail => conform_hyperlink _ _ _ (.content false (.singleton (.gather .writeText url)))
  | .raw s => by
    have handled : ∀ o, renderInline .builtIn o (.raw s) = rawInline o (.raw s) := fun _ => rfl
    rw [handled, handled, rawInline, rawInline, same.rawMarkup]
    cases o'.rawMarkup with
    | replay => exact conform_replayFragment s
    | text => exact .gather .writeValue s
    | skip => exact .nothing
  | .task checked => .object ((Conform.style .taskList).andThen (.member _ _))
  | .custom kind children => by
    rw [renderInline, renderInline]
    by_cases hk : kind ∈ inlineKinds
    · rw [handleInline_custom hk, handleInline_custom hk]
      exact .fail _
    · rw [handleInline, handleInline, inline?_eq_none hk]
      exact conform_inlines same children

theorem conform_inlines (same : o.SameContent o') : ∀ is : List Inline,
    Conform .items (inOrder (renderInlines .builtIn o is)) (inOrder (renderInlines .builtIn o' is))
  | [] => .nothing
  | i :: is => (conform_inline same i).andThen (conform_inlines same is)

end

/-! ## Blocks -/

theorem conform_codeLines (join : LineJoin) : ∀ lines,
    Conform .items (inOrder (codeLines join lines)) (inOrder (codeLines join lines))
  | [] => .nothing
  | [l] => .singleton (.gather .writeText l)
  | l :: k :: ls => by
    have separator : Conform .items join.separator join.separator := by
      cases join with
      | newline => exact .gather .writeChar _
      | lineBreak => exact .lineBreak
    exact (Conform.gather .writeText l).andThen (separator.andThen (conform_codeLines join (k :: ls)))

theorem conform_listMembers (ordered : Bool) (start : Option Nat) :
    Conform (.object .list) (listMembers ordered start) (listMembers ordered start) := by
  cases ordered with
  | true => exact (Conform.member _ _).andThen (.member? _ _)
  | false => exact .member _ _

theorem conform_columns : ∀ columns : List Column,
    Conform .items (inOrder (columns.map tableColumn)) (inOrder (columns.map tableColumn))
  | [] => .nothing
  | _ :: cs => (Conform.object (.member _ _)).andThen (conform_columns cs)

/-- Inlines among blocks. -/
theorem conform_wrapInlines (same : o.SameContent o') : ∀ is : List Inline,
    Conform .items (wrapInlines (renderInlines .builtIn o is)) (wrapInlines (renderInlines .builtIn o' is))
  | [] => .nothing
  | i :: is => .object (.content false (conform_inlines same (i :: is)))

mutual

/-- **Blocks.** -/
theorem conform_block (same : o.SameContent o') : ∀ b : Block,
    Conform .items (renderBlock .builtIn o b) (renderBlock .builtIn o' b)
  | .paragraph inlines => .object (.content false (conform_inlines same inlines))
  | .heading level inlines =>
    .object ((Conform.style (Style.Role.heading level)).andThen (.content false (conform_inlines same inlines)))
  | .codeBlock info lines => by
    have handled : ∀ o, renderBlock .builtIn o (.codeBlock info lines) = codeBlock o (.codeBlock info lines) :=
      fun _ => rfl
    rw [handled, handled, codeBlock, codeBlock, same.lineJoin]
    exact .object ((Conform.style .codeBlock).andThen (.content true (conform_codeLines o'.lineJoin lines)))
  | .list ordered start items =>
    .object ((conform_listMembers ordered start).andThen (.content false (conform_items same items)))
  | .quote blocks => .object ((Conform.style .quoteBlock).andThen (.content false (conform_blocks same blocks)))
  | .thematicBreak => .object (.style .thematicBreak)
  | .table columns rows => by
    have widths : Conform (.object .table) _ _ := .collection (.name "Columns") false (conform_columns columns)
    have inner : Conform (.object .tableRowGroup) _ _ := .content false (conform_rows same columns rows)
    have group : Conform (.object .table) _ _ := .content false (.singleton inner.object)
    have whole := Conform.object ((Conform.style .table).andThen (widths.andThen group))
    simp only [bind_assoc] at whole
    exact whole
  | .html literal => by
    have handled : ∀ o, renderBlock .builtIn o (.html literal) = htmlBlock o (.html literal) := fun _ => rfl
    rw [handled, handled, htmlBlock, htmlBlock, same.rawMarkup]
    cases o'.rawMarkup with
    | replay => exact conform_replayFragment _
    | text => exact .object (.content false (.singleton (.gather .writeText literal)))
    | skip => exact .nothing
  | .custom kind blocks inlines => by
    rw [renderBlock, renderBlock]
    by_cases hk : kind ∈ blockKinds
    · rw [handleBlock_custom hk, handleBlock_custom hk]
      exact .fail _
    · rw [handleBlock, handleBlock, block?_eq_none hk]
      exact (conform_blocks same blocks).andThen (conform_wrapInlines same inlines)

theorem conform_blocks (same : o.SameContent o') : ∀ bs : List Block,
    Conform .items (inOrder (renderBlocks .builtIn o bs)) (inOrder (renderBlocks .builtIn o' bs))
  | [] => .nothing
  | b :: bs => (conform_block same b).andThen (conform_blocks same bs)

theorem conform_items (same : o.SameContent o') : ∀ items : List (List Block),
    Conform .items
      (inOrder ((renderItems .builtIn o items).map fun blocks => object .listItem (content false blocks)))
      (inOrder ((renderItems .builtIn o' items).map fun blocks => object .listItem (content false blocks)))
  | [] => .nothing
  | i :: is => (Conform.object (.content false (conform_blocks same i))).andThen (conform_items same is)

theorem conform_rows (same : o.SameContent o') (columns : List Column) : ∀ rows : List (Row Block),
    Conform .items (inOrder ((renderRows .builtIn o rows).map (tableRow columns)))
      (inOrder ((renderRows .builtIn o' rows).map (tableRow columns)))
  | [] => .nothing
  | r :: rs => (conform_row same columns r).andThen (conform_rows same columns rs)

theorem conform_row (same : o.SameContent o') (columns : List Column) : ∀ r : Row Block,
    Conform .items (tableRow columns (renderRow .builtIn o r)) (tableRow columns (renderRow .builtIn o' r))
  | ⟨isHeader, cells⟩ => by
    have inner : Conform (.object .tableRow) _ _ := .content false (conform_cells same columns 0 cells)
    cases isHeader with
    | true => exact .object ((Conform.style .tableHeader).andThen inner)
    | false => exact .object inner

theorem conform_cells (same : o.SameContent o') (columns : List Column) (position : Nat) : ∀ cells : List (Cell Block),
    Conform .items (inOrder (tableCells columns position (renderCells .builtIn o cells)))
      (inOrder (tableCells columns position (renderCells .builtIn o' cells)))
  | [] => .nothing
  | c :: cs => (conform_cell same columns position c).andThen (conform_cells same columns (position + 1) cs)

theorem conform_cell (same : o.SameContent o') (columns : List Column) (position : Nat) : ∀ c : Cell Block,
    Conform .items (tableCell columns position (renderCell .builtIn o c))
      (tableCell columns position (renderCell .builtIn o' c))
  | ⟨_, _, _, blocks⟩ => by
    have inner : Conform (.object .tableCell) _ _ := .content false (conform_blocks same blocks)
    exact .object ((Conform.style .tableCell).andThen ((Conform.member? _ _).andThen ((Conform.member? _ _).andThen
      ((Conform.member? _ _).andThen inner))))

end

/-! ## Documents -/

/-- The graph of what was written, once its root is closed. -/
theorem documentGraph_eq_ok {h : Handlers} {d : Document} {root : ObjectPhrase}
    (run : (writeDocument h o d).run { mode := .native, theme := o.theme } = .ok () g.writer) (hs : g.spine = [])
    (hr : g.root = some root) : documentGraph h o d = .ok ⟨g.decls, root.object⟩ := by
  have sent : g.signals = g.decls.map .namespaceDecl ++ root.signals := by
    simp [Draft.signals, hs, hr, spineSignals]
  have signals : documentSignals h o .native d = .ok (g.decls.map .namespaceDecl ++ root.signals) := by
    rw [← sent]
    simp [documentSignals, run, Writer.finish, Draft.writer, hs]
  rw [documentGraph, signals]
  exact Graph.ofSignals_phrase g.decls root

theorem documentGraph_eq_error {h : Handlers} {d : Document} {e : RenderError} {w : Writer}
    (run : (writeDocument h o d).run { mode := .native, theme := o.theme } = .error e w) :
    documentGraph h o d = .error e := by
  rw [documentGraph, documentSignals, run]
  rfl

theorem twins_rootDraft (o o' : Options) :
    Twins (.object .flowDocument) [] [] (rootDraft o .native) (rootDraft o' .native) where
  sound := (rootDraft_start o .native).1.sound
  sound' := (rootDraft_start o' .native).1.sound
  native := rfl
  native' := rfl
  buffer := rfl
  alike := ⟨_, _, rfl, rfl, .object .flowDocument rfl⟩

/-- **Themes and base addresses do not change content.** With the built-in handlers, and under options that join lines
and treat raw markup alike, a document fails with the same error or its graphs have the same root, but for the keys of
styles and the targets of links and images. -/
theorem documentGraph_unthemed (lineJoin : o.lineJoin = o'.lineJoin) (rawMarkup : o.rawMarkup = o'.rawMarkup)
    (d : Document) :
    (documentGraph .builtIn o d).map (·.root.unthemed) = (documentGraph .builtIn o' d).map (·.root.unthemed) := by
  have filled : Conform (.object .flowDocument) (do Write.style .document; content false (renderBlocks .builtIn o d))
      (do Write.style .document; content false (renderBlocks .builtIn o' d)) :=
    (Conform.style .document).andThen (.content false (conform_blocks ⟨lineJoin, rawMarkup⟩ d))
  have opened := (rootDraft_start o .native).2
  have opened' := (rootDraft_start o' .native).2
  rcases filled _ _ _ _ (twins_rootDraft o o') with ⟨e, w, w', run, run'⟩ | ⟨g, g', run, run', twins⟩
  · rw [documentGraph_eq_error ((opened _).trans (Write.run_bind_error run)),
      documentGraph_eq_error ((opened' _).trans (Write.run_bind_error run'))]
  · obtain ⟨members, members', hs, hs', same⟩ := twins.object
    have ended := Draft.endObject_root (twins.sound.root_eq_none hs) hs
    have ended' := Draft.endObject_root (twins.sound'.root_eq_none hs') hs'
    rw [documentGraph_eq_ok ((opened _).trans ((Write.run_bind_ok run).trans ended)) rfl rfl,
      documentGraph_eq_ok ((opened' _).trans ((Write.run_bind_ok run').trans ended')) rfl rfl]
    simp only [Except.map, ObjectPhrase.object, Object.unthemed]
    rw [same]

/-- A relative link under another base address and another style of links: what is sent differs, and the graphs are the
same once unthemed. -/
theorem documentGraph_unthemed_link :
    let elsewhere : Options := {
      baseUri := some { scheme := "http", authority := some { host := "a" }, path := ['/', 'b'] }
      theme := { overrides := ⟨[(.hyperlink, ⟨"Plain"⟩)]⟩ } }
    let d : Document := [.paragraph [.link "c" none false [.text "d"]]]
    ({} : Options).lineJoin = elsewhere.lineJoin ∧ ({} : Options).rawMarkup = elsewhere.rawMarkup ∧
      (documentGraph .builtIn {} d).map (·.root.unthemed) = (documentGraph .builtIn elsewhere d).map (·.root.unthemed) ∧
      (documentGraph .builtIn elsewhere d).isOk = true ∧
      (documentSignals .builtIn {} .native d).toOption ≠ (documentSignals .builtIn elsewhere .native d).toOption := by
  intro elsewhere d
  exact ⟨rfl, rfl, @documentGraph_unthemed {} elsewhere rfl rfl d, by decide +kernel, by decide +kernel⟩

end FlowDoc.Render
