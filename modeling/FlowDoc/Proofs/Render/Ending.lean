import FlowDoc.Proofs.Render.Composed

/-!
# Where writing ends

`Ends mode top m fault` says where an operation ends that starts with a collection or an object innermost: with the
same phrase innermost if there is no fault, at the error otherwise, and always in a sound draft. Of two operations the
first fault counts (`Ends.andThen`), so the fault of what is composed can be read off its parts. A document ends with
its root closed, or at the fault of what is in the root (**`writeDocument_ends`**).
-/

namespace FlowDoc.Render

open Xaml

/-! ## The triple -/

/-- Whether a phrase is what a top says is innermost. -/
def Top.Fits : Top → OpenPhrase → Prop
  | .items, .collection _ _ _ _ => True
  | .object type, .object type' _ => type' = type
  | .items, .object _ _ | .items, .member _ _ => False
  | .object _, .member _ _ | .object _, .collection _ _ _ _ => False

/-- A sound draft with something innermost, over phrases that stay. -/
structure Stands (mode : ValueMode) (top : Top) (sp : List OpenPhrase) (g : Draft) : Prop where
  sound : g.Sound
  mode_eq : g.mode = mode
  fits : ∃ p, g.spine = p :: sp ∧ top.Fits p

/-- Where an operation ends: with the same innermost, or at a fault. -/
def Ends (mode : ValueMode) (top : Top) (m : Write Unit) (fault : Option RenderError) : Prop :=
  ∀ (sp : List OpenPhrase) (g : Draft), Stands mode top sp g →
    match fault with
    | none => ∃ g' : Draft, m.run g.writer = .ok () g'.writer ∧ Stands mode top sp g'
    | some e => ∃ g' : Draft, m.run g.writer = .error e g'.writer ∧ g'.Sound

/-- The error of a look-up. -/
def faultOf {α : Type} : Except RenderError α → Option RenderError
  | .ok _ => none
  | .error e => some e

variable {mode : ValueMode} {top : Top} {type : ElementType} {m n body : Write Unit} {fault fault' : Option RenderError}

theorem Stands.object {sp : List OpenPhrase} {g : Draft} (h : Stands mode (.object type) sp g) :
    ∃ members, g.spine = .object type members :: sp := by
  obtain ⟨p, hs, hp⟩ := h.fits
  cases p with
  | object type' members => cases hp; exact ⟨members, hs⟩
  | member _ _ => cases hp
  | collection _ _ _ _ => cases hp

theorem Stands.items {sp : List OpenPhrase} {g : Draft} (h : Stands mode .items sp g) :
    ∃ member opened outerMode items, g.spine = .collection member opened outerMode items :: sp := by
  obtain ⟨p, hs, hp⟩ := h.fits
  cases p with
  | object _ _ => cases hp
  | member _ _ => cases hp
  | collection member opened outerMode items => exact ⟨member, opened, outerMode, items, hs⟩

/-! ## Rules -/

theorem Ends.nothing : Ends mode top (pure ()) none := fun _ g h => ⟨g, rfl, h⟩

theorem Ends.fail (e : RenderError) : Ends mode top (throw e) (some e) := fun _ g h => ⟨g, rfl, h.sound⟩

/-- The first fault counts. -/
theorem Ends.andThen (hm : Ends mode top m fault) (hn : Ends mode top n fault') :
    Ends mode top (do m; n) (fault.or fault') := by
  intro sp g h
  have first := hm sp g h
  cases fault with
  | some e =>
    obtain ⟨g', run, sound⟩ := first
    exact ⟨g', Write.run_bind_error run, sound⟩
  | none =>
    obtain ⟨g', run, stands⟩ := first
    rw [Option.none_or, Write.run_bind_ok run]
    exact hn sp g' stands

theorem Ends.gather (operation : Operation) (s : String) : Ends mode .items (Write.gather operation s) none := by
  intro sp g h
  obtain ⟨member, opened, outerMode, items, hs⟩ := h.items
  refine ⟨_, Draft.gather_container hs rfl operation s, (Draft.Move.text s hs rfl).sound h.sound, h.mode_eq, ?_⟩
  exact ⟨_, rfl, trivial⟩

/-- Starting an object in a collection. -/
theorem Stands.startObject {sp : List OpenPhrase} {g : Draft} (h : Stands mode .items sp g) (type : ElementType) :
    ∃ (member : Member) (outerMode : Text.SpaceMode) (items : List ItemPhrase) (g' : Draft),
      (Write.startObjectOf type).run g.writer = .ok () g'.writer ∧
      Stands mode (.object type) (.collection member true outerMode items :: sp) g' := by
  obtain ⟨member, opened, outerMode, items, hs⟩ := h.items
  refine ⟨member, outerMode, items ++ pieceItems (g.buffer.take true).1, _,
    Draft.startObjectOf_child h.sound hs rfl type, ?_⟩
  exact ⟨(Draft.Move.startChild type hs rfl).sound h.sound, h.mode_eq, _, rfl, rfl⟩

/-- Ending an object in a collection. -/
theorem Stands.endObject {member : Member} {outerMode : Text.SpaceMode} {items : List ItemPhrase}
    {sp : List OpenPhrase} {g : Draft}
    (h : Stands mode (.object type) (.collection member true outerMode items :: sp) g) :
    ∃ g' : Draft, Write.endObject.run g.writer = .ok () g'.writer ∧ Stands mode .items sp g' := by
  obtain ⟨members, hs⟩ := h.object
  refine ⟨_, Draft.endObject_child hs rfl rfl, (Draft.Move.endChild hs).sound h.sound, h.mode_eq, ?_⟩
  exact ⟨_, rfl, trivial⟩

/-- **Objects.** An object in a collection has the fault of its body. -/
theorem Ends.object (hb : Ends mode (.object type) body fault) : Ends mode .items (object type body) fault := by
  intro sp g h
  obtain ⟨member, outerMode, items, g₁, started, stands₁⟩ := h.startObject type
  have built := hb _ g₁ stands₁
  rw [Render.object, Write.run_bind_ok started]
  cases fault with
  | some e =>
    obtain ⟨g₂, run, sound⟩ := built
    exact ⟨g₂, Write.run_bind_error run, sound⟩
  | none =>
    obtain ⟨g₂, run, stands₂⟩ := built
    rw [Write.run_bind_ok run]
    exact stands₂.endObject

theorem Ends.lineBreak : Ends mode .items Write.lineBreak none := by
  have empty : Ends mode .items (Render.object .lineBreak (pure ())) none := Ends.object Ends.nothing
  exact empty

/-! ## Members -/

/-- The member that a reference stands for in an object of a type. -/
def lookUp (type : ElementType) : MemberRef → Except RenderError Member
  | .name name => getMember type name
  | .attached owner name => getAttached owner name
  | .resolved member => .ok member

theorem resolve_object {g : Draft} {members : List MemberPhrase} {sp : List OpenPhrase}
    (hs : g.spine = .object type members :: sp) (ref : MemberRef) :
    (Write.resolve ref).run g.writer =
      match lookUp type ref with
      | .ok m => .ok m g.writer
      | .error e => .error e g.writer := by
  cases ref with
  | name name =>
    have current : g.writer.currentType? = some type := by
      simp [Writer.currentType?, Draft.writer, hs, OpenPhrase.scope]
    simp only [Write.resolve, EStateM.run_bind, EStateM.run_get, current, lookUp]
    cases getMember type name <;> rfl
  | attached owner name =>
    simp only [Write.resolve, lookUp]
    cases getAttached owner name <;> rfl
  | resolved member => rfl

/-- Why a value cannot be the value of a member, if it cannot. -/
def valueFault : ValueMode → Member → Scalar → Option RenderError
  | .native, _, _ => none
  | .text, m, v => if m.form.accepts v then none else some (.conversion m.name v.debug)

/-- Why a value cannot be written as a member, if it cannot. -/
def memberFault (mode : ValueMode) (type : ElementType) (ref : MemberRef) (v : Scalar) : Option RenderError :=
  match lookUp type ref with
  | .ok m => valueFault mode m v
  | .error e => some e

theorem faultOf_memberItem {theme : Style.Theme} {v : Scalar} (hv : ∀ key, v ≠ .resourceKey key) (m : Member) :
    faultOf (memberItem mode theme m v) = valueFault mode m v := by
  cases mode with
  | native => rfl
  | text =>
    have spelled : memberItem .text theme m v = (m.form.spell m.name v).map (.value <| .text ·) := by
      cases v with
      | resourceKey key => exact absurd rfl (hv key)
      | _ => rfl
    rw [spelled, ValueForm.spell, valueFault]
    split <;> rfl

theorem Ends.member (ref : MemberRef) {v : Scalar} (hv : ∀ key, v ≠ .resourceKey key) :
    Ends mode (.object type) (Write.member ref v) (memberFault mode type ref v) := by
  intro sp g h
  obtain ⟨members, hs⟩ := h.object
  obtain rfl := h.mode_eq
  have resolved := resolve_object hs ref
  unfold memberFault
  cases hm : lookUp type ref with
  | error e =>
    rw [hm] at resolved
    exact ⟨g, Write.run_bind_error resolved, h.sound⟩
  | ok m =>
    rw [hm] at resolved
    have written := Draft.member_object h.sound hs resolved v
    have fault : faultOf (memberItem g.mode g.theme m v) = valueFault g.mode m v := faultOf_memberItem hv m
    simp only [← fault]
    cases hi : memberItem g.mode g.theme m v with
    | error e =>
      rw [hi] at written
      exact ⟨_, written, (Draft.Move.startMember m hs).sound h.sound⟩
    | ok i =>
      rw [hi] at written
      have buffer : itemBuffer g.buffer i = g.buffer ∨ itemBuffer g.buffer i = (g.buffer.take true).2 := by
        cases i with
        | object o => exact Or.inr rfl
        | value v => exact Or.inl rfl
      exact ⟨_, written, (Draft.Move.put m i hs (memberItem_isProper hi) buffer).sound h.sound, rfl, _, rfl, rfl⟩

/-- No member is started that is not found. -/
theorem startMember_unresolved {g : Draft} {members : List MemberPhrase} {sp : List OpenPhrase} (h : g.Sound)
    (hs : g.spine = .object type members :: sp) {ref : MemberRef} {e : RenderError}
    (he : (Write.resolve ref).run g.writer = .error e g.writer) :
    (Write.startMember ref).run g.writer = .error e g.writer := by
  have quiet := h.not_pending hs
  have scopes : g.writer.scopes = .object type :: sp.map OpenPhrase.scope := Draft.writer_scopes hs
  simp only [Write.startMember, EStateM.run_bind, EStateM.run_get, scopes, quiet, Bool.false_eq_true, if_false, he]

theorem startItems_unresolved {g : Draft} {members : List MemberPhrase} {sp : List OpenPhrase} (h : g.Sound)
    (hs : g.spine = .object type members :: sp) {ref : MemberRef} {e : RenderError}
    (he : (Write.resolve ref).run g.writer = .error e g.writer) (preserve : Bool) :
    (Write.startItems ref preserve).run g.writer = .error e g.writer := by
  have quiet := h.not_pending hs
  have scopes : g.writer.scopes = .object type :: sp.map OpenPhrase.scope := Draft.writer_scopes hs
  simp only [Write.startItems, EStateM.run_bind, EStateM.run_get, scopes, quiet, Bool.false_eq_true, if_false, he]

/-- A reference to a resource fails only where there is no such member. -/
theorem Ends.resource (ref : MemberRef) (style : Style.Ref) :
    Ends mode (.object type) (Write.resource ref style) (faultOf (lookUp type ref)) := by
  intro sp g h
  obtain ⟨members, hs⟩ := h.object
  have resolved := resolve_object hs ref
  cases hm : lookUp type ref with
  | error e =>
    rw [hm] at resolved
    refine ⟨g, ?_, h.sound⟩
    rw [Write.resource, Write.run_get_bind]
    exact Write.run_bind_error (startMember_unresolved h.sound hs resolved)
  | ok m =>
    rw [hm] at resolved
    obtain ⟨i, hi⟩ := Draft.memberItem_key g.mode g.theme (g.theme.keyOf style)
    have written := Draft.resource_object h.sound hs resolved hi
    have proper :
        (ItemPhrase.object (.mk .staticResourceExtension [.mk .positionalParameters false [i]])).IsProper := by
      simp [ItemPhrase.IsProper, ObjectPhrase.IsProper, MembersProper, MemberPhrase.IsProper, Separated, ItemsProper,
        memberItem_isProper hi]
    exact ⟨_, written, (Draft.Move.put m _ hs proper (Or.inr rfl)).sound h.sound, h.mode_eq, _, rfl, rfl⟩

/-! ## Collections -/

/-- Ending a collection of an object. -/
theorem Stands.endItems {members : List MemberPhrase} {sp : List OpenPhrase} {g : Draft}
    (h : Stands mode .items (.object type members :: sp) g) :
    ∃ g' : Draft, Write.endItems.run g.writer = .ok () g'.writer ∧ Stands mode (.object type) sp g' := by
  obtain ⟨member, opened, outerMode, items, hs⟩ := h.items
  refine ⟨_, Draft.endItems_collection h.sound hs, (Draft.Move.endItems hs).sound h.sound, h.mode_eq, ?_⟩
  exact ⟨_, rfl, rfl⟩

/-- **Collections.** A collection of an object fails where there is no such member; else it has the fault of its
body. -/
theorem Ends.collection (ref : MemberRef) (preserve : Bool) (hb : Ends mode .items body fault) :
    Ends mode (.object type) (do Write.startItems ref preserve; body; Write.endItems)
      ((faultOf (lookUp type ref)).or fault) := by
  intro sp g h
  obtain ⟨members, hs⟩ := h.object
  have resolved := resolve_object hs ref
  cases hm : lookUp type ref with
  | error e =>
    rw [hm] at resolved
    exact ⟨g, Write.run_bind_error (startItems_unresolved h.sound hs resolved preserve), h.sound⟩
  | ok m =>
    rw [hm] at resolved
    have started := Draft.startItems_object h.sound hs resolved preserve
    have stands₁ : Stands mode .items (.object type members :: sp)
        (g.withSpine (.collection m false g.buffer.mode [] :: .object type members :: sp)
          (.empty (.ofPreserve preserve))) :=
      ⟨(Draft.Move.startItems m (.ofPreserve preserve) hs).sound h.sound, h.mode_eq, _, rfl, trivial⟩
    have filled := hb _ _ stands₁
    rw [Write.run_bind_ok started]
    cases fault with
    | some e =>
      obtain ⟨g₂, run, sound⟩ := filled
      exact ⟨g₂, Write.run_bind_error run, sound⟩
    | none =>
      obtain ⟨g₂, run, stands₂⟩ := filled
      rw [Write.run_bind_ok run]
      exact stands₂.endItems

theorem run_contentProperty_object {g : Draft} {members : List MemberPhrase} {sp : List OpenPhrase}
    (hs : g.spine = .object type members :: sp) :
    Write.contentProperty.run g.writer =
      match getContent type with
      | .ok m => .ok m g.writer
      | .error e => .error e g.writer := by
  have current : g.writer.currentType? = some type := by
    simp [Writer.currentType?, Draft.writer, hs, OpenPhrase.scope]
  simp only [Write.contentProperty, EStateM.run_bind, EStateM.run_get, current, Write.lift]
  cases getContent type <;> rfl

/-- Content is the collection of the content member. -/
theorem Ends.content (preserve : Bool) (hb : Ends mode .items body fault) :
    Ends mode (.object type) (do Write.startContent preserve; body; Write.endItems)
      ((faultOf (getContent type)).or fault) := by
  intro sp g h
  obtain ⟨members, hs⟩ := h.object
  have property := run_contentProperty_object hs
  rw [Write.startContent, bind_assoc]
  cases hc : getContent type with
  | error e =>
    rw [hc] at property
    exact ⟨g, Write.run_bind_error property, h.sound⟩
  | ok m =>
    rw [hc] at property
    rw [Write.run_bind_ok property]
    exact Ends.collection (.resolved m) preserve hb sp g h

/-! ## Documents -/

/-- The draft in which the root of a document has just been started. -/
def rootDraft (o : Options) (mode : ValueMode) : Draft where
  mode := mode
  theme := o.theme
  decls := documentNamespaces o
  spine := [.object .flowDocument []]
  buffer := ((Text.Buffer.empty .collapse).take true).2

/-- What is written before and after the root is started. -/
theorem rootDraft_start (o : Options) (mode : ValueMode) :
    Stands mode (.object .flowDocument) [] (rootDraft o mode) ∧
      ∀ body : Write Unit, (do
        Write.declareNamespace "" presentationNamespace
        Write.declareNamespace "x" languageNamespace
        Write.declareNamespace o.theme.keyClass.pre o.theme.keyClass.namespaceUri
        Write.startObjectOf .flowDocument
        body).run { mode, theme := o.theme } = body.run (rootDraft o mode).writer := by
  have start := Draft.sound_start mode o.theme
  have declared := (Draft.Move.declare ⟨"", presentationNamespace⟩ rfl rfl).sound start
  have declared := (Draft.Move.declare ⟨"x", languageNamespace⟩ rfl rfl).sound declared
  have sound := (Draft.Move.declare ⟨o.theme.keyClass.pre, o.theme.keyClass.namespaceUri⟩ rfl rfl).sound declared
  constructor
  · exact ⟨(Draft.Move.startRoot .flowDocument rfl rfl).sound sound, rfl, _, rfl, rfl⟩
  · intro body
    rw [← Draft.writer_start, Write.run_bind_ok (Draft.declareNamespace_start rfl rfl "" presentationNamespace),
      Write.run_bind_ok (Draft.declareNamespace_start rfl rfl "x" languageNamespace),
      Write.run_bind_ok (Draft.declareNamespace_start rfl rfl o.theme.keyClass.pre o.theme.keyClass.namespaceUri),
      Write.run_bind_ok (Draft.startObjectOf_root sound rfl rfl .flowDocument)]
    rfl

/-- Where writing a document ends: with its root closed, or at a fault. -/
def DocumentEnds (h : Handlers) (o : Options) (mode : ValueMode) (d : Document) : Option RenderError → Prop
  | none => ∃ (g : Draft) (root : ObjectPhrase),
      (writeDocument h o d).run { mode, theme := o.theme } = .ok () g.writer ∧ g.Sound ∧ g.spine = [] ∧
        g.root = some root
  | some e => ∃ g : Draft, (writeDocument h o d).run { mode, theme := o.theme } = .error e g.writer ∧ g.Sound

/-- **Documents.** A document has the fault of what is in its root. -/
theorem writeDocument_ends {h : Handlers} {o : Options} {d : Document}
    (hb : Ends mode (.object .flowDocument) (do Write.style .document; content false (renderBlocks h o d)) fault) :
    DocumentEnds h o mode d fault := by
  obtain ⟨stands, opened⟩ := rootDraft_start o mode
  have built := hb [] _ stands
  cases fault with
  | some e =>
    obtain ⟨g, run, sound⟩ := built
    exact ⟨g, (opened _).trans (Write.run_bind_error run), sound⟩
  | none =>
    obtain ⟨g, run, stands⟩ := built
    obtain ⟨members, hs⟩ := stands.object
    have ended := Draft.endObject_root (stands.sound.root_eq_none hs) hs
    refine ⟨_, _, (opened _).trans ((Write.run_bind_ok run).trans ended), ?_, rfl, rfl⟩
    exact (Draft.Move.endRoot hs).sound stands.sound

end FlowDoc.Render
