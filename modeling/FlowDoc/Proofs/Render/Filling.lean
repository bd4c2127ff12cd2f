import FlowDoc.Proofs.Render.Translation

/-!
# What operations put where

Triples over the operations of a writer. `Adds m flow` says that in an open collection `m` succeeds and puts `flow` into
it, whatever the writer takes. For one that takes typed values `Puts m flow` says so if `m` succeeds, and
`Builds type m members` that in an open object of a type it adds members. They compose (`Puts.bind`, `Builds.bind`), and
an object around a body that builds members puts one child (`Puts.object`).
-/

namespace FlowDoc.Render

open Xaml
open Text (SpaceMode Buffer Flow Laid Gathers layout)

/-- In an open collection an operation succeeds and puts a flow into it. -/
def Adds (m : Write Unit) (flow : List (Flow ObjectPhrase)) : Prop :=
  ∀ (g : Draft) (mode outerMode : SpaceMode) (member : Member) (opened : Bool) (before : List (Flow ObjectPhrase))
    (items : List (Laid ObjectPhrase)) (sp : List OpenPhrase), g.Sound →
    g.spine = .collection member opened outerMode (items.map .ofLaid) :: sp → Gathers mode before items g.buffer →
    ∃ (opened' : Bool) (items' : List (Laid ObjectPhrase)) (b : Buffer),
      m.run g.writer = .ok () (g.withSpine (.collection member opened' outerMode (items'.map .ofLaid) :: sp) b).writer ∧
      (g.withSpine (.collection member opened' outerMode (items'.map .ofLaid) :: sp) b).Sound ∧
      Gathers mode (before ++ flow) items' b

/-- If an operation succeeds in an open collection, it puts a flow into it. -/
def Puts (theme : Style.Theme) (m : Write Unit) (flow : List (Flow ObjectPhrase)) : Prop :=
  ∀ (g : Draft) (w : Writer) (mode outerMode : SpaceMode) (member : Member) (opened : Bool)
    (before : List (Flow ObjectPhrase)) (items : List (Laid ObjectPhrase)) (sp : List OpenPhrase),
    g.Sound → g.mode = .native → g.theme = theme →
    g.spine = .collection member opened outerMode (items.map .ofLaid) :: sp → Gathers mode before items g.buffer →
    m.run g.writer = .ok () w →
    ∃ (opened' : Bool) (items' : List (Laid ObjectPhrase)) (b : Buffer),
      w = (g.withSpine (.collection member opened' outerMode (items'.map .ofLaid) :: sp) b).writer ∧
      (g.withSpine (.collection member opened' outerMode (items'.map .ofLaid) :: sp) b).Sound ∧
      Gathers mode (before ++ flow) items' b

/-- If an operation succeeds in an open object, it adds members to it, and leaves the buffer at the start of a gap. -/
def Builds (theme : Style.Theme) (type : ElementType) (m : Write Unit) (more : List MemberPhrase) : Prop :=
  ∀ (g : Draft) (w : Writer) (mode : SpaceMode) (members : List MemberPhrase) (sp : List OpenPhrase),
    g.Sound → g.mode = .native → g.theme = theme → g.spine = .object type members :: sp → g.buffer.AtGap mode false →
    m.run g.writer = .ok () w →
    ∃ b : Buffer, w = (g.withSpine (.object type (members ++ more) :: sp) b).writer ∧
      (g.withSpine (.object type (members ++ more) :: sp) b).Sound ∧ b.AtGap mode false

variable {theme : Style.Theme} {m n : Write Unit} {flow flow' : List (Flow ObjectPhrase)} {type : ElementType}
  {more more' : List MemberPhrase}

/-! ## Members -/

theorem Builds.nil : Builds theme type (pure ()) [] := by
  intro g w mode members sp h _ _ hs hb hw
  cases hw
  refine ⟨g.buffer, ?_, ?_, hb⟩
  · rw [List.append_nil, ← hs]; rfl
  · rw [List.append_nil, ← hs]; exact h

theorem Builds.bind (hm : Builds theme type m more) (hn : Builds theme type n more') :
    Builds theme type (do m; n) (more ++ more') := by
  intro g w mode members sp h hmode ht hs hb hw
  obtain ⟨_, v, first, second⟩ := Write.run_bind_eq_ok hw
  obtain ⟨b, rfl, h₁, hb₁⟩ := hm g v mode members sp h hmode ht hs hb first
  obtain ⟨b', rfl, h₂, hb₂⟩ := hn _ w mode _ sp h₁ hmode ht rfl hb₁ second
  exact ⟨b', by rw [← List.append_assoc]; rfl, by rw [← List.append_assoc]; exact h₂, hb₂⟩

/-- An operation that never succeeds. -/
def Fails (m : Write Unit) : Prop := ∀ v, ∃ e w, m.run v = .error e w

theorem Puts.of_fails (h : Fails m) : Puts theme m flow := by
  intro g w mode outerMode member opened before items sp _ _ _ _ _ hw
  obtain ⟨e, v, he⟩ := h g.writer
  rw [he] at hw
  cases hw

theorem Builds.of_fails (h : Fails m) : Builds theme type m more := by
  intro g w mode members sp _ _ _ _ _ hw
  obtain ⟨e, v, he⟩ := h g.writer
  rw [he] at hw
  cases hw

/-- In the object the name of a member is looked up in the object's type. -/
theorem resolve_name {g : Draft} {members : List MemberPhrase} {sp : List OpenPhrase} {name : String} {m : Member}
    (hs : g.spine = .object type members :: sp) (hm : (Write.resolve (.name name)).run g.writer = .ok m g.writer) :
    type.member? name = some m := by
  have current : g.writer.currentType? = some type := by simp [Writer.currentType?, Draft.writer, hs, OpenPhrase.scope]
  simp only [Write.resolve, EStateM.run_bind, EStateM.run_get, current, getMember] at hm
  cases ht : type.member? name with
  | none => rw [ht] at hm; cases hm
  | some m' => rw [ht] at hm; cases hm; rfl

theorem resolve_attached {g : Draft} {owner name : String} {m : Member}
    (hm : (Write.resolve (.attached owner name)).run g.writer = .ok m g.writer) :
    (getAttached owner name).toOption = some m := by
  cases ha : getAttached owner name with
  | error e => rw [Write.resolve, ha] at hm; cases hm
  | ok m' => rw [Write.resolve, ha] at hm; cases hm; rfl

/-- A member with a value that is taken as it is. -/
theorem Builds.of_member {ref : MemberRef} {v : Scalar} {member? : Option Member}
    (hr : ∀ (g : Draft) (members : List MemberPhrase) (sp : List OpenPhrase) (m : Member),
      g.spine = .object type members :: sp → (Write.resolve ref).run g.writer = .ok m g.writer → member? = some m) :
    Builds theme type (Write.member ref v) (itemMember member? (.value v)) := by
  intro g w mode members sp h hmode _ hs hb hw
  rcases g.object_or_fails ref with ⟨t, ms, sp', m, hs', hm⟩ | hf
  · have written := Draft.member_object h hs' hm v
    rw [hs] at hs'
    cases hs'
    have item := hr g members sp m hs hm
    simp only [hmode, memberItem_native] at written
    rw [written] at hw
    cases hw
    have sound := (Draft.Move.put m (.value v) hs trivial (Or.inl rfl)).sound h
    subst item
    exact ⟨g.buffer, rfl, sound, hb⟩
  · obtain ⟨e, -, he⟩ := Draft.member_fails h hf v
    rw [he] at hw
    cases hw

theorem Builds.member (name : String) (v : Scalar) :
    Builds theme type (Write.member (.name name) v) (valueMember type name v) :=
  Builds.of_member fun _ _ _ _ hs hm => resolve_name hs hm

theorem Builds.member? (name : String) (v : Option Scalar) :
    Builds theme type (Write.member? (.name name) v) (valueMember? type name v) := by
  cases v with
  | none => exact Builds.nil
  | some v => exact Builds.member name v

theorem Builds.style (r : Style.Role) : Builds theme type (Write.style r) (styleMember theme type r) := by
  intro g w mode members sp h hmode ht hs hb hw
  rw [Write.style] at hw
  rcases g.object_or_fails (.name "Style") with ⟨t, ms, sp', m, hs', hm⟩ | hf
  · have item : memberItem g.mode g.theme .positionalParameters (.resourceKey (g.theme.keyOf (.role r))) =
        .ok (.value (.resourceKey (theme.resolve r))) := by rw [hmode, ht]; rfl
    have written := Draft.resource_object h hs' hm item
    rw [hs] at hs'
    cases hs'
    have name := resolve_name hs hm
    rw [written] at hw
    cases hw
    have sound := (Draft.Move.put m (.object (.mk .staticResourceExtension
      [.mk .positionalParameters false [.value (.resourceKey (theme.resolve r))]])) hs
      (by simp [ItemPhrase.IsProper, ObjectPhrase.IsProper, MembersProper, MemberPhrase.IsProper, Separated,
        ItemsProper])
      (Or.inr rfl)).sound h
    have gap := Buffer.atGap_take hb.mode fun _ => hb.spaceDue
    refine ⟨(g.buffer.take true).2, ?_, ?_, gap⟩
    · rw [styleMember, name]; rfl
    · rw [styleMember, name]; exact sound
  · obtain ⟨e, -, he⟩ := Draft.resource_fails h hf (.role r)
    rw [he] at hw
    cases hw

/-! ## Text and line breaks -/

theorem Adds.nil : Adds (pure ()) [] := by
  intro g mode outerMode member opened before items sp h hs hg
  refine ⟨opened, items, g.buffer, ?_, ?_, ?_⟩
  · rw [← hs]; rfl
  · rw [← hs]; exact h
  · rw [List.append_nil]; exact hg

theorem Adds.bind (hm : Adds m flow) (hn : Adds n flow') : Adds (do m; n) (flow ++ flow') := by
  intro g mode outerMode member opened before items sp h hs hg
  obtain ⟨opened₁, items₁, b₁, first, h₁, hg₁⟩ := hm g mode outerMode member opened before items sp h hs hg
  obtain ⟨opened₂, items₂, b₂, second, h₂, hg₂⟩ := hn _ mode outerMode member opened₁ _ items₁ sp h₁ rfl hg₁
  exact ⟨opened₂, items₂, b₂, (Write.run_bind_ok first).trans second, h₂, by rw [← List.append_assoc]; exact hg₂⟩

theorem Adds.inOrder_cons {ws : List (Write Unit)} (hm : Adds m flow) (hs : Adds (inOrder ws) flow') :
    Adds (inOrder (m :: ws)) (flow ++ flow') := hm.bind hs

/-- Text goes into the buffer. -/
theorem Adds.gather (operation : Operation) (s : String) : Adds (Write.gather operation s) [.text s] := by
  intro g mode outerMode member opened before items sp h hs hg
  exact ⟨opened, items, g.buffer.pushAll s, Draft.gather_container hs rfl operation s,
    (Draft.Move.text s hs rfl).sound h, hg.text s⟩

theorem Adds.text (s : String) : Adds (Write.text s) [.text s] := Adds.gather .writeText s

theorem Adds.char (c : Char) : Adds (Write.char c) [.text (String.ofList [c])] := Adds.gather .writeChar _

/-- A collection in which an object was started and ended behind a piece of text. -/
theorem collection_add_child (member : Member) (opened : Bool) (outerMode : SpaceMode)
    (items : List (Laid ObjectPhrase)) (p : Option Text.Piece) (o : ObjectPhrase) :
    (((OpenPhrase.collection member opened outerMode (items.map .ofLaid)).add (pieceItems p)).opened).add [.object o] =
      .collection member true outerMode ((items ++ Text.laidPieces p ++ [Laid.child o]).map .ofLaid) := by
  rw [List.map_append, List.map_append, Draft.map_ofLaid_laidPieces]
  simp [OpenPhrase.add, OpenPhrase.opened, ItemPhrase.ofLaid]

theorem Adds.lineBreak : Adds Write.lineBreak [.child (.mk .lineBreak [])] := by
  intro g mode outerMode member opened before items sp h hs hg
  have started := Draft.startObjectOf_child h hs rfl .lineBreak
  have sound₁ := (Draft.Move.startChild .lineBreak hs rfl).sound h
  have gap : (g.buffer.take true).2.AtGap mode false :=
    Buffer.atGap_take hg.mode_eq fun hm => h.due (by rw [hg.mode_eq, hm])
  have sound₂ := (Draft.Move.endChild rfl).sound sound₁
  rw [collection_add_child] at sound₂
  refine ⟨true, _, _, ?_, sound₂, hg.child (.mk .lineBreak []) gap⟩
  rw [Write.lineBreak, Write.run_bind_ok started, Draft.endObject_child rfl rfl rfl, collection_add_child]
  rfl

/-- What always puts a flow into a collection puts it if it succeeds. -/
theorem Puts.of_adds (h : Adds m flow) : Puts theme m flow := by
  intro g w mode outerMode member opened before items sp sound _ _ hs hg hw
  obtain ⟨opened', items', b, run, sound', hg'⟩ := h g mode outerMode member opened before items sp sound hs hg
  rw [run] at hw
  cases hw
  exact ⟨opened', items', b, rfl, sound', hg'⟩

/-! ## Collections -/

theorem Puts.nil : Puts theme (pure ()) [] := Puts.of_adds Adds.nil

theorem Puts.bind (hm : Puts theme m flow) (hn : Puts theme n flow') : Puts theme (do m; n) (flow ++ flow') := by
  intro g w mode outerMode member opened before items sp h hmode ht hs hg hw
  obtain ⟨_, v, first, second⟩ := Write.run_bind_eq_ok hw
  obtain ⟨opened₁, items₁, b₁, rfl, h₁, hg₁⟩ :=
    hm g v mode outerMode member opened before items sp h hmode ht hs hg first
  obtain ⟨opened₂, items₂, b₂, rfl, h₂, hg₂⟩ :=
    hn _ w mode outerMode member opened₁ _ items₁ sp h₁ hmode ht rfl hg₁ second
  exact ⟨opened₂, items₂, b₂, rfl, h₂, by rw [← List.append_assoc]; exact hg₂⟩

theorem Puts.inOrder_nil : Puts theme (inOrder []) [] := Puts.nil

theorem Puts.inOrder_cons {ws : List (Write Unit)} (hm : Puts theme m flow) (hs : Puts theme (inOrder ws) flow') :
    Puts theme (inOrder (m :: ws)) (flow ++ flow') := hm.bind hs

theorem Puts.inOrder_singleton (hm : Puts theme m flow) : Puts theme (inOrder [m]) flow := by
  have := hm.inOrder_cons Puts.inOrder_nil
  rwa [List.append_nil] at this

theorem Puts.gather (operation : Operation) (s : String) : Puts theme (Write.gather operation s) [.text s] :=
  Puts.of_adds (Adds.gather operation s)

theorem Puts.text (s : String) : Puts theme (Write.text s) [.text s] := Puts.gather .writeText s

theorem Puts.literal (s : String) : Puts theme (Write.literal s) [.text s] := Puts.gather .writeValue s

theorem Puts.char (c : Char) : Puts theme (Write.char c) [.text (String.ofList [c])] := Puts.gather .writeChar _

/-- **Objects.** Whatever is written in an object, the collection around it gets one child. -/
theorem Puts.object {body : Write Unit} (hb : Builds theme type body more) :
    Puts theme (object type body) [.child (.mk type more)] := by
  intro g w mode outerMode member opened before items sp h hmode ht hs hg hw
  obtain ⟨_, v, started, rest⟩ := Write.run_bind_eq_ok hw
  obtain ⟨_, v', built, ended⟩ := Write.run_bind_eq_ok rest
  -- the object starts after what was gathered before it
  have sound₁ := (Draft.Move.startChild type hs rfl).sound h
  rw [Draft.startObjectOf_child h hs rfl type] at started
  cases started
  have gap : (g.buffer.take true).2.AtGap mode false :=
    Buffer.atGap_take hg.mode_eq fun hm => h.due (by rw [hg.mode_eq, hm])
  obtain ⟨b, rfl, sound₂, gap'⟩ := hb _ v' mode [] _ sound₁ hmode ht rfl gap built
  have sound₃ := (Draft.Move.endChild rfl).sound sound₂
  rw [Draft.endObject_child rfl rfl rfl] at ended
  cases ended
  rw [collection_add_child] at sound₃ ⊢
  exact ⟨true, _, b, rfl, sound₃, hg.child (.mk type more) gap'⟩

theorem Puts.lineBreak : Puts theme Write.lineBreak [.child (.mk .lineBreak [])] := Puts.of_adds Adds.lineBreak

/-- A collection ends with the layout of what it has gathered. -/
theorem endItems_gathered {g : Draft} {mode outerMode : SpaceMode} {member : Member} {opened : Bool}
    {items : List (Laid ObjectPhrase)} {members : List MemberPhrase} {sp : List OpenPhrase} (h : g.Sound)
    (hs : g.spine = .collection member opened outerMode (items.map .ofLaid) :: .object type members :: sp)
    (hg : Gathers mode flow items g.buffer) :
    let g' := g.withSpine
      (.object type (members ++ MemberPhrase.collect member ((layout mode flow).map .ofLaid)) :: sp)
      ((g.buffer.take false).2.resume outerMode)
    Write.endItems.run g.writer = .ok () g'.writer ∧ g'.Sound := by
  have ready := h.ready
  rw [hs] at ready
  have ended := Draft.endItems_collection h hs
  have sound := (Draft.Move.endItems hs).sound h
  rw [Draft.closed_filled ready.2, ← Draft.map_ofLaid_laidPieces, ← List.map_append, ← hg.close] at ended sound
  exact ⟨ended, sound⟩

/-- A collection with a body: `start` begins a collection of a known member in an object of the type. -/
theorem Builds.collection {start body : Write Unit} {member? : Option Member} {preserve : Bool}
    (hstart : ∀ (g : Draft) (w : Writer) (members : List MemberPhrase) (sp : List OpenPhrase), g.Sound →
      g.spine = .object type members :: sp → start.run g.writer = .ok () w →
      ∃ m, member? = some m ∧ w = (g.withSpine (.collection m false g.buffer.mode [] :: .object type members :: sp)
        (.empty (.ofPreserve preserve))).writer)
    (hb : Puts theme body flow) :
    Builds theme type (do start; body; Write.endItems)
      (member?.toList.flatMap fun m => MemberPhrase.collect m ((layout (.ofPreserve preserve) flow).map .ofLaid)) := by
  intro g w mode members sp h hmode ht hs hg hw
  obtain ⟨_, v, started, rest⟩ := Write.run_bind_eq_ok hw
  obtain ⟨_, v', filled, ended⟩ := Write.run_bind_eq_ok rest
  obtain ⟨m, hm, rfl⟩ := hstart g v members sp h hs started
  have sound₁ := (Draft.Move.startItems m (.ofPreserve preserve) hs).sound h
  obtain ⟨opened, items, b, rfl, sound₂, gathered⟩ := hb _ v' (.ofPreserve preserve) g.buffer.mode m false [] [] _
    sound₁ hmode ht rfl (Gathers.nil _) filled
  have gap : ((b.take false).2.resume g.buffer.mode).AtGap mode false :=
    ⟨Buffer.take_text b false, (take_quiet sound₂.due false).2, fun _ => rfl, hg.mode⟩
  obtain ⟨closed, sound₃⟩ := endItems_gathered sound₂ rfl gathered
  rw [closed] at ended
  cases ended
  rw [hm, Option.toList_some, List.flatMap_singleton]
  exact ⟨_, rfl, sound₃, gap⟩

theorem Builds.items (name : String) (preserve : Bool) {body : Write Unit} (hb : Puts theme body flow) :
    Builds theme type (do Write.startItems (.name name) preserve; body; Write.endItems)
      ((type.member? name).toList.flatMap fun m =>
        MemberPhrase.collect m ((layout (.ofPreserve preserve) flow).map .ofLaid)) := by
  refine Builds.collection (fun g w members sp h hs hw => ?_) hb
  rcases g.object_or_fails (.name name) with ⟨t, ms, sp', m, hs', hm⟩ | hf
  · rw [hs] at hs'
    cases hs'
    rw [Draft.startItems_object h hs hm preserve] at hw
    cases hw
    exact ⟨m, resolve_name hs hm, rfl⟩
  · obtain ⟨e, -, he⟩ := Draft.startItems_fails h hf preserve
    rw [he] at hw
    cases hw

/-- **Content.** An object takes what is put into its content collection. -/
theorem Builds.content (preserve : Bool) {ws : List (Write Unit)} (hb : Puts theme (inOrder ws) flow) :
    Builds theme type (content preserve ws) (contentMember type ((layout (.ofPreserve preserve) flow).map .ofLaid)) := by
  refine Builds.collection (fun g w members sp h hs hw => ?_) hb
  have current : g.writer.currentType? = some type := by simp [Writer.currentType?, Draft.writer, hs, OpenPhrase.scope]
  cases hc : type.content? with
  | none =>
    have fails : Write.contentProperty.run g.writer = .error (.noContentProperty type.name) g.writer := by
      simp [Write.contentProperty, current, getContent, hc, Write.lift]
      rfl
    rw [Write.startContent, Write.run_bind_error fails] at hw
    cases hw
  | some m =>
    have found : Write.contentProperty.run g.writer = .ok m g.writer := by
      simp [Write.contentProperty, current, getContent, hc, Write.lift]
    rw [Write.startContent, Write.run_bind_ok found, Draft.startItems_object h hs rfl preserve] at hw
    cases hw
    exact ⟨m, rfl, rfl⟩

end FlowDoc.Render
