import FlowDoc.Proofs.Xaml.Draft

/-!
# Operations on drafts

What each operation of a writer does, as one act on a draft. An operation that is out of place fails and leaves the
writer as it was; the only one that can fail half-way is a whole member whose value has no spelling.
-/

namespace FlowDoc.Xaml

open Text (SpaceMode Piece Buffer)

/-! ## Refusals -/

/-- Whether an error is one that a writer gives before it changes anything: neither that of a value without spelling nor
that of a member or a collection started in the middle of text. -/
def isRefusal : RenderError → Bool
  | .conversion _ _ | .protocol _ .memberDuringText | .protocol _ .itemsDuringText => false
  | _ => true

/-- An operation that fails and leaves the writer as it was. -/
def Write.Refuses (m : Write Unit) (w : Writer) : Prop := ∃ e, isRefusal e = true ∧ m.run w = .error e w

theorem isRefusal_getType {name : String} {e : RenderError} (h : getType name = .error e) : isRefusal e = true := by
  rw [getType] at h
  split at h
  · cases h
  · cases h; rfl

theorem isRefusal_getMember {type : ElementType} {name : String} {e : RenderError}
    (h : getMember type name = .error e) : isRefusal e = true := by
  rw [getMember] at h
  split at h
  · cases h
  · cases h; rfl

theorem isRefusal_getAttached {owner name : String} {e : RenderError} (h : getAttached owner name = .error e) :
    isRefusal e = true := by
  rw [getAttached] at h
  split at h
  · cases h; rfl
  · split at h
    · cases h
    · cases h; rfl

theorem isRefusal_getContent {type : ElementType} {e : RenderError} (h : getContent type = .error e) :
    isRefusal e = true := by
  rw [getContent] at h
  split at h
  · cases h
  · cases h; rfl

/-- The error of a value that has no spelling. -/
theorem ValueForm.spell_eq_error {form : ValueForm} {member : String} {v : Scalar} {e : RenderError}
    (h : form.spell member v = .error e) : e = .conversion member v.debug := by
  rw [spell] at h
  split at h
  · cases h
  · exact (Except.error.inj h).symm

/-! ## Sequences of operations -/

namespace Write

theorem run_bind_ok {α β : Type} {m : Write α} {f : α → Write β} {w w' : Writer} {a : α} (h : m.run w = .ok a w') :
    (m >>= f).run w = (f a).run w' := by
  simp only [EStateM.run] at h
  simp [EStateM.run, bind, EStateM.bind, h]

theorem run_bind_error {α β : Type} {m : Write α} {f : α → Write β} {w w' : Writer} {e : RenderError}
    (h : m.run w = .error e w') : (m >>= f).run w = .error e w' := by
  simp only [EStateM.run] at h
  simp [EStateM.run, bind, EStateM.bind, h]

theorem run_get_bind {β : Type} (f : Writer → Write β) (w : Writer) : (get >>= f).run w = (f w).run w := rfl

/-- What a sequence that succeeds has done after its first part. -/
theorem run_bind_eq_ok {α β : Type} {m : Write α} {f : α → Write β} {w w' : Writer} {b : β}
    (h : (m >>= f).run w = .ok b w') : ∃ a v, m.run w = .ok a v ∧ (f a).run v = .ok b w' := by
  cases hm : m.run w with
  | ok a v => exact ⟨a, v, rfl, by rw [run_bind_ok hm] at h; exact h⟩
  | error e v => rw [run_bind_error hm] at h; cases h

/-- A look-up changes nothing. -/
theorem run_lift {α : Type} (r : Except RenderError α) (w : Writer) :
    (∃ a, r = .ok a ∧ (lift r).run w = .ok a w) ∨ ∃ e, r = .error e ∧ (lift r).run w = .error e w := by
  cases r with
  | ok a => exact Or.inl ⟨a, rfl, rfl⟩
  | error e => exact Or.inr ⟨e, rfl, rfl⟩

/-- Resolving a member changes nothing. -/
theorem run_resolve (ref : MemberRef) (w : Writer) :
    (∃ m, (resolve ref).run w = .ok m w) ∨ ∃ e, (resolve ref).run w = .error e w := by
  rcases ref with s | ⟨owner, s⟩ | m
  · cases ht : w.currentType? with
    | none => exact Or.inr ⟨.protocol .getMember .noOpenObject, by simp [resolve, ht, violation]; rfl⟩
    | some type =>
      rcases run_lift (getMember type s) w with ⟨m, hm, -⟩ | ⟨e, he, -⟩
      · exact Or.inl ⟨m, by simp [resolve, ht, hm, lift]⟩
      · exact Or.inr ⟨e, by simp [resolve, ht, he, lift]; rfl⟩
  · rcases run_lift (getAttached owner s) w with ⟨m, -, hm⟩ | ⟨e, -, he⟩
    · exact Or.inl ⟨m, hm⟩
    · exact Or.inr ⟨e, he⟩
  · exact Or.inl ⟨m, rfl⟩

theorem run_contentProperty (w : Writer) :
    (∃ m, contentProperty.run w = .ok m w) ∨ ∃ e, contentProperty.run w = .error e w := by
  cases ht : w.currentType? with
  | none => exact Or.inr ⟨.protocol .contentProperty .noOpenObject, by simp [contentProperty, ht, violation]; rfl⟩
  | some type =>
    rcases run_lift (getContent type) w with ⟨m, hm, -⟩ | ⟨e, he, -⟩
    · exact Or.inl ⟨m, by simp [contentProperty, ht, hm, lift]⟩
    · exact Or.inr ⟨e, by simp [contentProperty, ht, he, lift]; rfl⟩

/-- The error of a look-up that fails. -/
theorem lift_eq_error {α : Type} {r : Except RenderError α} {w w' : Writer} {e : RenderError}
    (h : (lift r).run w = .error e w') : r = .error e := by
  cases r with
  | ok a => cases h
  | error e => cases h; rfl

theorem isRefusal_resolve {ref : MemberRef} {w w' : Writer} {e : RenderError}
    (h : (resolve ref).run w = .error e w') : isRefusal e = true := by
  rcases ref with s | ⟨owner, s⟩ | m
  · rw [resolve, run_get_bind] at h
    split at h
    · exact isRefusal_getMember (lift_eq_error h)
    · cases h; rfl
  · exact isRefusal_getAttached (lift_eq_error h)
  · cases h

theorem isRefusal_contentProperty {w w' : Writer} {e : RenderError} (h : contentProperty.run w = .error e w') :
    isRefusal e = true := by
  rw [contentProperty, run_get_bind] at h
  split at h
  · exact isRefusal_getContent (lift_eq_error h)
  · cases h; rfl

end Write

namespace Draft

variable {g : Draft} {p : OpenPhrase} {sp : List OpenPhrase}

/-! ## Parts of operations -/

theorem writer_scopes {spine : List OpenPhrase} (hs : g.spine = spine) :
    g.writer.scopes = spine.map OpenPhrase.scope := by
  subst hs
  rfl

theorem getMember_run_text : getMember .run "Text" = .ok runText := rfl

/-- Opening the innermost collection on the stream. -/
theorem openItems_draft (hs : g.spine = p :: sp) (hp : p.IsCoherent) :
    Write.openItems.run g.writer = .ok () (g.withSpine (p.opened :: sp) g.buffer).writer := by
  rcases p with ⟨t, ms⟩ | ⟨m, items⟩ | ⟨m, _ | _, om, items⟩
  case collection.false =>
    cases hp
    simp [Write.openItems, Write.send, writer, withSpine, signals, hs, spineSignals, OpenPhrase.scope,
      OpenPhrase.opened, OpenPhrase.signals]
  all_goals
    simp [Write.openItems, writer, withSpine, signals, hs, spineSignals, OpenPhrase.scope, OpenPhrase.opened]

theorem sendPiece_run (piece : Piece) (w : Writer) :
    (Write.sendPiece piece).run w =
      .ok () { w with sent := w.sent ++ (ItemPhrase.ofPiece piece).signals.toArray } := by
  cases piece with
  | value s => simp [Write.sendPiece, Write.send, ItemPhrase.ofPiece, ItemPhrase.signals]
  | verbatim s =>
    simp [Write.sendPiece, getMember_run_text, Write.lift, Write.send, ItemPhrase.ofPiece, ItemPhrase.signals,
      ObjectPhrase.signals, membersSignals, MemberPhrase.signals, itemsSignals, memberStart, memberEnd]
    rfl

/-- Sending the gathered text into the innermost member or collection. -/
theorem flushText_draft (hs : g.spine = p :: sp) (hc : p.isContainer = true) (hp : p.IsCoherent)
    (beforeSibling : Bool) :
    (Write.flushText beforeSibling).run g.writer =
      .ok () (g.withSpine (p.add (pieceItems (g.buffer.take beforeSibling).1) :: sp)
        (g.buffer.take beforeSibling).2).writer := by
  have hbuf : g.writer.buffer = g.buffer := rfl
  cases ht : (g.buffer.take beforeSibling).1 with
  | none =>
    simp [Write.flushText, ht, pieceItems, writer, withSpine, signals, hs]
  | some piece =>
    have opened := openItems_draft (g := g.withSpine (p :: sp) (g.buffer.take beforeSibling).2) rfl hp
    have sent := sendPiece_run piece ((g.withSpine (p.opened :: sp) (g.buffer.take beforeSibling).2).writer)
    have start : { g.writer with buffer := (g.buffer.take beforeSibling).2 }
        = (g.withSpine (p :: sp) (g.buffer.take beforeSibling).2).writer := by
      simp [writer, withSpine, signals, hs]
    simp only [Write.flushText, EStateM.run_bind, EStateM.run_get, EStateM.run_modify, hbuf, ht, start, opened]
    simp only [withSpine] at sent ⊢
    rw [sent]
    simp [pieceItems, writer, signals, spineSignals, OpenPhrase.signals_add hc hp]
    rcases p with ⟨t, ms⟩ | ⟨m, items⟩ | ⟨m, _ | _, om, items⟩ <;>
      simp [OpenPhrase.scope, OpenPhrase.add, OpenPhrase.opened]

theorem Sound.coherent (h : g.Sound) (hs : g.spine = p :: sp) : p.IsCoherent := by
  obtain ⟨-, -, ready⟩ := h.of_spine hs
  rcases p with ⟨t, ms⟩ | ⟨m, items⟩ | ⟨m, _ | _, om, items⟩
  · trivial
  · trivial
  · show items = []
    simpa using ready.2
  · trivial

/-- In front of a member nothing waits in the buffer. -/
theorem Sound.quiet (h : g.Sound) (hs : ∀ p ∈ g.spine.head?, p.isContainer = false) :
    g.buffer.text = "" ∧ g.buffer.spaceDue = false := by
  have ready := h.ready
  cases hsp : g.spine with
  | nil => rw [hsp] at ready; exact ready
  | cons p sp =>
    rw [hsp] at ready
    have := hs p (by simp [hsp])
    cases p with
    | object _ _ => exact ready
    | member _ _ => cases this
    | collection _ _ _ _ => cases this

theorem Sound.not_pending {type : ElementType} {members : List MemberPhrase} (h : g.Sound)
    (hs : g.spine = .object type members :: sp) : g.writer.buffer.isPending = false := by
  obtain ⟨text, -⟩ := h.quiet (by simp [hs, OpenPhrase.isContainer])
  simp [Buffer.isPending, writer, text]

/-- Taking from a buffer in which nothing waits. -/
theorem take_of_quiet {b : Buffer} (h : b.text = "" ∧ b.spaceDue = false) (sibling : Bool) :
    (b.take sibling).1 = none := by
  cases hm : b.mode <;> simp [Buffer.take, hm, h.1, h.2]

theorem take_false_of_quiet {b : Buffer} (h : b.text = "" ∧ b.spaceDue = false) : (b.take false).2 = b := by
  obtain ⟨text, mode, due, atStart⟩ := b
  obtain ⟨rfl, rfl⟩ := h
  cases mode <;> rfl

/-! ## Objects -/

theorem startObjectOf_root (h : g.Sound) (hr : g.root = none) (hs : g.spine = []) (type : ElementType) :
    (Write.startObjectOf type).run g.writer =
      .ok () (g.withSpine [.object type []] (g.buffer.take true).2).writer := by
  have quiet := take_of_quiet (h.quiet (by simp [hs])) true
  simp [Write.startObjectOf, Write.openItems, Write.flushText, Write.send, writer, hs, hr, quiet, withSpine, signals,
    spineSignals, OpenPhrase.scope, OpenPhrase.signals]

theorem startObjectOf_child (h : g.Sound) (hs : g.spine = p :: sp) (hc : p.isContainer = true) (type : ElementType) :
    (Write.startObjectOf type).run g.writer =
      .ok () (g.withSpine (.object type [] :: (p.add (pieceItems (g.buffer.take true).1)).opened :: sp)
        (g.buffer.take true).2).writer := by
  have opened := openItems_draft hs (h.coherent hs)
  have flushed := flushText_draft (g := g.withSpine (p.opened :: sp) g.buffer) rfl (by simpa using hc)
    p.isCoherent_opened true
  have more : p.opened.add (pieceItems (g.buffer.take true).1) = (p.add (pieceItems (g.buffer.take true).1)).opened := by
    cases p <;> simp [OpenPhrase.opened, OpenPhrase.add]
  rw [buffer_withSpine, more] at flushed
  have scopes : g.writer.scopes = p.scope :: sp.map OpenPhrase.scope := writer_scopes hs
  cases p with
  | object _ _ => cases hc
  | member m items =>
    simp only [Write.startObjectOf, EStateM.run_bind, EStateM.run_get, scopes, OpenPhrase.scope, opened, flushed]
    simp [Write.send, writer, withSpine, signals, spineSignals, OpenPhrase.scope, OpenPhrase.signals]
  | collection m opened outerMode items =>
    simp only [Write.startObjectOf, EStateM.run_bind, EStateM.run_get, scopes, OpenPhrase.scope, opened, flushed]
    simp [Write.send, writer, withSpine, signals, spineSignals, OpenPhrase.scope, OpenPhrase.signals]

theorem startObjectOf_fails (h : g.spine = [] ∧ g.root.isSome = true ∨ ∃ p sp, g.spine = p :: sp ∧ p.isContainer = false)
    (type : ElementType) : (Write.startObjectOf type).Refuses g.writer := by
  rcases h with ⟨hs, hr⟩ | ⟨p, sp, hs, hc⟩
  · exact ⟨.protocol .startObject .secondRoot, rfl, by simp [Write.startObjectOf, Write.violation, writer, hs, hr]⟩
  · cases p with
    | object t ms =>
      exact ⟨.protocol .startObject .memberNotOpenOnObject, rfl,
        by simp [Write.startObjectOf, Write.violation, writer, hs, OpenPhrase.scope]⟩
    | member _ _ => cases hc
    | collection _ _ _ _ => cases hc

theorem endObject_root {type : ElementType} {members : List MemberPhrase} (hr : g.root = none)
    (hs : g.spine = [.object type members]) :
    Write.endObject.run g.writer = .ok () { g with root := some (.mk type members), spine := [] }.writer := by
  simp [Write.endObject, Write.popScope, Write.send, writer, hs, hr, signals, spineSignals, OpenPhrase.scope,
    OpenPhrase.signals, ObjectPhrase.signals]

theorem endObject_child {type : ElementType} {members : List MemberPhrase}
    (hs : g.spine = .object type members :: p :: sp) (hc : p.isContainer = true) (hp : p.opened = p) :
    Write.endObject.run g.writer = .ok () (g.withSpine (p.add [.object (.mk type members)] :: sp) g.buffer).writer := by
  have coherent : p.IsCoherent := by rw [← hp]; exact p.isCoherent_opened
  have added : (p.add [.object (.mk type members)]).signals = p.signals ++ (ObjectPhrase.mk type members).signals := by
    rw [OpenPhrase.signals_add hc coherent (by simp), hp]
    simp [ItemPhrase.signals]
  have scope : (p.add [.object (.mk type members)]).scope = p.scope := by
    rcases p with ⟨t, ms⟩ | ⟨m, items⟩ | ⟨m, _ | _, om, items⟩
    · rfl
    · rfl
    · simp [OpenPhrase.opened] at hp
    · rfl
  have object : (OpenPhrase.object type members).signals = .startObject type :: membersSignals members := rfl
  simp [Write.endObject, Write.popScope, Write.send, writer, withSpine, hs, signals, spineSignals, added, scope, object,
    ObjectPhrase.signals]
  simp [OpenPhrase.scope]

theorem endObject_fails (h : ∀ type members sp, g.spine ≠ .object type members :: sp) :
    Write.endObject.Refuses g.writer := by
  cases hs : g.spine with
  | nil =>
    exact ⟨.protocol .endObject .noOpenObject, rfl, by simp [Write.endObject, Write.violation, writer, hs]⟩
  | cons p sp =>
    refine ⟨.protocol .endObject .scopeStillOpen, rfl, ?_⟩
    cases p with
    | object type members => exact absurd hs (h type members sp)
    | member _ _ => simp [Write.endObject, Write.violation, writer, hs, OpenPhrase.scope]
    | collection _ _ _ _ => simp [Write.endObject, Write.violation, writer, hs, OpenPhrase.scope]

/-! ## Members -/

theorem startMember_object {type : ElementType} {members : List MemberPhrase} (h : g.Sound)
    (hs : g.spine = .object type members :: sp) {r : MemberRef} {m : Member}
    (hm : (Write.resolve r).run g.writer = .ok m g.writer) :
    (Write.startMember r).run g.writer =
      .ok () (g.withSpine (.member m [] :: .object type members :: sp) g.buffer).writer := by
  have quiet := h.not_pending hs
  have scopes : g.writer.scopes = .object type :: sp.map OpenPhrase.scope := writer_scopes hs
  simp only [Write.startMember, EStateM.run_bind, EStateM.run_get, scopes, quiet, Bool.false_eq_true, if_false, hm]
  simp [Write.send, Write.pushScope, writer, withSpine, hs, signals, spineSignals, OpenPhrase.scope, OpenPhrase.signals]

theorem startMember_fails (h : g.Sound) {r : MemberRef}
    (hm : (∃ e, (Write.resolve r).run g.writer = .error e g.writer) ∨
      ∀ type members sp, g.spine ≠ .object type members :: sp) :
    (Write.startMember r).Refuses g.writer := by
  cases hs : g.spine with
  | nil =>
    exact ⟨.protocol .startMember .noOpenObject, rfl, by simp [Write.startMember, Write.violation, writer, hs]⟩
  | cons p sp =>
    cases p with
    | object type members =>
      have quiet := h.not_pending hs
      have scopes : g.writer.scopes = .object type :: sp.map OpenPhrase.scope := writer_scopes hs
      rcases hm with ⟨e, he⟩ | hm
      · refine ⟨e, Write.isRefusal_resolve he, ?_⟩
        simp only [Write.startMember, EStateM.run_bind, EStateM.run_get, scopes, quiet, Bool.false_eq_true, if_false, he]
      · exact absurd hs (hm type members sp)
    | member _ _ =>
      exact ⟨.protocol .startMember .scopeAlreadyOpen, rfl,
        by simp [Write.startMember, Write.violation, writer, hs, OpenPhrase.scope]⟩
    | collection _ _ _ _ =>
      exact ⟨.protocol .startMember .scopeAlreadyOpen, rfl,
        by simp [Write.startMember, Write.violation, writer, hs, OpenPhrase.scope]⟩

theorem endMember_member {m : Member} {items : List ItemPhrase} {type : ElementType} {members : List MemberPhrase}
    (hs : g.spine = .member m items :: .object type members :: sp) :
    Write.endMember.run g.writer =
      .ok () (g.withSpine
        (.object type (members ++ [.mk m false (items ++ pieceItems (g.buffer.take false).1)]) :: sp)
        (g.buffer.take false).2).writer := by
  have flushed := flushText_draft hs rfl trivial false
  have scopes : g.writer.scopes = .member :: .object type :: sp.map OpenPhrase.scope := writer_scopes hs
  simp only [Write.endMember, EStateM.run_bind, EStateM.run_get, scopes, flushed]
  simp [Write.popScope, Write.send, writer, withSpine, signals, spineSignals, OpenPhrase.scope, OpenPhrase.signals,
    OpenPhrase.add, membersSignals, MemberPhrase.signals, memberStart, memberEnd]

theorem endMember_fails (h : ∀ m items sp, g.spine ≠ .member m items :: sp) :
    Write.endMember.Refuses g.writer := by
  refine ⟨.protocol .endMember .noOpenMember, rfl, ?_⟩
  cases hs : g.spine with
  | nil => simp [Write.endMember, Write.violation, writer, hs]
  | cons p sp =>
    cases p with
    | object _ _ => simp [Write.endMember, Write.violation, writer, hs, OpenPhrase.scope]
    | member m items => exact absurd hs (h m items sp)
    | collection _ _ _ _ => simp [Write.endMember, Write.violation, writer, hs, OpenPhrase.scope]

end Draft

/-! ### Members with a value -/

/-- What the value of a member is written as. -/
def memberItem (mode : ValueMode) (theme : Style.Theme) (m : Member) (v : Scalar) : Except RenderError ItemPhrase :=
  match mode, v with
  | .native, v => .ok (.value v)
  | .text, .resourceKey key =>
    if theme.keyClass.contains key then
      .ok (.object (.mk .staticExtension
        [.mk .positionalParameters false [.value (.text (theme.keyClass.staticReference key))]]))
    else (m.form.spell m.name (.resourceKey key)).map (.value <| .text ·)
  | .text, v => (m.form.spell m.name v).map (.value <| .text ·)

/-- What a buffer in which nothing waits becomes when an item is sent. -/
def itemBuffer (b : Buffer) : ItemPhrase → Buffer
  | .object _ => (b.take true).2
  | .value _ => b

theorem memberItem_native (theme : Style.Theme) (m : Member) (v : Scalar) :
    memberItem .native theme m v = .ok (.value v) := rfl

theorem memberItem_isProper {mode : ValueMode} {theme : Style.Theme} {m : Member} {v : Scalar} {i : ItemPhrase}
    (h : memberItem mode theme m v = .ok i) : i.IsProper := by
  cases i with
  | value v => trivial
  | object o =>
    cases mode with
    | native => cases h
    | text =>
      cases v with
      | resourceKey key =>
        cases hk : theme.keyClass.contains key with
        | false =>
          simp only [memberItem, hk, Bool.false_eq_true, if_false] at h
          cases hs : m.form.spell m.name (.resourceKey key) <;> rw [hs] at h <;> cases h
        | true =>
          simp only [memberItem, hk, if_true] at h
          cases h
          simp [ItemPhrase.IsProper, ObjectPhrase.IsProper, MembersProper, MemberPhrase.IsProper, Separated, ItemsProper]
      | _ => 
        simp only [memberItem] at h
        generalize m.form.spell m.name _ = r at h
        cases r <;> cases h

namespace Draft

variable {g : Draft} {sp : List OpenPhrase}

/-- Sending one value into the innermost member. -/
theorem send_value {m : Member} (hs : g.spine = .member m [] :: sp) (v : Scalar) :
    (Write.send (.value v)).run g.writer = .ok () (g.withSpine (.member m [.value v] :: sp) g.buffer).writer := by
  simp [Write.send, writer, withSpine, hs, signals, spineSignals, OpenPhrase.scope, OpenPhrase.signals,
    ItemPhrase.signals]

theorem run_spell {m : Member} (hs : g.spine = .member m [] :: sp) (r : Except RenderError String) :
    (do Write.send (.value (.text (← Write.lift r)))).run g.writer =
      match r.map fun s => ItemPhrase.value (.text s) with
      | .ok i => .ok () (g.withSpine (.member m [i] :: sp) (itemBuffer g.buffer i)).writer
      | .error e => .error e g.writer := by
  cases r with
  | error e => rfl
  | ok s => exact send_value hs (.text s)

/-- An extension with one argument, in a member that holds nothing else. -/
theorem extension_member {m : Member} (h : g.Sound) (hq : g.buffer.text = "" ∧ g.buffer.spaceDue = false)
    (hs : g.spine = .member m [] :: sp) (type : ElementType) (fill : Write Unit) {i : ItemPhrase}
    (hfill : ∀ g' : Draft, g'.Sound → g' = g.withSpine (.member .positionalParameters [] :: .object type [] ::
      .member m [] :: sp) (g.buffer.take true).2 →
      fill.run g'.writer = .ok () (g.withSpine (.member .positionalParameters [i] :: .object type [] ::
        .member m [] :: sp) (g.buffer.take true).2).writer) :
    (do Write.startObjectOf type
        Write.startMember (.resolved .positionalParameters)
        fill
        Write.endMember
        Write.endObject).run g.writer =
      .ok () (g.withSpine (.member m [.object (.mk type [.mk .positionalParameters false [i]])] :: sp)
        (g.buffer.take true).2).writer := by
  have none := take_of_quiet hq true
  have quiet := take_quiet h.due true
  have m1 := Move.startChild type hs rfl
  have s1 := m1.sound h
  have e1 := startObjectOf_child h hs rfl type
  simp only [none, pieceItems, Option.toList_none, List.map_nil, OpenPhrase.add_nil, OpenPhrase.opened] at m1 s1 e1
  have m2 := Move.startMember (.positionalParameters) (rfl : (g.withSpine (.object type [] :: .member m [] :: sp)
    (g.buffer.take true).2).spine = _)
  have s2 := m2.sound s1
  have e2 := startMember_object s1 rfl (r := .resolved .positionalParameters) rfl
  have e3 := hfill _ s2 rfl
  have e4 := endMember_member (g := g.withSpine (.member .positionalParameters [i] :: .object type [] ::
    .member m [] :: sp) (g.buffer.take true).2) rfl
  have e5 := endObject_child (g := g.withSpine (.object type [.mk .positionalParameters false [i]] ::
    .member m [] :: sp) (g.buffer.take true).2) rfl rfl rfl
  rw [buffer_withSpine, take_of_quiet quiet, take_false_of_quiet quiet] at e4
  rw [Write.run_bind_ok e1, Write.run_bind_ok e2, Write.run_bind_ok e3, Write.run_bind_ok e4]
  exact e5

/-- Writing the value of a member that holds nothing yet. -/
theorem memberValue_member {m : Member} (h : g.Sound) (hq : g.buffer.text = "" ∧ g.buffer.spaceDue = false)
    (hs : g.spine = .member m [] :: sp) (v : Scalar) :
    (Write.memberValue m v).run g.writer =
      match memberItem g.mode g.theme m v with
      | .ok i => .ok () (g.withSpine (.member m [i] :: sp) (itemBuffer g.buffer i)).writer
      | .error e => .error e g.writer := by
  have hmode : g.writer.mode = g.mode := rfl
  have htheme : g.writer.theme = g.theme := rfl
  simp only [Write.memberValue, EStateM.run_bind, EStateM.run_get, hmode, htheme]
  cases hm : g.mode with
  | native => exact send_value hs v
  | text =>
    cases v with
    | resourceKey key =>
      cases hk : g.theme.keyClass.contains key with
      | false =>
        simp only [memberItem, hk, Bool.false_eq_true, if_false]
        exact run_spell hs _
      | true =>
        simp only [memberItem, hk, if_true]
        refine extension_member h hq hs .staticExtension _ fun g' _ hg => ?_
        rw [hg]
        exact send_value (g := g.withSpine (.member .positionalParameters [] :: .object .staticExtension [] ::
          .member m [] :: sp) (g.buffer.take true).2) rfl _
    | _ => exact run_spell hs _

/-- **A whole member.** An object takes it with its one item; only a value without spelling leaves it open. -/
theorem member_object {type : ElementType} {members : List MemberPhrase} (h : g.Sound)
    (hs : g.spine = .object type members :: sp) {ref : MemberRef} {m : Member}
    (hm : (Write.resolve ref).run g.writer = .ok m g.writer) (v : Scalar) :
    (Write.member ref v).run g.writer =
      match memberItem g.mode g.theme m v with
      | .ok i => .ok () (g.withSpine (.object type (members ++ [.mk m false [i]]) :: sp) (itemBuffer g.buffer i)).writer
      | .error e => .error e (g.withSpine (.member m [] :: .object type members :: sp) g.buffer).writer := by
  have quiet := h.quiet (by simp [hs, OpenPhrase.isContainer])
  have started := startMember_object h hs (r := .resolved m) (m := m) rfl
  have sound := (Move.startMember m hs).sound h
  have valued := memberValue_member sound quiet rfl v
  rw [Write.member, Write.run_bind_ok hm, Write.run_bind_ok started]
  cases hi : memberItem g.mode g.theme m v with
  | error e =>
    have hi' : memberItem (g.withSpine (.member m [] :: .object type members :: sp) g.buffer).mode
      (g.withSpine (.member m [] :: .object type members :: sp) g.buffer).theme m v = .error e := hi
    rw [hi'] at valued
    exact Write.run_bind_error valued
  | ok i =>
    have hi' : memberItem (g.withSpine (.member m [] :: .object type members :: sp) g.buffer).mode
      (g.withSpine (.member m [] :: .object type members :: sp) g.buffer).theme m v = .ok i := hi
    rw [hi'] at valued
    have still : (itemBuffer g.buffer i).text = "" ∧ (itemBuffer g.buffer i).spaceDue = false := by
      cases i with
      | object o => exact take_quiet h.due true
      | value v => exact quiet
    have ended := endMember_member (g := g.withSpine (.member m [i] :: .object type members :: sp)
      (itemBuffer g.buffer i)) rfl
    rw [buffer_withSpine, take_of_quiet still, take_false_of_quiet still] at ended
    exact (Write.run_bind_ok valued).trans ended

theorem member_fails (h : g.Sound) {ref : MemberRef}
    (hm : (∃ e, (Write.resolve ref).run g.writer = .error e g.writer) ∨
      ∀ type members sp, g.spine ≠ .object type members :: sp) (v : Scalar) :
    (Write.member ref v).Refuses g.writer := by
  rcases Write.run_resolve ref g.writer with ⟨m, hr⟩ | ⟨e, he⟩
  · have hm' : ∀ type members sp, g.spine ≠ .object type members :: sp := by
      rcases hm with ⟨e, he⟩ | hm
      · rw [hr] at he; cases he
      · exact hm
    obtain ⟨e, refusal, he⟩ := startMember_fails h (r := .resolved m) (Or.inr hm')
    exact ⟨e, refusal, by rw [Write.member, Write.run_bind_ok hr, Write.run_bind_error he]⟩
  · exact ⟨e, Write.isRefusal_resolve he, by rw [Write.member, Write.run_bind_error he]⟩

/-- Any key has a spelling as an argument. -/
theorem memberItem_key (mode : ValueMode) (theme : Style.Theme) (key : ResourceKey) :
    ∃ i, memberItem mode theme .positionalParameters (.resourceKey key) = .ok i := by
  cases mode with
  | native => exact ⟨_, rfl⟩
  | text =>
    cases hk : theme.keyClass.contains key with
    | false => exact ⟨.value (.text key.name), by simp only [memberItem, hk, Bool.false_eq_true, if_false]; rfl⟩
    | true => exact ⟨_, by simp only [memberItem, hk, if_true]; rfl⟩

theorem take_take (b : Buffer) : ((b.take true).2.take true).2 = (b.take true).2 := by
  cases hm : b.mode <;> simp [Buffer.take, hm]

/-- **A whole member that refers to a resource.** -/
theorem resource_object {type : ElementType} {members : List MemberPhrase} (h : g.Sound)
    (hs : g.spine = .object type members :: sp) {ref : MemberRef} {m : Member}
    (hm : (Write.resolve ref).run g.writer = .ok m g.writer) {style : Style.Ref} {i : ItemPhrase}
    (hi : memberItem g.mode g.theme .positionalParameters (.resourceKey (g.theme.keyOf style)) = .ok i) :
    (Write.resource ref style).run g.writer =
      .ok () (g.withSpine (.object type (members ++
        [.mk m false [.object (.mk .staticResourceExtension [.mk .positionalParameters false [i]])]]) :: sp)
        (g.buffer.take true).2).writer := by
  have quiet := h.quiet (by simp [hs, OpenPhrase.isContainer])
  have started := startMember_object h hs hm
  have sound := (Move.startMember m hs).sound h
  have still := take_quiet h.due true
  have extended := extension_member sound quiet rfl .staticResourceExtension
    (Write.memberValue .positionalParameters (.resourceKey (g.theme.keyOf style))) (i := i) fun g' sound' hg => by
      have valued := memberValue_member sound' (by rw [hg]; exact still) (by rw [hg]; rfl)
        (.resourceKey (g.theme.keyOf style))
      have item : memberItem g'.mode g'.theme .positionalParameters (.resourceKey (g.theme.keyOf style)) = .ok i := by
        rw [hg]; exact hi
      have buffer : itemBuffer g'.buffer i = (g.buffer.take true).2 := by
        cases i with
        | object o => rw [hg]; exact take_take g.buffer
        | value v => rw [hg]; rfl
      simp only [item, buffer] at valued
      rw [hg] at valued ⊢
      exact valued
  have ended := endMember_member (g := g.withSpine (.member m [.object (.mk .staticResourceExtension
    [.mk .positionalParameters false [i]])] :: .object type members :: sp) (g.buffer.take true).2) rfl
  rw [buffer_withSpine, take_of_quiet still, take_false_of_quiet still] at ended
  have parts : (Write.resource ref style).run g.writer = (do
      Write.startMember ref
      (do
        Write.startObjectOf .staticResourceExtension
        Write.startMember (.resolved .positionalParameters)
        Write.memberValue .positionalParameters (.resourceKey (g.theme.keyOf style))
        Write.endMember
        Write.endObject)
      Write.endMember : Write Unit).run g.writer := by
    have htheme : g.writer.theme = g.theme := rfl
    simp only [Write.resource, bind_assoc]
    rw [Write.run_get_bind, htheme]
  rw [parts, Write.run_bind_ok started, Write.run_bind_ok extended]
  exact ended

theorem resource_fails (h : g.Sound) {ref : MemberRef}
    (hm : (∃ e, (Write.resolve ref).run g.writer = .error e g.writer) ∨
      ∀ type members sp, g.spine ≠ .object type members :: sp) (style : Style.Ref) :
    (Write.resource ref style).Refuses g.writer := by
  obtain ⟨e, refusal, he⟩ := startMember_fails h hm
  refine ⟨e, refusal, ?_⟩
  rw [Write.resource, Write.run_get_bind]
  exact Write.run_bind_error he

/-! ## Collections -/

theorem startItems_object {type : ElementType} {members : List MemberPhrase} (h : g.Sound)
    (hs : g.spine = .object type members :: sp) {ref : MemberRef} {m : Member}
    (hm : (Write.resolve ref).run g.writer = .ok m g.writer) (preserve : Bool) :
    (Write.startItems ref preserve).run g.writer =
      .ok () (g.withSpine (.collection m false g.buffer.mode [] :: .object type members :: sp)
        (.empty (.ofPreserve preserve))).writer := by
  have quiet := h.not_pending hs
  have scopes : g.writer.scopes = .object type :: sp.map OpenPhrase.scope := writer_scopes hs
  simp only [Write.startItems, EStateM.run_bind, EStateM.run_get, scopes, quiet, Bool.false_eq_true, if_false, hm]
  simp [writer, withSpine, hs, signals, spineSignals, OpenPhrase.scope, OpenPhrase.signals]

theorem startItems_fails (h : g.Sound) {ref : MemberRef}
    (hm : (∃ e, (Write.resolve ref).run g.writer = .error e g.writer) ∨
      ∀ type members sp, g.spine ≠ .object type members :: sp) (preserve : Bool) :
    (Write.startItems ref preserve).Refuses g.writer := by
  cases hs : g.spine with
  | nil => exact ⟨.protocol .startItems .noOpenObject, rfl, by simp [Write.startItems, Write.violation, writer, hs]⟩
  | cons p sp =>
    rcases p with ⟨type, members⟩ | ⟨m, items⟩ | ⟨m, _ | _, outerMode, items⟩
    · have quiet := h.not_pending hs
      have scopes : g.writer.scopes = .object type :: sp.map OpenPhrase.scope := writer_scopes hs
      rcases hm with ⟨e, he⟩ | hm
      · refine ⟨e, Write.isRefusal_resolve he, ?_⟩
        simp only [Write.startItems, EStateM.run_bind, EStateM.run_get, scopes, quiet, Bool.false_eq_true, if_false, he]
      · exact absurd hs (hm type members sp)
    · exact ⟨.protocol .startItems .noOpenObject, rfl,
        by simp [Write.startItems, Write.violation, writer, hs, OpenPhrase.scope]⟩
    · exact ⟨.protocol .startItems .previousPending, rfl,
        by simp [Write.startItems, Write.violation, writer, hs, OpenPhrase.scope]⟩
    · exact ⟨.protocol .startItems .noOpenObject, rfl,
        by simp [Write.startItems, Write.violation, writer, hs, OpenPhrase.scope]⟩

theorem endItems_collection {m : Member} {opened : Bool} {outerMode : SpaceMode} {items : List ItemPhrase}
    {type : ElementType} {members : List MemberPhrase} (h : g.Sound)
    (hs : g.spine = .collection m opened outerMode items :: .object type members :: sp) :
    Write.endItems.run g.writer =
      .ok () (g.withSpine
        (.object type (members ++
          ((OpenPhrase.collection m opened outerMode items).add (pieceItems (g.buffer.take false).1)).closed) :: sp)
        ((g.buffer.take false).2.resume outerMode)).writer := by
  have flushed := flushText_draft hs rfl (h.coherent hs) false
  have scopes : g.writer.scopes = .items m opened outerMode :: .object type :: sp.map OpenPhrase.scope := writer_scopes hs
  simp only [Write.endItems, EStateM.run_bind, EStateM.run_get, scopes, flushed]
  cases hd : opened || !(pieceItems (g.buffer.take false).1).isEmpty <;>
    simp [Write.send, writer, withSpine, signals, spineSignals, OpenPhrase.scope, OpenPhrase.signals,
      OpenPhrase.add, OpenPhrase.closed, membersSignals, MemberPhrase.signals, memberStart, memberEnd, hd]

theorem endItems_fails (h : ∀ m opened outerMode items sp, g.spine ≠ .collection m opened outerMode items :: sp) :
    Write.endItems.Refuses g.writer := by
  refine ⟨.protocol .endItems .noOpenCollection, rfl, ?_⟩
  cases hs : g.spine with
  | nil => simp [Write.endItems, Write.violation, writer, hs]
  | cons p sp =>
    cases p with
    | object _ _ => simp [Write.endItems, Write.violation, writer, hs, OpenPhrase.scope]
    | member _ _ => simp [Write.endItems, Write.violation, writer, hs, OpenPhrase.scope]
    | collection m opened outerMode items => exact absurd hs (h m opened outerMode items sp)

/-! ## Text, line breaks and namespaces -/

theorem gather_container {p : OpenPhrase} (hs : g.spine = p :: sp) (hc : p.isContainer = true) (operation : Operation)
    (s : String) :
    (Write.gather operation s).run g.writer = .ok () (g.withSpine (p :: sp) (g.buffer.pushAll s)).writer := by
  cases p with
  | object _ _ => cases hc
  | member _ _ => simp [Write.gather, writer, withSpine, hs, signals, OpenPhrase.scope]
  | collection _ _ _ _ => simp [Write.gather, writer, withSpine, hs, signals, OpenPhrase.scope]

theorem gather_fails (h : ∀ p ∈ g.spine.head?, p.isContainer = false) (operation : Operation) (s : String) :
    (Write.gather operation s).Refuses g.writer := by
  refine ⟨.protocol operation .textOutsideMember, rfl, ?_⟩
  cases hs : g.spine with
  | nil => simp [Write.gather, Write.violation, writer, hs]
  | cons p sp =>
    have hc := h p (by simp [hs])
    cases p with
    | object _ _ => simp [Write.gather, Write.violation, writer, hs, OpenPhrase.scope]
    | member _ _ => cases hc
    | collection _ _ _ _ => cases hc

theorem declareNamespace_start (hr : g.root = none) (hs : g.spine = []) (pre uri : String) :
    (Write.declareNamespace pre uri).run g.writer =
      .ok () { g with decls := g.decls ++ [(⟨pre, uri⟩ : NamespaceDecl)] }.writer := by
  simp [Write.declareNamespace, Write.send, writer, hs, hr, signals, spineSignals]

theorem declareNamespace_fails (h : g.root.isSome = true ∨ g.spine ≠ []) (pre uri : String) :
    (Write.declareNamespace pre uri).Refuses g.writer := by
  refine ⟨.protocol .writeNamespace .rootAlreadyStarted, rfl, ?_⟩
  have started : g.writer.rootStarted = true := by
    rcases h with h | h
    · simp [writer, h]
    · cases hs : g.spine with
      | nil => exact absurd hs h
      | cons p sp => simp [writer, hs]
  simp [Write.declareNamespace, Write.violation, started]

end Draft

end FlowDoc.Xaml
