import FlowDoc.Proofs.Xaml.Operation

/-!
# What comes of a step

A step of a script stands for acts (`Step.Means`). On a sound draft three things can come of it (`Draft.Outcome`): it
succeeds and has done its acts; it is refused and has changed nothing; or it is a whole member whose value has no
spelling, and has left the member open. All that a step can do is in **`Sound.outcome`**, so that what the acts keep is
kept by the steps.
-/

namespace FlowDoc.Xaml

/-- What a step amounts to where it succeeds. -/
inductive Step.Means : Step → List Act → Prop
  | declareNamespace (pre uri : String) : Means (.declareNamespace pre uri) [.declare ⟨pre, uri⟩]
  | startObject (name : String) (type : ElementType) : Means (.startObject name) [.startObject type]
  | startObjectOf (type : ElementType) : Means (.startObjectOf type) [.startObject type]
  | endObject : Means .endObject [.endObject]
  | resolve (ref : MemberRef) : Means (.resolve ref) []
  | startMember (ref : MemberRef) (m : Member) : Means (.startMember ref) [.startMember m]
  | endMember : Means .endMember [.endMember]
  | noMember (ref : MemberRef) : Means (.member ref none) []
  | member (ref : MemberRef) (v : Scalar) (m : Member) (i : ItemPhrase) : Means (.member ref (some v)) [.put m i]
  | startItems (ref : MemberRef) (preserve : Bool) (m : Member) :
      Means (.startItems ref preserve) [.startItems m (.ofPreserve preserve)]
  | contentProperty : Means .contentProperty []
  | startContent (preserve : Bool) (m : Member) : Means (.startContent preserve) [.startItems m (.ofPreserve preserve)]
  | endItems : Means .endItems [.endItems]
  | text (s : String) : Means (.text s) [.text s]
  | char (c : Char) : Means (.char c) [.text (String.ofList [c])]
  | literal (s : String) : Means (.literal s) [.text s]
  | lineBreak : Means .lineBreak [.startObject .lineBreak, .endObject]
  | resource (ref : MemberRef) (style : Style.Ref) (m : Member) (i : ItemPhrase) :
      Means (.resource ref style) [.put m i]

namespace Draft

variable {g g' g'' : Draft}

/-- Acts one after the other. -/
inductive Path : Draft → List Act → Draft → Prop
  | nil (g : Draft) : Path g [] g
  | cons {g g' g'' : Draft} {a : Act} {as : List Act} : g.Move a g' → Path g' as g'' → Path g (a :: as) g''

theorem Path.of_nil (path : Path g [] g') : g' = g := by
  cases path
  rfl

theorem Path.of_cons {a : Act} {acts : List Act} (path : Path g (a :: acts) g') :
    ∃ g₁, g.Move a g₁ ∧ Path g₁ acts g' := by
  cases path with
  | cons m rest => exact ⟨_, m, rest⟩

theorem Path.sound {acts : List Act} (path : Path g acts g') (h : g.Sound) : g'.Sound := by
  induction path with
  | nil => exact h
  | cons m _ ih => exact ih (m.sound h)

/-- What can come of a step. -/
inductive Outcome (g : Draft) (s : Step) : Prop
  | done {acts : List Act} {g' : Draft} : s.Means acts → Path g acts g' → s.write.run g.writer = .ok () g'.writer →
      Outcome g s
  | refused : s.write.Refuses g.writer → Outcome g s
  /-- A value without spelling: the member is started, and stays open. -/
  | unspelled {ref : MemberRef} {v : Scalar} {m : Member} {e : RenderError} {g' : Draft} : s = .member ref (some v) →
      g.mode = .text → m.form.spell m.name v = .error e → g.Move (.startMember m) g' →
      s.write.run g.writer = .error e g'.writer → Outcome g s

/-! ## Operations that are one act -/

/-- An operation does one act, or it fails and leaves the writer as it was. -/
def Does (g : Draft) (a : Act) (m : Write Unit) : Prop :=
  (∃ g', g.Move a g' ∧ m.run g.writer = .ok () g'.writer) ∨ m.Refuses g.writer

/-- A look-up in front of an operation. -/
theorem Does.after {α : Type} {a : Act} {m : Write α} {f : α → Write Unit} {x : α}
    (hm : m.run g.writer = .ok x g.writer) (d : g.Does a (f x)) : g.Does a (m >>= f) := by
  rwa [Does, Write.Refuses, Write.run_bind_ok hm]

theorem Sound.startObjectOf (h : g.Sound) (type : ElementType) :
    g.Does (.startObject type) (Write.startObjectOf type) := by
  cases hs : g.spine with
  | nil =>
    cases hr : g.root with
    | none => exact Or.inl ⟨_, .startRoot type hr hs, startObjectOf_root h hr hs type⟩
    | some o => exact Or.inr (startObjectOf_fails (Or.inl ⟨hs, by simp [hr]⟩) type)
  | cons p sp =>
    cases hc : p.isContainer with
    | true => exact Or.inl ⟨_, .startChild type hs hc, startObjectOf_child h hs hc type⟩
    | false => exact Or.inr (startObjectOf_fails (Or.inr ⟨p, sp, hs, hc⟩) type)

theorem Sound.endObject (h : g.Sound) : g.Does .endObject Write.endObject := by
  by_cases hs : ∃ type members sp, g.spine = .object type members :: sp
  · obtain ⟨type, members, sp, hs⟩ := hs
    cases sp with
    | nil => exact Or.inl ⟨_, .endRoot hs, endObject_root (h.root_eq_none hs) hs⟩
    | cons p sp =>
      obtain ⟨nested, -, -⟩ := h.of_spine hs
      obtain ⟨-, hc, ho⟩ := nested.parent
      exact Or.inl ⟨_, .endChild hs, endObject_child hs hc ho⟩
  · exact Or.inr (endObject_fails fun type members sp hs' => hs ⟨type, members, sp, hs'⟩)

/-- Where a member can be started, and to what its name resolves. -/
theorem object_or_fails (g : Draft) (ref : MemberRef) :
    (∃ type members sp m, g.spine = .object type members :: sp ∧ (Write.resolve ref).run g.writer = .ok m g.writer) ∨
      ((∃ e, (Write.resolve ref).run g.writer = .error e g.writer) ∨
        ∀ type members sp, g.spine ≠ .object type members :: sp) := by
  by_cases hs : ∃ type members sp, g.spine = .object type members :: sp
  · obtain ⟨type, members, sp, hs⟩ := hs
    rcases Write.run_resolve ref g.writer with ⟨m, hm⟩ | he
    · exact Or.inl ⟨type, members, sp, m, hs, hm⟩
    · exact Or.inr (Or.inl he)
  · exact Or.inr (Or.inr fun type members sp hs' => hs ⟨type, members, sp, hs'⟩)

theorem Sound.startMember (h : g.Sound) (ref : MemberRef) : ∃ m, g.Does (.startMember m) (Write.startMember ref) := by
  rcases g.object_or_fails ref with ⟨type, members, sp, m, hs, hm⟩ | hf
  · exact ⟨m, Or.inl ⟨_, .startMember m hs, startMember_object h hs hm⟩⟩
  · exact ⟨runText, Or.inr (startMember_fails h hf)⟩

theorem Sound.endMember (h : g.Sound) : g.Does .endMember Write.endMember := by
  by_cases hs : ∃ m items sp, g.spine = .member m items :: sp
  · obtain ⟨m, items, sp, hs⟩ := hs
    obtain ⟨nested, -, -⟩ := h.of_spine hs
    cases nested with | member _ _ _ => exact Or.inl ⟨_, .endMember hs, endMember_member hs⟩
  · exact Or.inr (endMember_fails fun m items sp hs' => hs ⟨m, items, sp, hs'⟩)

theorem Sound.startItems (h : g.Sound) (ref : MemberRef) (preserve : Bool) :
    ∃ m, g.Does (.startItems m (.ofPreserve preserve)) (Write.startItems ref preserve) := by
  rcases g.object_or_fails ref with ⟨type, members, sp, m, hs, hm⟩ | hf
  · exact ⟨m, Or.inl ⟨_, .startItems m _ hs, startItems_object h hs hm preserve⟩⟩
  · exact ⟨runText, Or.inr (startItems_fails h hf preserve)⟩

theorem Sound.startContent (h : g.Sound) (preserve : Bool) :
    ∃ m, g.Does (.startItems m (.ofPreserve preserve)) (Write.startContent preserve) := by
  rcases Write.run_contentProperty g.writer with ⟨m, hm⟩ | ⟨e, he⟩
  · obtain ⟨m', does⟩ := h.startItems (.resolved m) preserve
    exact ⟨m', .after hm does⟩
  · exact ⟨runText, Or.inr ⟨e, Write.isRefusal_contentProperty he, Write.run_bind_error he⟩⟩

theorem Sound.endItems (h : g.Sound) : g.Does .endItems Write.endItems := by
  by_cases hs : ∃ m opened outerMode items sp, g.spine = .collection m opened outerMode items :: sp
  · obtain ⟨m, opened, outerMode, items, sp, hs⟩ := hs
    obtain ⟨nested, -, -⟩ := h.of_spine hs
    cases nested with | collection _ _ _ _ _ => exact Or.inl ⟨_, .endItems hs, endItems_collection h hs⟩
  · exact Or.inr (endItems_fails fun m opened outerMode items sp hs' => hs ⟨m, opened, outerMode, items, sp, hs'⟩)

theorem gather_does (g : Draft) (operation : Operation) (s : String) : g.Does (.text s) (Write.gather operation s) := by
  by_cases hs : ∃ p sp, g.spine = p :: sp ∧ p.isContainer = true
  · obtain ⟨p, sp, hs, hc⟩ := hs
    exact Or.inl ⟨_, .text s hs hc, gather_container hs hc operation s⟩
  · refine Or.inr (gather_fails (fun p hp => ?_) operation s)
    cases hc : p.isContainer with
    | false => rfl
    | true =>
      obtain ⟨sp, hsp⟩ := List.head?_eq_some_iff.mp hp
      exact absurd ⟨p, sp, hsp, hc⟩ hs

theorem declareNamespace_does (g : Draft) (pre uri : String) :
    g.Does (.declare ⟨pre, uri⟩) (Write.declareNamespace pre uri) := by
  by_cases hr : g.root = none ∧ g.spine = []
  · exact Or.inl ⟨_, .declare _ hr.1 hr.2, declareNamespace_start hr.1 hr.2 pre uri⟩
  · refine Or.inr (declareNamespace_fails ?_ pre uri)
    cases hroot : g.root with
    | none => exact Or.inr fun hs => hr ⟨hroot, hs⟩
    | some o => exact Or.inl rfl

/-! ## Operations that are several acts -/

/-- Only a spelling makes the item of a member fail. -/
theorem memberItem_eq_error {mode : ValueMode} {theme : Style.Theme} {m : Member} {v : Scalar} {e : RenderError}
    (h : memberItem mode theme m v = .error e) : mode = .text ∧ m.form.spell m.name v = .error e := by
  have map_eq_error : ∀ {r : Except RenderError String}, r.map (ItemPhrase.value <| .text ·) = .error e →
      r = .error e := by
    intro r hr
    cases r with
    | ok s => cases hr
    | error e => cases hr; rfl
  cases mode with
  | native => cases h
  | text =>
    refine ⟨rfl, ?_⟩
    cases v with
    | resourceKey key =>
      cases hk : theme.keyClass.contains key with
      | true => simp only [memberItem, hk, if_true] at h; cases h
      | false =>
        simp only [memberItem, hk, Bool.false_eq_true, if_false] at h
        exact map_eq_error h
    | _ => exact map_eq_error h

theorem Sound.member_outcome (h : g.Sound) (ref : MemberRef) (v : Scalar) : g.Outcome (.member ref (some v)) := by
  rcases g.object_or_fails ref with ⟨type, members, sp, m, hs, hm⟩ | hf
  · have run := member_object h hs hm v
    cases hi : memberItem g.mode g.theme m v with
    | ok i =>
      simp only [hi] at run
      have buffer : itemBuffer g.buffer i = g.buffer ∨ itemBuffer g.buffer i = (g.buffer.take true).2 := by
        cases i with
        | object o => exact Or.inr rfl
        | value v => exact Or.inl rfl
      exact .done (.member ref v m i) (.cons (.put m i hs (memberItem_isProper hi) buffer) (.nil _)) run
    | error e =>
      simp only [hi] at run
      obtain ⟨text, unspelled⟩ := memberItem_eq_error hi
      exact .unspelled rfl text unspelled (.startMember m hs) run
  · exact .refused (member_fails h hf v)

theorem Sound.resource_outcome (h : g.Sound) (ref : MemberRef) (style : Style.Ref) :
    g.Outcome (.resource ref style) := by
  rcases g.object_or_fails ref with ⟨type, members, sp, m, hs, hm⟩ | hf
  · obtain ⟨i, hi⟩ := memberItem_key g.mode g.theme (g.theme.keyOf style)
    have proper : (ItemPhrase.object (.mk .staticResourceExtension [.mk .positionalParameters false [i]])).IsProper := by
      simp [ItemPhrase.IsProper, ObjectPhrase.IsProper, MembersProper, MemberPhrase.IsProper, Separated, ItemsProper,
        memberItem_isProper hi]
    exact .done (.resource ref style m _) (.cons (.put m _ hs proper (Or.inr rfl)) (.nil _))
      (resource_object h hs hm hi)
  · exact .refused (resource_fails h hf style)

/-- A line break is an object that ends at once. -/
theorem Sound.lineBreak_outcome (h : g.Sound) : g.Outcome .lineBreak := by
  rcases h.startObjectOf .lineBreak with ⟨g₁, m₁, run₁⟩ | ⟨e, refusal, he⟩
  · have ended : ∃ g₂, g₁.Move .endObject g₂ ∧ Write.endObject.run g₁.writer = .ok () g₂.writer := by
      have sound := m₁.sound h
      cases m₁ with
      | startRoot _ hr hs => exact ⟨_, .endRoot rfl, endObject_root hr rfl⟩
      | startChild _ hs hc =>
        obtain ⟨-, hc, ho⟩ := Nested.parent sound.nested
        exact ⟨_, .endChild rfl, endObject_child rfl hc ho⟩
    obtain ⟨g₂, m₂, run₂⟩ := ended
    refine .done .lineBreak (.cons m₁ (.cons m₂ (.nil _))) ?_
    rw [Step.write, Write.lineBreak, Write.run_bind_ok run₁, run₂]
  · exact .refused ⟨e, refusal, Write.run_bind_error he⟩

/-! ## Steps -/

theorem Does.outcome {a : Act} {s : Step} (d : g.Does a s.write) (means : s.Means [a]) : g.Outcome s := by
  rcases d with ⟨g', m, ok⟩ | refused
  · exact .done means (.cons m (.nil _)) ok
  · exact .refused refused

/-- **One step.** All that can come of it on a sound draft. -/
theorem Sound.outcome (h : g.Sound) (s : Step) : g.Outcome s := by
  cases s with
  | declareNamespace pre uri => exact (g.declareNamespace_does pre uri).outcome (.declareNamespace pre uri)
  | startObject name =>
    rcases Write.run_lift (getType name) g.writer with ⟨type, -, hl⟩ | ⟨e, he, hl⟩
    · exact Does.outcome (.after hl (h.startObjectOf type)) (.startObject name type)
    · exact .refused ⟨e, isRefusal_getType he, Write.run_bind_error hl⟩
  | startObjectOf type => exact (h.startObjectOf type).outcome (.startObjectOf type)
  | endObject => exact Does.outcome h.endObject .endObject
  | resolve ref =>
    rcases Write.run_resolve ref g.writer with ⟨m, hm⟩ | ⟨e, he⟩
    · exact .done (.resolve ref) (.nil g) (by rw [Step.write, Write.run_bind_ok hm]; rfl)
    · exact .refused ⟨e, Write.isRefusal_resolve he, Write.run_bind_error he⟩
  | startMember ref => obtain ⟨m, does⟩ := h.startMember ref; exact does.outcome (.startMember ref m)
  | endMember => exact Does.outcome h.endMember .endMember
  | member ref value =>
    cases value with
    | none => exact .done (.noMember ref) (.nil g) rfl
    | some v => exact h.member_outcome ref v
  | startItems ref preserve =>
    obtain ⟨m, does⟩ := h.startItems ref preserve
    exact does.outcome (.startItems ref preserve m)
  | contentProperty =>
    rcases Write.run_contentProperty g.writer with ⟨m, hm⟩ | ⟨e, he⟩
    · exact .done .contentProperty (.nil g) (by rw [Step.write, Write.run_bind_ok hm]; rfl)
    · exact .refused ⟨e, Write.isRefusal_contentProperty he, Write.run_bind_error he⟩
  | startContent preserve =>
    obtain ⟨m, does⟩ := h.startContent preserve
    exact does.outcome (.startContent preserve m)
  | endItems => exact Does.outcome h.endItems .endItems
  | text s => exact Does.outcome (g.gather_does .writeText s) (.text s)
  | char c => exact Does.outcome (g.gather_does .writeChar _) (.char c)
  | literal s => exact Does.outcome (g.gather_does .writeValue s) (.literal s)
  | lineBreak => exact h.lineBreak_outcome
  | resource ref style => exact h.resource_outcome ref style

end Draft

end FlowDoc.Xaml
