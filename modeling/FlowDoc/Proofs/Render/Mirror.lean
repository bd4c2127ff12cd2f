import FlowDoc.Proofs.Render.Frame

/-!
# Typed and spelled values

A writer that spells its values goes the same way as one that sends them as they are: as long as both run, their scopes
and buffers are equal, and what the one has sent is what the other has sent with every value spelled (`Mirrored`). Only
a value without a spelling stops the one and not the other. Each operation keeps this (`Mirrors`); the one that differs
is the value of a member, where a known resource key is written as an object of its own, which leaves a buffer that was
just taken as it was (`agree_key`). So a document's record in spelled values is its record in typed ones with each
value spelled (**`documentEvents_spelled`**).
-/

namespace FlowDoc.Render

open Xaml
open Style (KeyClass)
open Text (Buffer)

/-! ## Spelled events -/

/-- A key as an object: a reference to the static member of the key class. -/
def staticReferenceEvents (keys : KeyClass) (key : ResourceKey) : List Event :=
  [.startObject "StaticExtension", .startMember "x:_PositionalParameters", .value (.text (keys.staticReference key)),
    .endMember, .endObject]

/-- What stands for an event in a record of spelled values: for a value its spelling, a known key as an object. -/
def spelledEvents (keys : KeyClass) : Event → List Event
  | .value (.resourceKey key) =>
    if keys.contains key then staticReferenceEvents keys key else [.value (.text (Scalar.resourceKey key).display)]
  | .value v => [.value (.text v.display)]
  | e => [e]

/-- A key as an object, in the signals that it is sent with. -/
def staticReferenceSignals (keys : KeyClass) (key : ResourceKey) : List Signal :=
  [.startObject .staticExtension, .startMember .positionalParameters, .value (.text (keys.staticReference key)),
    .endMember, .endObject]

/-- What is sent in the place of a signal if values are spelled. -/
def spelledSignals (keys : KeyClass) : Signal → List Signal
  | .value (.resourceKey key) =>
    if keys.contains key then staticReferenceSignals keys key else [.value (.text (Scalar.resourceKey key).display)]
  | .value v => [.value (.text v.display)]
  | s => [s]

theorem spelledSignals_value (keys : KeyClass) {v : Scalar} (hv : ∀ key, v ≠ .resourceKey key) :
    spelledSignals keys (.value v) = [.value (.text v.display)] := by
  cases v with
  | resourceKey key => exact absurd rfl (hv key)
  | _ => rfl

/-- The record of what is sent for a signal. -/
theorem map_spelledSignals (keys : KeyClass) (s : Signal) :
    (spelledSignals keys s).map Event.ofSignal = spelledEvents keys (Event.ofSignal s) := by
  have reference : ∀ key,
      (staticReferenceSignals keys key).map Event.ofSignal = staticReferenceEvents keys key := fun key => by
    simp [staticReferenceSignals, staticReferenceEvents, Event.ofSignal]
    decide
  cases s with
  | value v =>
    cases v with
    | resourceKey key =>
      simp only [spelledSignals, spelledEvents, Event.ofSignal]
      split
      · exact reference key
      · rfl
    | _ => rfl
  | _ => rfl

/-! ## The simulation -/

/-- A writer of typed values and one of spelled values that have gone the same way under a theme. -/
structure Mirrored (theme : Style.Theme) (wn wt : Writer) : Prop where
  native : wn.mode = .native
  text : wt.mode = .text
  themes : wn.theme = theme ∧ wt.theme = theme
  scopes : wt.scopes = wn.scopes
  buffer : wt.buffer = wn.buffer
  rootStarted : wt.rootStarted = wn.rootStarted
  sent : wt.sent.toList = wn.sent.toList.flatMap (spelledSignals theme.keyClass)

/-- Results that agree: both succeed, or both fail, or a value has no spelling. -/
inductive Agree {α : Type} (theme : Style.Theme) :
    EStateM.Result RenderError Writer α → EStateM.Result RenderError Writer α → Prop
  | ok {a : α} {wn wt : Writer} : Mirrored theme wn wt → Agree theme (.ok a wn) (.ok a wt)
  | unspelled {a : α} {wn wt : Writer} (member value : String) :
      Agree theme (.ok a wn) (.error (.conversion member value) wt)
  | error {e e' : RenderError} {wn wt : Writer} : Agree theme (.error e wn) (.error e' wt)

/-- Two operations that agree from mirrored writers. -/
def Mirrors {α : Type} (theme : Style.Theme) (m m' : Write α) : Prop :=
  ∀ wn wt, Mirrored theme wn wt → Agree theme (m.run wn) (m'.run wt)

/-- An operation that goes the same way in both writers. -/
abbrev IsMirrored {α : Type} (theme : Style.Theme) (m : Write α) : Prop := Mirrors theme m m

variable {α β : Type} {theme : Style.Theme} {m m' : Write α} {f f' : α → Write β}

theorem Agree.bind_of {wn wt : Writer} (hm : Agree theme (m.run wn) (m'.run wt))
    (hf : ∀ a vn vt, m.run wn = .ok a vn → Mirrored theme vn vt → Agree theme ((f a).run vn) ((f' a).run vt)) :
    Agree theme ((m >>= f).run wn) ((m' >>= f').run wt) := by
  generalize hn : m.run wn = rn at hm
  generalize ht : m'.run wt = rt at hm
  cases hm with
  | ok mirrored =>
    rw [Write.run_bind_ok hn, Write.run_bind_ok ht]
    exact hf _ _ _ hn mirrored
  | @unspelled a vn vt member value =>
    -- whatever the one does next, the other has stopped
    rw [Write.run_bind_ok hn, Write.run_bind_error ht]
    cases (f a).run vn with
    | ok b un => exact .unspelled member value
    | error e un => exact .error
  | error =>
    rw [Write.run_bind_error hn, Write.run_bind_error ht]
    exact .error

theorem Mirrors.bind (hm : Mirrors theme m m') (hf : ∀ a, Mirrors theme (f a) (f' a)) :
    Mirrors theme (m >>= f) (m' >>= f') :=
  fun wn wt h => (hm wn wt h).bind_of fun a vn vt _ h' => hf a vn vt h'

theorem mirrors_pure (a : α) : IsMirrored theme (pure a : Write α) := fun _ _ h => .ok h

theorem mirrors_throw (e : RenderError) : IsMirrored theme (throw e : Write α) := fun _ _ _ => .error

theorem mirrors_lift (r : Except RenderError α) : IsMirrored theme (Write.lift r) := by
  cases r with
  | ok a => exact mirrors_pure a
  | error e => exact mirrors_throw e

/-- What is looked up in the writer is the same in both. -/
theorem mirrors_get {f : Writer → Write β} (same : ∀ wn wt, Mirrored theme wn wt → f wt = f wn)
    (hf : ∀ w, IsMirrored theme (f w)) : IsMirrored theme (get >>= f) := by
  intro wn wt h
  rw [Write.run_get_bind, Write.run_get_bind, same wn wt h]
  exact hf wn wn wt h

theorem mirrors_modify {g : Writer → Writer} (hg : ∀ wn wt, Mirrored theme wn wt → Mirrored theme (g wn) (g wt)) :
    IsMirrored theme (modify g : Write Unit) := fun wn wt h => .ok (hg wn wt h)

/-- Signals of which one stands for the other. -/
theorem mirrors_send {s t : Signal}
    (hs : ∀ keys, spelledSignals keys s = [t]) : Mirrors theme (Write.send s) (Write.send t) := by
  intro wn wt h
  refine .ok ⟨h.native, h.text, h.themes, h.scopes, h.buffer, h.rootStarted, ?_⟩
  simp [h.sent, hs]

/-! ## Operations -/

theorem mirrors_openItems : IsMirrored theme Write.openItems := by
  refine mirrors_get (fun wn wt h => by simp only [h.scopes]) fun w => ?_
  split
  · refine (mirrors_send fun _ => rfl).bind fun _ => mirrors_modify fun wn wt h => ?_
    exact ⟨h.native, h.text, h.themes, rfl, h.buffer, h.rootStarted, h.sent⟩
  · exact mirrors_pure ()

theorem mirrors_sendPiece (piece : Text.Piece) : IsMirrored theme (Write.sendPiece piece) := by
  cases piece with
  | value s => exact mirrors_send fun _ => rfl
  | verbatim s =>
    refine (mirrors_lift _).bind fun text => ?_
    refine (mirrors_send fun _ => rfl).bind fun _ => ?_
    refine (mirrors_send fun _ => rfl).bind fun _ => ?_
    refine (mirrors_send fun _ => rfl).bind fun _ => ?_
    refine (mirrors_send fun _ => rfl).bind fun _ => ?_
    exact mirrors_send fun _ => rfl

theorem mirrors_flushText (beforeSibling : Bool) : IsMirrored theme (Write.flushText beforeSibling) := by
  refine mirrors_get (fun wn wt h => by simp only [h.buffer]) fun w => ?_
  generalize w.buffer.take beforeSibling = taken
  obtain ⟨piece?, buffer⟩ := taken
  refine (mirrors_modify fun wn wt h => ?_).bind fun _ => ?_
  · exact ⟨h.native, h.text, h.themes, h.scopes, rfl, h.rootStarted, h.sent⟩
  · cases piece? with
    | none => exact mirrors_pure ()
    | some piece => exact mirrors_openItems.bind fun _ => mirrors_sendPiece piece

theorem mirrors_declareNamespace (pre uri : String) : IsMirrored theme (Write.declareNamespace pre uri) := by
  refine mirrors_get (fun wn wt h => by simp only [h.rootStarted]) fun w => ?_
  split
  · exact mirrors_throw _
  · exact mirrors_send fun _ => rfl

theorem mirrors_gather (operation : Operation) (s : String) : IsMirrored theme (Write.gather operation s) := by
  have push : IsMirrored theme (modify fun w => { w with buffer := w.buffer.pushAll s } : Write Unit) := by
    refine mirrors_modify fun wn wt h => ?_
    exact ⟨h.native, h.text, h.themes, h.scopes, by rw [h.buffer], h.rootStarted, h.sent⟩
  refine mirrors_get (fun wn wt h => by simp only [h.scopes]) fun w => ?_
  split
  · exact push
  · exact push
  · exact mirrors_throw _

theorem mirrors_startObjectOf (type : ElementType) : IsMirrored theme (Write.startObjectOf type) := by
  have started : IsMirrored theme (do
      Write.openItems
      Write.flushText true
      Write.send (.startObject type)
      modify fun w => { w with rootStarted := true, scopes := .object type :: w.scopes }) := by
    refine mirrors_openItems.bind fun _ => (mirrors_flushText true).bind fun _ => ?_
    refine (mirrors_send fun _ => rfl).bind fun _ => mirrors_modify fun wn wt h => ?_
    exact ⟨h.native, h.text, h.themes, by rw [h.scopes], h.buffer, rfl, h.sent⟩
  refine mirrors_get (fun wn wt h => by simp only [h.scopes, h.rootStarted]) fun w => ?_
  split
  · exact mirrors_throw _
  · split
    · exact mirrors_throw _
    · exact started
  · exact started

theorem mirrors_popScope : IsMirrored theme Write.popScope := by
  refine mirrors_modify fun wn wt h => ?_
  exact ⟨h.native, h.text, h.themes, by rw [h.scopes], h.buffer, h.rootStarted, h.sent⟩

theorem mirrors_endObject : IsMirrored theme Write.endObject := by
  refine mirrors_get (fun wn wt h => by simp only [h.scopes]) fun w => ?_
  split
  · exact mirrors_popScope.bind fun _ => mirrors_send fun _ => rfl
  · exact mirrors_throw _
  · exact mirrors_throw _

theorem mirrors_resolve (ref : MemberRef) : IsMirrored theme (Write.resolve ref) := by
  cases ref with
  | resolved member => exact mirrors_pure member
  | attached owner name => exact mirrors_lift _
  | name name =>
    refine mirrors_get (fun wn wt h => by simp only [Writer.currentType?, h.scopes]) fun w => ?_
    split
    · exact mirrors_lift _
    · exact mirrors_throw _

theorem mirrors_startMember (ref : MemberRef) : IsMirrored theme (Write.startMember ref) := by
  have started : IsMirrored theme (do
      let member ← Write.resolve ref
      Write.send (.startMember member)
      Write.pushScope .member) := by
    refine (mirrors_resolve ref).bind fun member => (mirrors_send fun _ => rfl).bind fun _ => ?_
    refine mirrors_modify fun wn wt h => ?_
    exact ⟨h.native, h.text, h.themes, by rw [h.scopes], h.buffer, h.rootStarted, h.sent⟩
  refine mirrors_get (fun wn wt h => by simp only [h.scopes, h.buffer]) fun w => ?_
  cases w.scopes with
  | nil => exact mirrors_throw _
  | cons s rest =>
    cases s with
    | object type =>
      by_cases pending : w.buffer.isPending = true
      · simp only [if_pos pending]; exact mirrors_throw _
      · simp only [if_neg pending]; exact started
    | member => exact mirrors_throw _
    | items _ _ _ => exact mirrors_throw _

theorem mirrors_endMember : IsMirrored theme Write.endMember := by
  refine mirrors_get (fun wn wt h => by simp only [h.scopes]) fun w => ?_
  split
  · refine (mirrors_flushText false).bind fun _ => mirrors_popScope.bind fun _ => ?_
    exact mirrors_send fun _ => rfl
  · exact mirrors_throw _

theorem mirrors_startItems (ref : MemberRef) (preserve : Bool) : IsMirrored theme (Write.startItems ref preserve) := by
  have started : IsMirrored theme (do
      let member ← Write.resolve ref
      modify fun w =>
        { w with
          buffer := .empty (.ofPreserve preserve)
          scopes := .items member false w.buffer.mode :: w.scopes }) := by
    refine (mirrors_resolve ref).bind fun member => mirrors_modify fun wn wt h => ?_
    exact ⟨h.native, h.text, h.themes, by rw [h.scopes, h.buffer], rfl, h.rootStarted, h.sent⟩
  refine mirrors_get (fun wn wt h => by simp only [h.scopes, h.buffer]) fun w => ?_
  cases w.scopes with
  | nil => exact mirrors_throw _
  | cons s rest =>
    cases s with
    | object type =>
      by_cases pending : w.buffer.isPending = true
      · simp only [if_pos pending]; exact mirrors_throw _
      · simp only [if_neg pending]; exact started
    | member => exact mirrors_throw _
    | items _ opened _ => cases opened <;> exact mirrors_throw _

theorem mirrors_contentProperty : IsMirrored theme Write.contentProperty := by
  refine mirrors_get (fun wn wt h => by simp only [Writer.currentType?, h.scopes]) fun w => ?_
  split
  · exact mirrors_lift _
  · exact mirrors_throw _

theorem mirrors_endItems : IsMirrored theme Write.endItems := by
  have resume : ∀ outerMode,
      IsMirrored theme (modify fun w => { w with buffer := w.buffer.resume outerMode } : Write Unit) := by
    intro outerMode
    refine mirrors_modify fun wn wt h => ?_
    exact ⟨h.native, h.text, h.themes, h.scopes, by rw [h.buffer], h.rootStarted, h.sent⟩
  refine mirrors_get (fun wn wt h => by simp only [h.scopes]) fun w => ?_
  split
  · refine (mirrors_flushText false).bind fun _ => ?_
    refine mirrors_get (fun wn wt h => by simp only [h.scopes]) fun v => ?_
    split
    · refine (mirrors_modify fun wn wt h => ?_).bind fun _ => ?_
      · exact ⟨h.native, h.text, h.themes, rfl, h.buffer, h.rootStarted, h.sent⟩
      · split
        · exact (mirrors_send fun _ => rfl).bind fun _ => resume _
        · exact resume _
    · exact mirrors_throw _
  · exact mirrors_throw _

/-! ### Members with a value -/

/-- A buffer that stays as it is when it is taken. -/
def Taken (b : Buffer) : Prop := ∀ beforeSibling, b.take beforeSibling = (none, b)

theorem taken_take (b : Buffer) : Taken (b.take true).2 := by
  intro beforeSibling
  obtain ⟨text, mode, due, atStart⟩ := b
  cases mode <;> cases beforeSibling <;> simp [Buffer.take]

theorem Taken.not_pending {b : Buffer} (h : Taken b) : b.isPending = false := by
  have taken := congrArg (·.2.text) (h true)
  have text : b.text = "" := by simpa using taken.symm
  simp [Buffer.isPending, text]

/-- In a member, with nothing gathered, an extension with one argument is sent and changes nothing else. -/
theorem reference_run {w : Writer} {rest : List Scope} (hs : w.scopes = .member :: rest) (hb : Taken w.buffer)
    (hr : w.rootStarted = true) (s : String) :
    (do Write.startObjectOf .staticExtension
        Write.startMember (.resolved .positionalParameters)
        Write.send (.value (.text s))
        Write.endMember
        Write.endObject).run w =
      .ok () { w with sent := w.sent ++ #[Signal.startObject .staticExtension, .startMember .positionalParameters,
        .value (.text s), .endMember, .endObject] } := by
  have pending := hb.not_pending
  obtain ⟨mode, theme, scopes, buffer, rootStarted, sent⟩ := w
  simp only at hs hb hr pending
  subst hs hr
  simp [Write.startObjectOf, Write.openItems, Write.flushText, hb true, hb false, Write.send, Write.startMember,
    pending, Write.resolve, Write.pushScope, Write.endMember, Write.popScope, Write.endObject]
  exact Array.toList_inj.mp (by simp)

/-- A value that is no key: the one sends it, the other its spelling, if there is one. -/
theorem mirrors_memberValue (member : Member) {v : Scalar} (hv : ∀ key, v ≠ .resourceKey key) :
    IsMirrored theme (Write.memberValue member v) := by
  intro wn wt h
  have typed : (Write.memberValue member v).run wn = (Write.send (.value v)).run wn := by
    rw [Write.memberValue, Write.run_get_bind, Write.run_get_bind, h.native]
  have spelled : (Write.memberValue member v).run wt =
      (do Write.send (.value (.text (← Write.lift (member.form.spell member.name v))))).run wt := by
    rw [Write.memberValue, Write.run_get_bind, Write.run_get_bind, h.text]
    cases v with
    | resourceKey key => exact absurd rfl (hv key)
    | _ => rfl
  rw [typed, spelled, ValueForm.spell]
  split
  · have sent : Mirrors theme (Write.send (.value v)) (Write.send (.value (.text v.display))) :=
      mirrors_send fun keys => spelledSignals_value keys hv
    exact sent wn wt h
  · exact .unspelled _ _

/-- A key: the one sends it, the other its name, or an object if it is a known one. -/
theorem agree_key {wn wt : Writer} {rest : List Scope} (h : Mirrored theme wn wt) (hs : wn.scopes = .member :: rest)
    (hb : Taken wn.buffer) (hr : wn.rootStarted = true) (key : ResourceKey) :
    Agree theme ((Write.memberValue .positionalParameters (.resourceKey key)).run wn)
      ((Write.memberValue .positionalParameters (.resourceKey key)).run wt) := by
  have typed : (Write.memberValue .positionalParameters (.resourceKey key)).run wn =
      (Write.send (.value (.resourceKey key))).run wn := by
    rw [Write.memberValue, Write.run_get_bind, Write.run_get_bind, h.native]
  rw [typed, Write.memberValue, Write.run_get_bind, Write.run_get_bind, h.text, h.themes.2]
  by_cases known : theme.keyClass.contains key = true
  · have referred := reference_run (h.scopes.trans hs) (by rw [h.buffer]; exact hb) (h.rootStarted.trans hr)
      (theme.keyClass.staticReference key)
    simp only [if_pos known, referred]
    refine .ok ⟨h.native, h.text, h.themes, h.scopes, h.buffer, h.rootStarted, ?_⟩
    simp [h.sent, spelledSignals, known, staticReferenceSignals]
  · have named : Member.positionalParameters.form.spell Member.positionalParameters.name (.resourceKey key) =
        .ok (Scalar.resourceKey key).display := rfl
    simp only [if_neg known, named]
    refine .ok ⟨h.native, h.text, h.themes, h.scopes, h.buffer, h.rootStarted, ?_⟩
    simp [h.sent, spelledSignals, known]

theorem flushText_buffer {beforeSibling : Bool} {w w' : Writer} {u : Unit}
    (run : (Write.flushText beforeSibling).run w = .ok u w') : w'.buffer = (w.buffer.take beforeSibling).2 := by
  rw [Write.flushText, Write.run_get_bind] at run
  generalize w.buffer.take beforeSibling = taken at run ⊢
  obtain ⟨piece?, buffer⟩ := taken
  cases piece? with
  | none =>
    cases run
    rfl
  | some piece =>
    have rest : (do Write.openItems; Write.sendPiece piece).run { w with buffer } = .ok u w' := run
    obtain ⟨_, v, opened, sent⟩ := Write.run_bind_eq_ok rest
    rw [Draft.sendPiece_run] at sent
    cases sent
    rw [Write.openItems, Write.run_get_bind] at opened
    split at opened <;> cases opened <;> rfl

/-- What a reference is written into: a member on top, and nothing gathered. -/
theorem resource_start {ref : MemberRef} {type : ElementType} {w w' : Writer} {u : Unit}
    (run : (do Write.startMember ref
               Write.startObjectOf type
               Write.startMember (.resolved .positionalParameters)).run w = .ok u w') :
    Taken w'.buffer ∧ w'.rootStarted = true ∧ ∃ rest, w'.scopes = .member :: rest := by
  obtain ⟨_, v, -, rest⟩ := Write.run_bind_eq_ok run
  obtain ⟨_, v', started, rest⟩ := Write.run_bind_eq_ok rest
  obtain ⟨v₁, v₂, -, flushed, rfl⟩ := startObjectOf_inv started
  obtain ⟨member, rfl⟩ := startMember_inv rest
  have taken : Taken v₂.buffer := by
    rw [flushText_buffer flushed]
    exact taken_take _
  exact ⟨taken, rfl, _, rfl⟩

/-- **References to resources.** -/
theorem mirrors_resource (ref : MemberRef) (style : Style.Ref) : IsMirrored theme (Write.resource ref style) := by
  refine mirrors_get (fun wn wt h => by simp only [h.themes.1, h.themes.2]) fun w => ?_
  have start : IsMirrored theme (do
      Write.startMember ref
      Write.startObjectOf .staticResourceExtension
      Write.startMember (.resolved .positionalParameters)) :=
    (mirrors_startMember ref).bind fun _ => (mirrors_startObjectOf _).bind fun _ => mirrors_startMember _
  have finish : IsMirrored theme (do Write.endMember; Write.endObject; Write.endMember) :=
    mirrors_endMember.bind fun _ => mirrors_endObject.bind fun _ => mirrors_endMember
  have whole : IsMirrored theme (do
      (do Write.startMember ref
          Write.startObjectOf .staticResourceExtension
          Write.startMember (.resolved .positionalParameters))
      (do Write.memberValue .positionalParameters (.resourceKey (w.theme.keyOf style))
          (do Write.endMember; Write.endObject; Write.endMember))) := by
    intro wn wt h
    refine (start wn wt h).bind_of fun _ vn vt run h' => ?_
    obtain ⟨taken, started, rest, hs⟩ := resource_start run
    exact (agree_key h' hs taken started _).bind_of fun _ un ut _ h'' => finish un ut h''
  simpa only [bind_assoc] using whole

/-! ## Documents -/

/-- **What is composed goes the same way** whether values are sent as they are or spelled. -/
theorem Composed.isMirrored {top : Top} {m : Write Unit} (hc : Composed top m) : IsMirrored theme m := by
  induction hc with
  | nothing => exact mirrors_pure ()
  | fail _ => exact mirrors_throw _
  | andThen _ _ hm hn => exact hm.bind fun _ => hn
  | gather operation s => exact mirrors_gather operation s
  | object type _ hb => exact (mirrors_startObjectOf type).bind fun _ => hb.bind fun _ => mirrors_endObject
  | member ref hv =>
    refine (mirrors_resolve ref).bind fun member => (mirrors_startMember (.resolved member)).bind fun _ => ?_
    exact (mirrors_memberValue member hv).bind fun _ => mirrors_endMember
  | resource ref style => exact mirrors_resource ref style
  | collection ref preserve _ hb =>
    exact (mirrors_startItems ref preserve).bind fun _ => hb.bind fun _ => mirrors_endItems
  | content preserve _ hb =>
    refine (mirrors_contentProperty.bind fun member => ?_).bind fun _ => hb.bind fun _ => mirrors_endItems
    exact mirrors_startItems (.resolved member) preserve

theorem mirrors_writeDocument {h : Handlers} (hh : h.AreBuiltIn) (o : Options) (d : Document) :
    IsMirrored theme (writeDocument h o d) := by
  refine (mirrors_declareNamespace _ _).bind fun _ => (mirrors_declareNamespace _ _).bind fun _ => ?_
  refine (mirrors_declareNamespace _ _).bind fun _ => (mirrors_startObjectOf .flowDocument).bind fun _ => ?_
  exact (composed_document hh o d).isMirrored.bind fun _ => mirrors_endObject

/-- The writers that documents start from. -/
theorem mirrored_start (theme : Style.Theme) :
    Mirrored theme { mode := .native, theme } { mode := .text, theme } :=
  ⟨rfl, rfl, ⟨rfl, rfl⟩, rfl, rfl, rfl, rfl⟩

/-- Outputs that agree: one is the other with its values spelled, or both fail, or a value has no spelling. -/
def OutputsAgree {ε : Type} (spell : ε → List ε) : Except RenderError (List ε) → Except RenderError (List ε) → Prop
  | .ok typed, .ok spelled => spelled = typed.flatMap spell
  | .ok _, .error e => ∃ member value, e = .conversion member value
  | .error _, .ok _ => False
  | .error _, .error _ => True

theorem signalsAgree_document {h : Handlers} (hh : h.AreBuiltIn) (o : Options) (d : Document) :
    OutputsAgree (spelledSignals o.theme.keyClass) (documentSignals h o .native d) (documentSignals h o .text d) := by
  have agree := mirrors_writeDocument hh o d _ _ (mirrored_start o.theme)
  simp only [documentSignals]
  cases hn : (writeDocument h o d).run { mode := .native, theme := o.theme } with
  | ok a vn =>
    cases ht : (writeDocument h o d).run { mode := .text, theme := o.theme } with
    | ok b vt =>
      rw [hn, ht] at agree
      cases agree with
      | ok mirrored =>
        simp only [Writer.finish, mirrored.scopes]
        by_cases closed : vn.scopes.isEmpty = true
        · simpa [closed, OutputsAgree] using mirrored.sent
        · simp [closed, OutputsAgree]
    | error e vt =>
      rw [hn, ht] at agree
      cases agree with
      | unspelled member value =>
        simp only [Writer.finish]
        by_cases closed : vn.scopes.isEmpty = true
        · simp [closed, OutputsAgree]
        · simp [closed, OutputsAgree]
  | error e vn =>
    cases ht : (writeDocument h o d).run { mode := .text, theme := o.theme } with
    | ok b vt =>
      rw [hn, ht] at agree
      cases agree
    | error e' vt => trivial

theorem recordsAgree_document {h : Handlers} (hh : h.AreBuiltIn) (o : Options) (d : Document) :
    OutputsAgree (spelledEvents o.theme.keyClass) (documentEvents h o .native d) (documentEvents h o .text d) := by
  have agree := signalsAgree_document hh o d
  simp only [documentEvents]
  generalize documentSignals h o .native d = typed at agree ⊢
  generalize documentSignals h o .text d = spelled at agree ⊢
  cases typed <;> cases spelled
  · trivial
  · exact agree
  · exact agree
  · have same := congrArg (List.map Event.ofSignal) agree
    simpa [OutputsAgree, Except.map, List.map_flatMap, List.flatMap_map, map_spelledSignals] using same

/-- **Spelled values.** A document's record of spelled values, where there is one, is its record of typed values with
each value spelled and nothing else changed; where there is only a record of typed values, a value has no spelling. -/
theorem documentEvents_spelled (o : Options) (d : Document) :
    (∀ spelled, documentEvents .builtIn o .text d = .ok spelled → ∃ typed,
      documentEvents .builtIn o .native d = .ok typed ∧
        spelled = typed.flatMap (spelledEvents o.theme.keyClass)) ∧
    ∀ typed e, documentEvents .builtIn o .native d = .ok typed → documentEvents .builtIn o .text d = .error e →
      ∃ member value, e = .conversion member value := by
  have agree := recordsAgree_document areBuiltIn_builtIn o d
  constructor
  · intro spelled ht
    rw [ht] at agree
    cases hn : documentEvents .builtIn o .native d with
    | ok typed => rw [hn] at agree; exact ⟨typed, rfl, agree⟩
    | error e => rw [hn] at agree; exact agree.elim
  · intro typed e hn ht
    rw [hn, ht] at agree
    exact agree

/-- A heading with a link, whose values are keys and an address; and a list that starts too high to be spelled. -/
theorem documentEvents_spelled_heading :
    (∃ typed spelled,
      documentEvents .builtIn {} .native [.heading 1 [.text "a", .link "u" none false [.code "b"]]] = .ok typed ∧
      documentEvents .builtIn {} .text [.heading 1 [.text "a", .link "u" none false [.code "b"]]] = .ok spelled ∧
      spelled = typed.flatMap (spelledEvents {})) ∧
    ∃ e member value,
      documentEvents .builtIn {} .text [.list true (some 2147483648) []] = .error e ∧ e = .conversion member value := by
  have found : (documentEvents .builtIn {} .text
      [.heading 1 [.text "a", .link "u" none false [.code "b"]]]).isOk = true := by decide +kernel
  have typed : (documentEvents .builtIn {} .native [.list true (some 2147483648) []]).isOk = true := by decide +kernel
  have untyped : (documentEvents .builtIn {} .text [.list true (some 2147483648) []]).isOk = false := by decide +kernel
  constructor
  · cases ht : documentEvents .builtIn {} .text [.heading 1 [.text "a", .link "u" none false [.code "b"]]] with
    | error e => rw [ht] at found; cases found
    | ok spelled =>
      obtain ⟨typed, hn, same⟩ := (documentEvents_spelled {} _).1 spelled ht
      exact ⟨typed, spelled, hn, rfl, same⟩
  · cases ht : documentEvents .builtIn {} .text [.list true (some 2147483648) []] with
    | ok spelled => rw [ht] at untyped; cases untyped
    | error e =>
      cases hn : documentEvents .builtIn {} .native [.list true (some 2147483648) []] with
      | error e => rw [hn] at typed; cases typed
      | ok events =>
        obtain ⟨member, value, he⟩ := (documentEvents_spelled {} _).2 events e hn ht
        exact ⟨e, member, value, rfl, he⟩

end FlowDoc.Render
