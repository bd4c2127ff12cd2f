import FlowDoc.Proofs.Render.Frame

/-!
# The scopes beneath what fails

Where an operation fails it may leave open what it has started. What was open before it is then still open beneath that
(`Above`), but for a collection on top that may have been opened. This holds of what is composed, from every state of a
writer (**`Composed.failsAbove`**).
-/

namespace FlowDoc.Render

open Xaml

/-- Whether the scopes before are those after beneath some more. -/
def Above (before after : List Scope) : Prop := ∃ added settled, Settled before settled ∧ after = added ++ settled

theorem Above.refl (scopes : List Scope) : Above scopes scopes := ⟨[], scopes, .refl scopes, rfl⟩

theorem Above.of_settled {s t u : List Scope} (h : Settled s t) (above : Above t u) : Above s u := by
  obtain ⟨added, v, settled, rfl⟩ := above
  exact ⟨added, v, h.trans settled, rfl⟩

/-- What is above one more scope. -/
theorem Above.of_cons {s t u : List Scope} {scope : Scope} (h : Settled s t) (above : Above (scope :: t) u) :
    Above s u := by
  obtain ⟨added, v, settled, rfl⟩ := above
  have beneath : ∃ top, v = top :: t := by
    rcases settled with rfl | ⟨_, _, _, hs, rfl⟩
    · exact ⟨scope, rfl⟩
    · obtain ⟨-, rfl⟩ := List.cons.inj hs
      exact ⟨_, rfl⟩
  obtain ⟨top, rfl⟩ := beneath
  exact ⟨added ++ [top], t, h, by simp⟩

/-- An operation that leaves what was open beneath what it leaves open where it fails. -/
def FailsAbove {α : Type} (m : Write α) : Prop :=
  ∀ w e w', m.run w = .error e w' → Above w.scopes w'.scopes

/-- An operation that never fails. -/
def Sure {α : Type} (m : Write α) : Prop := ∀ w e w', m.run w ≠ .error e w'

variable {α β : Type} {m : Write α} {f : α → Write β}

theorem Sure.failsAbove (h : Sure m) : FailsAbove m := fun w e w' run => absurd run (h w e w')

theorem failsAbove_throw (e : RenderError) : FailsAbove (throw e : Write α) := by
  intro w _ w' run
  cases run
  exact .refl _

theorem failsAbove_lift (r : Except RenderError α) : FailsAbove (Write.lift r) := by
  cases r with
  | ok a => intro w e w' run; cases run
  | error e => exact failsAbove_throw e

theorem failsAbove_get {f : Writer → Write β} (hf : ∀ w, FailsAbove (f w)) : FailsAbove (get >>= f) :=
  fun w e w' run => hf w w e w' run

/-- What fails in the second of two operations is above what the first leaves. -/
theorem FailsAbove.bind {R : List Scope → List Scope → Prop} (hm : FailsAbove m) (hs : Scoped m R)
    (hf : ∀ a, FailsAbove (f a)) (hR : ∀ s t u, R s t → Above t u → Above s u) : FailsAbove (m >>= f) := by
  intro w e w' run
  cases first : m.run w with
  | ok a v =>
    rw [Write.run_bind_ok first] at run
    exact hR _ _ _ (hs w a _ first) (hf a _ e w' run)
  | error e' v =>
    rw [Write.run_bind_error first] at run
    cases run
    exact hm w _ _ first

/-- After what keeps the scopes. -/
theorem FailsAbove.andThen {m n : Write Unit} (hm : FailsAbove m) (kept : KeepsScopes m) (hn : FailsAbove n) :
    FailsAbove (do m; n) :=
  hm.bind kept (fun _ => hn) fun _ _ _ => Above.of_settled

/-- After what changes no scope. -/
theorem FailsAbove.after (hm : FailsAbove m) (same : Scoped m Eq) (hf : ∀ a, FailsAbove (f a)) : FailsAbove (m >>= f) :=
  hm.bind same hf fun _ _ _ hst above => hst ▸ above

/-! ## Operations -/

theorem sure_openItems : Sure Write.openItems := by
  intro w e w' run
  rw [Write.openItems, Write.run_get_bind] at run
  split at run <;> cases run

theorem sure_flushText (sibling : Bool) : Sure (Write.flushText sibling) := by
  intro w e w' run
  rw [Write.flushText, Write.run_get_bind] at run
  generalize w.buffer.take sibling = taken at run
  obtain ⟨piece?, buffer⟩ := taken
  cases piece? with
  | none => cases run
  | some piece =>
    have rest : (do Write.openItems; Write.sendPiece piece).run { w with buffer } = .error e w' := run
    cases opened : Write.openItems.run { w with buffer } with
    | ok u v =>
      rw [Write.run_bind_ok opened, Draft.sendPiece_run] at rest
      cases rest
    | error e' v => exact sure_openItems _ _ _ opened

theorem failsAbove_gather (operation : Operation) (s : String) : FailsAbove (Write.gather operation s) := by
  refine failsAbove_get fun w => ?_
  split
  · exact Sure.failsAbove fun _ _ _ run => by cases run
  · exact Sure.failsAbove fun _ _ _ run => by cases run
  · exact failsAbove_throw _

theorem failsAbove_resolve (ref : MemberRef) : FailsAbove (Write.resolve ref) := by
  cases ref with
  | resolved member => exact Sure.failsAbove fun _ _ _ run => by cases run
  | attached owner name => exact failsAbove_lift _
  | name name =>
    refine failsAbove_get fun w => ?_
    split
    · exact failsAbove_lift _
    · exact failsAbove_throw _

theorem failsAbove_startObjectOf (type : ElementType) : FailsAbove (Write.startObjectOf type) := by
  have started : FailsAbove (do
      Write.openItems
      Write.flushText true
      Write.send (.startObject type)
      modify fun w => { w with rootStarted := true, scopes := .object type :: w.scopes }) := by
    refine sure_openItems.failsAbove.andThen scoped_openItems ?_
    refine (sure_flushText true).failsAbove.andThen (scoped_flushText true) ?_
    exact Sure.failsAbove fun _ _ _ run => by cases run
  refine failsAbove_get fun w => ?_
  split
  · exact failsAbove_throw _
  · split
    · exact failsAbove_throw _
    · exact started
  · exact started

theorem failsAbove_endObject : FailsAbove Write.endObject := by
  refine failsAbove_get fun w => ?_
  split
  · exact Sure.failsAbove fun _ _ _ run => by cases run
  · exact failsAbove_throw _
  · exact failsAbove_throw _

theorem failsAbove_startMember (ref : MemberRef) : FailsAbove (Write.startMember ref) := by
  have started : FailsAbove (do
      let member ← Write.resolve ref
      Write.send (.startMember member)
      Write.pushScope .member) :=
    (failsAbove_resolve ref).after (scoped_resolve ref) fun _ => Sure.failsAbove fun _ _ _ run => by cases run
  refine failsAbove_get fun w => ?_
  cases w.scopes with
  | nil => exact failsAbove_throw _
  | cons s rest =>
    cases s with
    | object type =>
      by_cases pending : w.buffer.isPending = true
      · simp only [if_pos pending]; exact failsAbove_throw _
      · simp only [if_neg pending]; exact started
    | member => exact failsAbove_throw _
    | items _ _ _ => exact failsAbove_throw _

theorem failsAbove_endMember : FailsAbove Write.endMember := by
  refine failsAbove_get fun w => ?_
  split
  · refine (sure_flushText false).failsAbove.andThen (scoped_flushText false) ?_
    exact Sure.failsAbove fun _ _ _ run => by cases run
  · exact failsAbove_throw _

theorem failsAbove_startItems (ref : MemberRef) (preserve : Bool) : FailsAbove (Write.startItems ref preserve) := by
  have started : FailsAbove (do
      let member ← Write.resolve ref
      modify fun w =>
        { w with
          buffer := .empty (.ofPreserve preserve)
          scopes := .items member false w.buffer.mode :: w.scopes }) :=
    (failsAbove_resolve ref).after (scoped_resolve ref) fun _ => Sure.failsAbove fun _ _ _ run => by cases run
  refine failsAbove_get fun w => ?_
  cases w.scopes with
  | nil => exact failsAbove_throw _
  | cons s rest =>
    cases s with
    | object type =>
      by_cases pending : w.buffer.isPending = true
      · simp only [if_pos pending]; exact failsAbove_throw _
      · simp only [if_neg pending]; exact started
    | member => exact failsAbove_throw _
    | items _ opened _ => cases opened <;> exact failsAbove_throw _

theorem failsAbove_startContent (preserve : Bool) : FailsAbove (Write.startContent preserve) := by
  have found : FailsAbove Write.contentProperty := by
    refine failsAbove_get fun w => ?_
    split
    · exact failsAbove_lift _
    · exact failsAbove_throw _
  exact found.after scoped_contentProperty fun m => failsAbove_startItems _ preserve

theorem failsAbove_endItems : FailsAbove Write.endItems := by
  refine failsAbove_get fun w => ?_
  split
  · refine (sure_flushText false).failsAbove.andThen (scoped_flushText false) (failsAbove_get fun v => ?_)
    split
    · refine Sure.failsAbove fun _ _ _ run => ?_
      split at run <;> cases run
    · exact failsAbove_throw _
  · exact failsAbove_throw _

/-! ## What is composed -/

/-- What fails in whole objects. -/
theorem FailsAbove.object (type : ElementType) {body : Write Unit} (hb : FailsAbove body) (kept : KeepsScopes body) :
    FailsAbove (object type body) := by
  refine (failsAbove_startObjectOf type).bind (scoped_startObjectOf type)
    (fun _ => hb.andThen kept failsAbove_endObject) fun s t u => ?_
  rintro ⟨v, settled, rfl⟩ above
  exact above.of_cons settled

/-- What fails in whole members. -/
theorem FailsAbove.member (ref : MemberRef) {body : Write Unit} (hb : FailsAbove body) (kept : KeepsScopes body) :
    FailsAbove (do Write.startMember ref; body; Write.endMember) := by
  refine (failsAbove_startMember ref).bind (scoped_startMember ref)
    (fun _ => hb.andThen kept failsAbove_endMember) fun s t u => ?_
  rintro rfl above
  exact above.of_cons (.refl s)

/-- What fails in whole collections, however they start. -/
theorem FailsAbove.collection {start body : Write Unit} (hs : FailsAbove start)
    (starts : Scoped start fun s t => ∃ member outerMode, t = .items member false outerMode :: s)
    (hb : FailsAbove body) (kept : KeepsScopes body) : FailsAbove (do start; body; Write.endItems) := by
  refine hs.bind starts (fun _ => hb.andThen kept failsAbove_endItems) fun s t u => ?_
  rintro ⟨member, outerMode, rfl⟩ above
  exact above.of_cons (.refl s)

theorem failsAbove_memberValue (member : Member) (value : Scalar) : FailsAbove (Write.memberValue member value) := by
  have sends (s : Signal) : FailsAbove (Write.send s) := Sure.failsAbove fun _ _ _ run => by cases run
  have spelled (r : Except RenderError String) : FailsAbove (do Write.send (.value (.text (← Write.lift r)))) :=
    (failsAbove_lift r).after (scoped_lift r) fun _ => sends _
  have reference (s : String) : FailsAbove (do
      Write.startObjectOf .staticExtension
      Write.startMember (.resolved .positionalParameters)
      Write.send (.value (.text s))
      Write.endMember
      Write.endObject) := by
    have whole : FailsAbove (Render.object .staticExtension (do
        Write.startMember (.resolved .positionalParameters)
        Write.send (.value (.text s))
        Write.endMember)) :=
      .object _ (.member _ (sends _) (keepsScopes_send _)) (.member _ (keepsScopes_send _))
    simpa only [Render.object, bind_assoc] using whole
  refine failsAbove_get fun w => failsAbove_get fun u => ?_
  cases w.mode with
  | native => exact sends _
  | text =>
    cases value with
    | resourceKey key =>
      by_cases known : u.theme.keyClass.contains key = true
      · simp only [if_pos known]; exact reference _
      · simp only [if_neg known]; exact spelled _
    | _ => exact spelled _

theorem failsAbove_resource (ref : MemberRef) (style : Style.Ref) : FailsAbove (Write.resource ref style) := by
  refine failsAbove_get fun w => ?_
  have value := failsAbove_memberValue .positionalParameters (.resourceKey (w.theme.keyOf style))
  have kept := keepsScopes_memberValue .positionalParameters (.resourceKey (w.theme.keyOf style))
  have whole : FailsAbove (do
      Write.startMember ref
      Render.object .staticResourceExtension (do
        Write.startMember (.resolved .positionalParameters)
        Write.memberValue .positionalParameters (.resourceKey (w.theme.keyOf style))
        Write.endMember)
      Write.endMember) :=
    .member ref (.object _ (.member _ value kept) (.member _ kept)) (.object _ (.member _ kept))
  simpa only [Render.object, bind_assoc] using whole

/-- **What is composed fails above what was open.** -/
theorem Composed.failsAbove {top : Top} {m : Write Unit} (hc : Composed top m) : FailsAbove m := by
  induction hc with
  | nothing => exact Sure.failsAbove fun _ _ _ run => by cases run
  | fail _ => exact failsAbove_throw _
  | andThen first _ hm hn => exact hm.andThen first.keepsScopes hn
  | gather operation s => exact failsAbove_gather operation s
  | object type body hb => exact hb.object type body.keepsScopes
  | member ref hv =>
    refine (failsAbove_resolve ref).after (scoped_resolve ref) fun member => ?_
    exact .member _ (failsAbove_memberValue member _) (keepsScopes_memberValue member _)
  | resource ref style => exact failsAbove_resource ref style
  | collection ref preserve body hb =>
    exact (failsAbove_startItems ref preserve).collection (scoped_startItems ref preserve) hb body.keepsScopes
  | content preserve body hb =>
    exact (failsAbove_startContent preserve).collection (scoped_startContent preserve) hb body.keepsScopes

end FlowDoc.Render
