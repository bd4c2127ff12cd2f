import FlowDoc.Proofs.Xaml.MemberText

/-!
# What a writer forgets

A buffer that preserves does not look at whether its text is at the start, and forgets it before it collapses again.
Writers that differ in this alone (`Writer.Like`) go the same way: each operation has the same outcome on both
(`Same`), so every script sends the same (`Like.run`).
-/

namespace FlowDoc.Text.Buffer

/-- Whether two buffers hold the same, and are both at the start of a text or both past it if that counts. -/
structure Like (b c : Buffer) : Prop where
  text : c.text = b.text
  mode : c.mode = b.mode
  spaceDue : c.spaceDue = b.spaceDue
  atStart : b.mode = .collapse → c.atStart = b.atStart

namespace Like

variable {b c : Buffer}

theorem refl (b : Buffer) : b.Like b := ⟨rfl, rfl, rfl, fun _ => rfl⟩

theorem trans {d : Buffer} (h : b.Like c) (h' : c.Like d) : b.Like d :=
  ⟨h'.text.trans h.text, h'.mode.trans h.mode, h'.spaceDue.trans h.spaceDue,
    fun hm => (h'.atStart (h.mode.trans hm)).trans (h.atStart hm)⟩

/-- Buffers that collapse are alike only if they are the same. -/
theorem eq_of_collapse (h : b.Like c) (hm : b.mode = .collapse) : c = b := by
  obtain ⟨text, mode, due, start⟩ := b
  obtain ⟨text', mode', due', start'⟩ := c
  obtain ⟨rfl, rfl, rfl, same⟩ := h
  obtain rfl := same hm
  rfl

theorem of_preserve (hm : b.mode = .preserve) (text : c.text = b.text) (mode : c.mode = b.mode)
    (due : c.spaceDue = b.spaceDue) : b.Like c :=
  ⟨text, mode, due, fun collapses => by rw [hm] at collapses; cases collapses⟩

theorem isPending (h : b.Like c) : c.isPending = b.isPending := by rw [Buffer.isPending, Buffer.isPending, h.text]

theorem pushAll (h : b.Like c) (s : String) : (b.pushAll s).Like (c.pushAll s) := by
  cases hm : b.mode with
  | collapse => rw [h.eq_of_collapse hm]; exact refl _
  | preserve =>
    rw [Buffer.pushAll, Buffer.pushAll, pushes_preserve hm, pushes_preserve (h.mode.trans hm)]
    exact of_preserve hm (by rw [h.text]) h.mode h.spaceDue

theorem take_fst (h : b.Like c) (sibling : Bool) : (c.take sibling).1 = (b.take sibling).1 := by
  cases hm : b.mode with
  | collapse => rw [h.eq_of_collapse hm]
  | preserve => simp [Buffer.take, hm, h.mode.trans hm, h.text]

theorem take_snd (h : b.Like c) (sibling : Bool) : (b.take sibling).2.Like (c.take sibling).2 := by
  cases hm : b.mode with
  | collapse => rw [h.eq_of_collapse hm]; exact refl _
  | preserve =>
    refine of_preserve (by rw [take_mode, hm]) ?_ ?_ ?_
    · rw [take_text, take_text]
    · rw [take_mode, take_mode, h.mode]
    · simp [Buffer.take, hm, h.mode.trans hm, h.spaceDue]

theorem resume (h : b.Like c) (mode : SpaceMode) : (b.resume mode).Like (c.resume mode) :=
  ⟨h.text, rfl, h.spaceDue, fun _ => rfl⟩

end Like

end FlowDoc.Text.Buffer

namespace FlowDoc.Xaml

open Text (Buffer SpaceMode)

/-- Whether two writers differ at most in what their buffers forget. -/
structure Writer.Like (w v : Writer) : Prop where
  mode : v.mode = w.mode
  theme : v.theme = w.theme
  scopes : v.scopes = w.scopes
  buffer : w.buffer.Like v.buffer
  rootStarted : v.rootStarted = w.rootStarted
  sent : v.sent = w.sent

theorem Writer.Like.refl (w : Writer) : w.Like w := ⟨rfl, rfl, rfl, .refl _, rfl, rfl⟩

theorem Writer.Like.trans {w v u : Writer} (h : w.Like v) (h' : v.Like u) : w.Like u :=
  ⟨h'.mode.trans h.mode, h'.theme.trans h.theme, h'.scopes.trans h.scopes, h.buffer.trans h'.buffer,
    h'.rootStarted.trans h.rootStarted, h'.sent.trans h.sent⟩

/-- Outcomes that are the same, up to what buffers forget. -/
inductive Same {α : Type} : EStateM.Result RenderError Writer α → EStateM.Result RenderError Writer α → Prop
  | ok (a : α) {w v : Writer} : w.Like v → Same (.ok a w) (.ok a v)
  | error (e : RenderError) {w v : Writer} : w.Like v → Same (.error e w) (.error e v)

/-- An operation that has the same outcome on writers that are alike. -/
def Respects {α : Type} (m : Write α) : Prop := ∀ w v, w.Like v → Same (m.run w) (m.run v)

section

variable {α β : Type} {m : Write α} {f : α → Write β}

theorem Respects.bind (hm : Respects m) (hf : ∀ a, Respects (f a)) : Respects (m >>= f) := by
  intro w v h
  have first := hm w v h
  generalize hw : m.run w = rw at first
  generalize hv : m.run v = rv at first
  cases first with
  | ok a h' =>
    rw [Write.run_bind_ok hw, Write.run_bind_ok hv]
    exact hf a _ _ h'
  | error e h' =>
    rw [Write.run_bind_error hw, Write.run_bind_error hv]
    exact .error e h'

theorem respects_pure (a : α) : Respects (pure a : Write α) := fun _ _ h => .ok a h

theorem respects_throw (e : RenderError) : Respects (throw e : Write α) := fun _ _ h => .error e h

theorem respects_lift (r : Except RenderError α) : Respects (Write.lift r) := by
  cases r with
  | ok a => exact respects_pure a
  | error e => exact respects_throw e

/-- What is looked up in a writer and not forgotten. -/
theorem respects_get {f : Writer → Write β} (same : ∀ w v, w.Like v → f v = f w) (hf : ∀ w, Respects (f w)) :
    Respects (get >>= f) := by
  intro w v h
  rw [Write.run_get_bind, Write.run_get_bind, same w v h]
  exact hf w w v h

theorem respects_modify {g : Writer → Writer} (hg : ∀ w v, w.Like v → (g w).Like (g v)) :
    Respects (modify g : Write Unit) := fun w v h => .ok () (hg w v h)

end

/-! ## Operations -/

theorem respects_send (s : Signal) : Respects (Write.send s) :=
  respects_modify fun _ _ h => ⟨h.mode, h.theme, h.scopes, h.buffer, h.rootStarted, by rw [h.sent]⟩

theorem respects_setScopes (scopes : List Scope → List Scope) :
    Respects (modify fun w => { w with scopes := scopes w.scopes } : Write Unit) :=
  respects_modify fun _ _ h => ⟨h.mode, h.theme, by rw [h.scopes], h.buffer, h.rootStarted, h.sent⟩

theorem respects_openItems : Respects Write.openItems := by
  refine respects_get (fun w v h => by simp only [h.scopes]) fun w => ?_
  split
  · exact (respects_send _).bind fun _ => respects_setScopes fun _ => _
  · exact respects_pure ()

theorem respects_sendPiece (piece : Text.Piece) : Respects (Write.sendPiece piece) := by
  cases piece with
  | value s => exact respects_send _
  | verbatim s =>
    refine (respects_lift _).bind fun text => ?_
    refine (respects_send _).bind fun _ => (respects_send _).bind fun _ => (respects_send _).bind fun _ => ?_
    exact (respects_send _).bind fun _ => respects_send _

/-- What is done with a piece that is taken from the buffer, if there is one. -/
def sendTaken : Option Text.Piece → Write Unit
  | none => pure ()
  | some piece => do
    Write.openItems
    Write.sendPiece piece

theorem respects_flushText (sibling : Bool) : Respects (Write.flushText sibling) := by
  have flush (w : Writer) : (Write.flushText sibling).run w =
      (sendTaken (w.buffer.take sibling).1).run { w with buffer := (w.buffer.take sibling).2 } := rfl
  have sends (piece? : Option Text.Piece) : Respects (sendTaken piece?) := by
    cases piece? with
    | none => exact respects_pure ()
    | some piece => exact respects_openItems.bind fun _ => respects_sendPiece piece
  intro w v h
  rw [flush, flush, h.buffer.take_fst]
  exact sends _ _ _ ⟨h.mode, h.theme, h.scopes, h.buffer.take_snd sibling, h.rootStarted, h.sent⟩

theorem respects_declareNamespace (pre uri : String) : Respects (Write.declareNamespace pre uri) := by
  refine respects_get (fun w v h => by simp only [h.rootStarted]) fun w => ?_
  split
  · exact respects_throw _
  · exact respects_send _

theorem respects_gather (operation : Operation) (s : String) : Respects (Write.gather operation s) := by
  have push : Respects (modify fun w => { w with buffer := w.buffer.pushAll s } : Write Unit) :=
    respects_modify fun _ _ h => ⟨h.mode, h.theme, h.scopes, h.buffer.pushAll s, h.rootStarted, h.sent⟩
  refine respects_get (fun w v h => by simp only [h.scopes]) fun w => ?_
  split
  · exact push
  · exact push
  · exact respects_throw _

theorem respects_startObjectOf (type : ElementType) : Respects (Write.startObjectOf type) := by
  have started : Respects (do
      Write.openItems
      Write.flushText true
      Write.send (.startObject type)
      modify fun w => { w with rootStarted := true, scopes := .object type :: w.scopes }) := by
    refine respects_openItems.bind fun _ => (respects_flushText true).bind fun _ => (respects_send _).bind fun _ => ?_
    exact respects_modify fun _ _ h => ⟨h.mode, h.theme, by rw [h.scopes], h.buffer, rfl, h.sent⟩
  refine respects_get (fun w v h => by simp only [h.scopes, h.rootStarted]) fun w => ?_
  split
  · exact respects_throw _
  · split
    · exact respects_throw _
    · exact started
  · exact started

theorem respects_endObject : Respects Write.endObject := by
  refine respects_get (fun w v h => by simp only [h.scopes]) fun w => ?_
  split
  · exact (respects_setScopes List.tail).bind fun _ => respects_send _
  · exact respects_throw _
  · exact respects_throw _

theorem respects_resolve (ref : MemberRef) : Respects (Write.resolve ref) := by
  cases ref with
  | resolved member => exact respects_pure member
  | attached owner name => exact respects_lift _
  | name name =>
    refine respects_get (fun w v h => by simp only [Writer.currentType?, h.scopes]) fun w => ?_
    split
    · exact respects_lift _
    · exact respects_throw _

theorem respects_startMember (ref : MemberRef) : Respects (Write.startMember ref) := by
  have started : Respects (do
      let member ← Write.resolve ref
      Write.send (.startMember member)
      Write.pushScope .member) :=
    (respects_resolve ref).bind fun member => (respects_send _).bind fun _ => respects_setScopes (Scope.member :: ·)
  refine respects_get (fun w v h => by simp only [h.scopes, h.buffer.isPending]) fun w => ?_
  cases w.scopes with
  | nil => exact respects_throw _
  | cons s rest =>
    cases s with
    | object type =>
      by_cases pending : w.buffer.isPending = true
      · simp only [if_pos pending]; exact respects_throw _
      · simp only [if_neg pending]; exact started
    | member => exact respects_throw _
    | items _ _ _ => exact respects_throw _

theorem respects_endMember : Respects Write.endMember := by
  refine respects_get (fun w v h => by simp only [h.scopes]) fun w => ?_
  split
  · exact (respects_flushText false).bind fun _ => (respects_setScopes List.tail).bind fun _ => respects_send _
  · exact respects_throw _

theorem respects_memberValue (member : Member) (value : Scalar) : Respects (Write.memberValue member value) := by
  have spelled (r : Except RenderError String) : Respects (do Write.send (.value (.text (← Write.lift r)))) :=
    (respects_lift r).bind fun _ => respects_send _
  refine respects_get (fun w v h => by simp only [h.mode]) fun w => ?_
  refine respects_get (fun w v h => by simp only [h.theme]) fun u => ?_
  cases w.mode with
  | native => exact respects_send _
  | text =>
    cases value with
    | resourceKey key =>
      by_cases known : u.theme.keyClass.contains key = true
      · simp only [if_pos known]
        refine (respects_startObjectOf _).bind fun _ => (respects_startMember _).bind fun _ => ?_
        exact (respects_send _).bind fun _ => respects_endMember.bind fun _ => respects_endObject
      · simp only [if_neg known]; exact spelled _
    | _ => exact spelled _

theorem respects_startItems (ref : MemberRef) (preserve : Bool) : Respects (Write.startItems ref preserve) := by
  have started : Respects (do
      let member ← Write.resolve ref
      modify fun w =>
        { w with
          buffer := .empty (.ofPreserve preserve)
          scopes := .items member false w.buffer.mode :: w.scopes }) := by
    refine (respects_resolve ref).bind fun member => respects_modify fun _ _ h => ?_
    exact ⟨h.mode, h.theme, by rw [h.scopes, h.buffer.mode], .refl _, h.rootStarted, h.sent⟩
  refine respects_get (fun w v h => by simp only [h.scopes, h.buffer.isPending]) fun w => ?_
  cases w.scopes with
  | nil => exact respects_throw _
  | cons s rest =>
    cases s with
    | object type =>
      by_cases pending : w.buffer.isPending = true
      · simp only [if_pos pending]; exact respects_throw _
      · simp only [if_neg pending]; exact started
    | member => exact respects_throw _
    | items _ opened _ => cases opened <;> exact respects_throw _

theorem respects_contentProperty : Respects Write.contentProperty := by
  refine respects_get (fun w v h => by simp only [Writer.currentType?, h.scopes]) fun w => ?_
  split
  · exact respects_lift _
  · exact respects_throw _

theorem respects_endItems : Respects Write.endItems := by
  have resume (outerMode : SpaceMode) :
      Respects (modify fun w => { w with buffer := w.buffer.resume outerMode } : Write Unit) :=
    respects_modify fun _ _ h => ⟨h.mode, h.theme, h.scopes, h.buffer.resume outerMode, h.rootStarted, h.sent⟩
  refine respects_get (fun w v h => by simp only [h.scopes]) fun w => ?_
  split
  · refine (respects_flushText false).bind fun _ => respects_get (fun w v h => by simp only [h.scopes]) fun v => ?_
    split
    · refine (respects_setScopes fun _ => _).bind fun _ => ?_
      split
      · exact (respects_send _).bind fun _ => resume _
      · exact resume _
    · exact respects_throw _
  · exact respects_throw _

theorem respects_resource (ref : MemberRef) (style : Style.Ref) : Respects (Write.resource ref style) := by
  refine respects_get (fun w v h => by simp only [h.theme]) fun w => ?_
  refine (respects_startMember _).bind fun _ => (respects_startObjectOf _).bind fun _ => ?_
  refine (respects_startMember _).bind fun _ => (respects_memberValue _ _).bind fun _ => ?_
  exact respects_endMember.bind fun _ => respects_endObject.bind fun _ => respects_endMember

/-! ## Scripts -/

theorem respects_step (s : Step) : Respects s.write := by
  cases s with
  | declareNamespace pre uri => exact respects_declareNamespace pre uri
  | startObject name => exact (respects_lift _).bind fun type => respects_startObjectOf type
  | startObjectOf type => exact respects_startObjectOf type
  | endObject => exact respects_endObject
  | resolve ref => exact (respects_resolve ref).bind fun _ => respects_pure ()
  | startMember ref => exact respects_startMember ref
  | endMember => exact respects_endMember
  | member ref value =>
    cases value with
    | none => exact respects_pure ()
    | some v =>
      refine (respects_resolve ref).bind fun m => (respects_startMember _).bind fun _ => ?_
      exact (respects_memberValue m v).bind fun _ => respects_endMember
  | startItems ref preserve => exact respects_startItems ref preserve
  | contentProperty => exact respects_contentProperty.bind fun _ => respects_pure ()
  | startContent preserve => exact respects_contentProperty.bind fun m => respects_startItems _ preserve
  | endItems => exact respects_endItems
  | text s => exact respects_gather _ s
  | char c => exact respects_gather _ _
  | literal s => exact respects_gather _ s
  | lineBreak => exact (respects_startObjectOf _).bind fun _ => respects_endObject
  | resource ref style => exact respects_resource ref style

namespace Writer.Like

variable {w v : Writer}

theorem step (h : w.Like v) (s : Step) : (w.step s).Like (v.step s) := by
  have same := respects_step s w v h
  unfold Writer.step
  generalize s.write.run w = rw at same
  generalize s.write.run v = rv at same
  cases same with
  | ok a h' => exact h'
  | error e h' => exact h'

/-- **Scripts** leave writers alike that are alike. -/
theorem run (h : w.Like v) (script : List Step) : (w.run script).Like (v.run script) := by
  induction script generalizing w v with
  | nil => exact h
  | cons s script ih => exact ih (h.step s)

end Writer.Like

end FlowDoc.Xaml
