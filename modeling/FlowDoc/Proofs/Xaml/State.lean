import FlowDoc.Proofs.Xaml.Collection
import FlowDoc.Proofs.Xaml.Sink

/-!
# The state of a writer

What holds of a writer between any two steps of a script, whether they succeeded or not (`Writer.IsRegular`). Its scopes
are objects and, by turns, members or collections; only the innermost scope may be a collection that is not opened; and
where a member or a collection may start, the buffer is empty.

A writer does not keep the mode that was asked for a collection, only the one to go back to after it. So the modes asked
for are followed beside the script, as a stack that collections push and pop (`Writer.asked`), and the buffer has the
mode on top (**`run_isRegular`**).
-/

namespace FlowDoc.Xaml

open Text (SpaceMode Buffer)

namespace Scope

/-- Whether a scope is that of an object. -/
def isObject : Scope → Bool
  | object _ => true
  | member | items _ _ _ => false

/-- Whether a scope is that of a collection that is not opened on the stream. -/
def isPending : Scope → Bool
  | items _ opened _ => !opened
  | object _ | member => false

/-- The mode to go back to after a collection. -/
def outerMode? : Scope → Option SpaceMode
  | items _ _ outerMode => some outerMode
  | object _ | member => none

end Scope

/-- Whether an operation was refused because text was pending. -/
def isDuringText : RenderError → Bool
  | .protocol _ .memberDuringText | .protocol _ .itemsDuringText => true
  | _ => false

theorem isDuringText_of_isRefusal {e : RenderError} (h : isRefusal e = true) : isDuringText e = false := by
  unfold isDuringText
  split <;> first | rfl | cases h

/-- The modes asked for the collections that are open, innermost first, after a step that succeeds. -/
def Step.asked : Step → List SpaceMode → List SpaceMode
  | startItems _ preserve, modes | startContent preserve, modes => .ofPreserve preserve :: modes
  | endItems, modes => modes.tail
  | _, modes => modes

namespace Writer

/-- The modes asked for the collections that are open, innermost first, after a script. -/
def asked (w : Writer) (modes : List SpaceMode) : List Step → List SpaceMode
  | [] => modes
  | s :: script => (w.step s).asked (if w.accepts s then s.asked modes else modes) script

/-- Whether nothing waits in the buffer, be it white space. -/
def IsQuiet (w : Writer) : Prop := w.buffer.text = "" ∧ w.buffer.spaceDue = false

/-- What holds of a writer between steps, where `asked` are the modes asked for the collections that are open. -/
structure IsRegular (w : Writer) (asked : List SpaceMode) : Prop where
  alternates : w.scopes.IsChain fun inner outer => inner.isObject ≠ outer.isObject
  rootIsObject : ∀ s ∈ w.scopes.getLast?, s.isObject = true
  pendingOnTop : ∀ s ∈ w.scopes.tail, s.isPending = false
  collections : (w.scopes.filterMap Scope.outerMode?).length = asked.length
  mode : w.buffer.mode = asked.headD .collapse
  /-- The modes to go back to are those asked for outside, with that of no collection at last. -/
  outerModes : w.scopes.filterMap Scope.outerMode? = (asked ++ [SpaceMode.collapse]).tail
  quiet : (∀ s ∈ w.scopes.head?, s.isObject = true) → w.IsQuiet

/-- No step of a writer comes up against text that is pending, or drops any. -/
structure KeepsText (w : Writer) : Prop where
  error : ∀ {s : Step} {e : RenderError} {w' : Writer}, s.write.run w = .error e w' → isDuringText e = false
  reset : ∀ {s : Step} {preserve : Bool} {w' : Writer}, s.Opens preserve → s.write.run w = .ok () w' → w.IsQuiet

end Writer

/-! ## Scopes -/

namespace Nested

variable {spine : List OpenPhrase}

theorem alternates (h : Nested spine) :
    (spine.map OpenPhrase.scope).IsChain fun inner outer => inner.isObject ≠ outer.isObject := by
  induction h with
  | nil => exact .nil
  | root => exact .singleton _
  | inMember _ _ _ ih => exact .cons_cons (by simp [OpenPhrase.scope, Scope.isObject]) ih
  | inCollection _ _ _ ih => exact .cons_cons (by simp [OpenPhrase.scope, Scope.isObject]) ih
  | member _ _ _ ih => exact .cons_cons (by simp [OpenPhrase.scope, Scope.isObject]) ih
  | collection _ _ _ _ _ ih => exact .cons_cons (by simp [OpenPhrase.scope, Scope.isObject]) ih

theorem rootIsObject (h : Nested spine) : ∀ s ∈ (spine.map OpenPhrase.scope).getLast?, s.isObject = true := by
  induction h with
  | nil => simp
  | root => simp [OpenPhrase.scope, Scope.isObject]
  | inMember _ _ _ ih => simpa only [List.map_cons, List.getLast?_cons_cons] using ih
  | inCollection _ _ _ ih => simpa only [List.map_cons, List.getLast?_cons_cons] using ih
  | member _ _ _ ih => simpa only [List.map_cons, List.getLast?_cons_cons] using ih
  | collection _ _ _ _ _ ih => simpa only [List.map_cons, List.getLast?_cons_cons] using ih

theorem pendingOnTop (h : Nested spine) : ∀ s ∈ (spine.map OpenPhrase.scope).tail, s.isPending = false := by
  induction h with
  | nil => simp
  | root => simp
  | inMember _ _ _ ih => simpa [OpenPhrase.scope, Scope.isPending] using ih
  | inCollection _ _ _ ih => simpa [OpenPhrase.scope, Scope.isPending] using ih
  | member _ _ _ ih => simpa [OpenPhrase.scope, Scope.isPending] using ih
  | collection _ _ _ _ _ ih => simpa [OpenPhrase.scope, Scope.isPending] using ih

end Nested

/-! ## Modes -/

/-- The modes to go back to when what is open is closed. -/
def outerModes (spine : List OpenPhrase) : List SpaceMode := (spine.map OpenPhrase.scope).filterMap Scope.outerMode?

section OuterModes

variable (sp : List OpenPhrase)

@[simp] theorem outerModes_object (type : ElementType) (members : List MemberPhrase) :
    outerModes (.object type members :: sp) = outerModes sp := rfl

@[simp] theorem outerModes_member (m : Member) (items : List ItemPhrase) :
    outerModes (.member m items :: sp) = outerModes sp := rfl

@[simp] theorem outerModes_collection (m : Member) (opened : Bool) (outerMode : SpaceMode) (items : List ItemPhrase) :
    outerModes (.collection m opened outerMode items :: sp) = outerMode :: outerModes sp := rfl

@[simp] theorem outerModes_add (p : OpenPhrase) (more : List ItemPhrase) :
    outerModes (p.add more :: sp) = outerModes (p :: sp) := by
  cases p <;> rfl

@[simp] theorem outerModes_opened (p : OpenPhrase) : outerModes (p.opened :: sp) = outerModes (p :: sp) := by
  cases p <;> rfl

end OuterModes

/-- The modes asked for after an act. -/
def Act.asked : Act → List SpaceMode → List SpaceMode
  | startItems _ mode, modes => mode :: modes
  | endItems, modes => modes.tail
  | _, modes => modes

/-- The acts of a step ask for the same modes as the step. -/
theorem Step.Means.asked {s : Step} {acts : List Act} (means : s.Means acts) (modes : List SpaceMode) :
    acts.foldl (fun modes a => a.asked modes) modes = s.asked modes := by
  cases means <;> rfl

namespace Draft

variable {g g' : Draft} {asked : List SpaceMode}

/-- The mode of the buffer and those to go back to, of which the last is that of no collection. -/
def HasModes (g : Draft) (asked : List SpaceMode) : Prop := g.buffer.mode :: outerModes g.spine = asked ++ [.collapse]

/-- **One act** pushes the mode that it asks for, or pops the one asked for the collection that it ends. -/
theorem Move.hasModes {a : Act} (m : g.Move a g') (h : g.HasModes asked) : g'.HasModes (a.asked asked) := by
  rw [HasModes] at h ⊢
  cases m with
  | declare decl _ _ => exact h
  | startRoot type _ hs => rw [hs] at h; simpa [Act.asked] using h
  | startChild type hs _ => rw [hs] at h; simpa [Act.asked] using h
  | endRoot hs => rw [hs] at h; simpa [Act.asked] using h
  | endChild hs => rw [hs] at h; simpa [Act.asked] using h
  | startMember m hs => rw [hs] at h; simpa [Act.asked] using h
  | endMember hs => rw [hs] at h; simpa [Act.asked] using h
  | put m i hs _ hb =>
    rw [hs] at h
    rcases hb with rfl | rfl
    · simpa [Act.asked] using h
    · simpa [Act.asked] using h
  | startItems m mode hs => rw [hs] at h; simpa [Act.asked, Buffer.empty] using h
  | endItems hs =>
    rw [hs] at h
    cases asked with
    | nil => simp at h
    | cons mode asked =>
      obtain ⟨-, outer⟩ := List.cons_eq_cons.mp h
      simpa [Act.asked, Buffer.resume] using outer
  | text s hs _ => rw [hs] at h; simpa [Act.asked] using h

theorem Path.hasModes {acts : List Act} (path : Path g acts g') (h : g.HasModes asked) :
    g'.HasModes (acts.foldl (fun modes a => a.asked modes) asked) := by
  induction path generalizing asked with
  | nil => exact h
  | cons m _ ih => exact ih (m.hasModes h)

/-- **One step.** -/
theorem Sound.step_hasModes (h : g.Sound) (modes : g.HasModes asked) (s : Step) :
    ∃ g' : Draft, g'.Sound ∧ g.writer.step s = g'.writer ∧
      g'.HasModes (if g.writer.accepts s then s.asked asked else asked) := by
  cases h.outcome s with
  | @done acts g' means path ok =>
    have accepted : g.writer.accepts s = true := by rw [Writer.accepts, ok]
    refine ⟨g', path.sound h, by rw [Writer.step, ok], ?_⟩
    rw [if_pos accepted, ← means.asked]
    exact path.hasModes modes
  | refused refused =>
    obtain ⟨e, -, he⟩ := refused
    have rejected : ¬ g.writer.accepts s = true := by simp [Writer.accepts, he]
    exact ⟨g, h, by rw [Writer.step, he], by rwa [if_neg rejected]⟩
  | @unspelled _ _ _ _ g' _ _ _ m he =>
    have rejected : ¬ g.writer.accepts s = true := by simp [Writer.accepts, he]
    refine ⟨g', m.sound h, by rw [Writer.step, he], ?_⟩
    rw [if_neg rejected]
    exact m.hasModes modes

/-- **Whole scripts.** -/
theorem Sound.script_hasModes (h : g.Sound) (modes : g.HasModes asked) (script : List Step) :
    ∃ g' : Draft, g'.Sound ∧ g.writer.run script = g'.writer ∧ g'.HasModes (g.writer.asked asked script) := by
  induction script generalizing g asked with
  | nil => exact ⟨g, h, rfl, modes⟩
  | cons s script ih =>
    obtain ⟨g₁, sound, hw, modes⟩ := h.step_hasModes modes s
    obtain ⟨g₂, sound, hw₂, modes⟩ := ih sound modes
    refine ⟨g₂, sound, by rw [Writer.run_cons, hw, hw₂], ?_⟩
    rw [Writer.asked, hw]
    exact modes

/-! ## Between steps -/

/-- In front of a member nothing waits. -/
theorem Sound.isQuiet (h : g.Sound) (top : ∀ s ∈ g.writer.scopes.head?, s.isObject = true) : g.writer.IsQuiet := by
  refine h.quiet fun p hp => ?_
  have object := top p.scope (by rw [writer, List.head?_map]; exact Option.mem_map_of_mem _ hp)
  cases p with
  | object _ _ => rfl
  | member _ _ => cases object
  | collection _ _ _ _ => cases object

theorem Sound.isRegular (h : g.Sound) (modes : g.HasModes asked) : g.writer.IsRegular asked where
  alternates := h.nested.alternates
  rootIsObject := h.nested.rootIsObject
  pendingOnTop := h.nested.pendingOnTop
  collections := by
    have length := congrArg List.length modes
    rw [List.length_cons, List.length_append, List.length_singleton] at length
    exact Nat.succ_inj.mp length
  mode := by
    cases asked with
    | nil => exact (List.cons_eq_cons.mp modes).1
    | cons mode asked => exact (List.cons_eq_cons.mp modes).1
  outerModes := congrArg List.tail modes
  quiet := h.isQuiet

theorem Sound.keepsText (h : g.Sound) : g.writer.KeepsText where
  error {s e w'} failed := by
    cases h.outcome s with
    | done _ _ ok => rw [ok] at failed; cases failed
    | refused refused =>
      obtain ⟨_, refusal, he⟩ := refused
      rw [he] at failed
      cases failed
      exact isDuringText_of_isRefusal refusal
    | unspelled _ _ spelled _ he =>
      rw [he] at failed
      cases failed
      rw [ValueForm.spell_eq_error spelled]
      rfl
  reset {s preserve w'} opens began := by
    obtain ⟨type, members, sp, m, hs, -⟩ := h.opens opens began
    exact h.isQuiet (by simp [writer, hs, OpenPhrase.scope, Scope.isObject])

end Draft

/-- **The state of a writer** that was asked for any steps, whatever it writes: it is regular, with the modes asked for
the collections that are open; its sink has taken all that it sent; and no step meets or drops text that is pending. -/
theorem run_isRegular (target : Target) (theme : Style.Theme) (script : List Step) :
    ((target.writer theme).run script).IsRegular ((target.writer theme).asked [] script) ∧
    ((target.writer theme).run script).KeepsText ∧
    ∃ k, target.sink.receiveAll ((target.writer theme).run script).sent.toList = .ok k := by
  have start : ({ mode := target.mode, theme } : Draft).HasModes [] := rfl
  obtain ⟨g, sound, hw, modes⟩ := (Draft.sound_start target.mode theme).script_hasModes start script
  have run : (target.writer theme).run script = g.writer := hw
  rw [run]
  refine ⟨sound.isRegular modes, sound.keepsText, ?_⟩
  simpa [Draft.writer] using sound.received target

end FlowDoc.Xaml
