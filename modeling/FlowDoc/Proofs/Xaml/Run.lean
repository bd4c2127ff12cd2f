import FlowDoc.Proofs.Xaml.Outcome

/-!
# Runs of drafts

Every step of a script, whether it succeeds or fails, is a run of acts on a sound draft (`Sound.step_run`), and so is
every script (`Sound.script_run`). A run also says what its acts put into the collection at one depth, of which the
scopes must not fall below: for a script that is its `Writer.flow`.
-/

namespace FlowDoc.Xaml

open Text (Flow)

/-! ## What goes into a collection -/

/-- What an act puts into the innermost collection. -/
def Act.flow : Act → List (Flow Unit)
  | .text s => [.text s]
  | .startObject _ => [.child ()]
  | _ => []

/-- What a step puts into the innermost collection if it succeeds there. -/
def Step.content : Step → List (Flow Unit)
  | .text s | .literal s => [.text s]
  | .char c => [.text (String.ofList [c])]
  | .startObject _ | .startObjectOf _ | .lineBreak => [.child ()]
  | _ => []

/-- A step is no act, one act, or a line break. -/
theorem Step.Means.shape {s : Step} {acts : List Act} (means : s.Means acts) :
    (acts = [] ∧ s.content = []) ∨ (∃ a, acts = [a] ∧ a.flow = s.content) ∨
      (s = .lineBreak ∧ acts = [.startObject .lineBreak, .endObject]) := by
  cases means with
  | resolve | noMember | contentProperty => exact Or.inl ⟨rfl, rfl⟩
  | lineBreak => exact Or.inr (Or.inr ⟨rfl, rfl⟩)
  | _ => exact Or.inr (Or.inl ⟨_, rfl, rfl⟩)

namespace Writer

/-- Whether a step succeeds. -/
def accepts (w : Writer) (s : Step) : Bool :=
  match s.write.run w with
  | .ok _ _ => true
  | .error _ _ => false

/-- What a step puts into the scope at a depth, which it does if that scope is the innermost. -/
def flowOf (depth : Nat) (w : Writer) (s : Step) : List (Flow Unit) :=
  if w.scopes.length = depth ∧ w.accepts s = true then s.content else []

theorem flowOf_ok {w w' : Writer} {s : Step} (h : s.write.run w = .ok () w') (depth : Nat) :
    w.flowOf depth s = if w.scopes.length = depth then s.content else [] := by
  have accepted : w.accepts s = true := by rw [accepts, h]
  by_cases here : w.scopes.length = depth
  · rw [flowOf, if_pos ⟨here, accepted⟩, if_pos here]
  · rw [flowOf, if_neg fun both => here both.1, if_neg here]

theorem flowOf_error {w w' : Writer} {s : Step} {e : RenderError} (h : s.write.run w = .error e w') (depth : Nat) :
    w.flowOf depth s = [] := by
  have refused : w.accepts s = false := by rw [accepts, h]
  rw [flowOf, if_neg]
  intro both
  rw [refused] at both
  cases both.2

/-- What a script puts into the scope at a depth: the texts written while it is the innermost, and the children started
there. -/
def flow (depth : Nat) (w : Writer) : List Step → List (Flow Unit)
  | [] => []
  | s :: script => w.flowOf depth s ++ (w.step s).flow depth script

/-- Whether the scopes never fall below a depth in a script. -/
def StaysAt (depth : Nat) (w : Writer) : List Step → Prop
  | [] => depth ≤ w.scopes.length
  | s :: script => depth ≤ w.scopes.length ∧ (w.step s).StaysAt depth script

instance StaysAt.decidable (depth : Nat) : (w : Writer) → (script : List Step) → Decidable (w.StaysAt depth script)
  | w, [] => inferInstanceAs (Decidable (depth ≤ w.scopes.length))
  | w, s :: script => @instDecidableAnd _ _ (inferInstanceAs (Decidable (depth ≤ w.scopes.length)))
      (StaysAt.decidable depth (w.step s) script)

theorem StaysAt.start {depth : Nat} {w : Writer} {script : List Step} (h : w.StaysAt depth script) :
    depth ≤ w.scopes.length := by
  cases script with
  | nil => exact h
  | cons s script => exact h.1

end Writer

namespace Draft

@[simp] theorem scopes_length (g : Draft) : g.writer.scopes.length = g.spine.length := by simp [writer]

/-- Acts one after the other, at no time with fewer than `depth` phrases open, and what they put into the phrase at
that depth. -/
inductive Run (depth : Nat) : Draft → List (Flow Unit) → Draft → Prop
  | refl (g : Draft) : Run depth g [] g
  | act {g g' g'' : Draft} {flow : List (Flow Unit)} {a : Act} : Run depth g flow g' → g'.Move a g'' →
      depth ≤ g''.spine.length → Run depth g (flow ++ if g'.spine.length = depth then a.flow else []) g''

variable {g g' g'' : Draft} {depth : Nat} {flow flow' : List (Flow Unit)}

theorem Run.sound (r : Run depth g flow g') (h : g.Sound) : g'.Sound := by
  induction r with
  | refl => exact h
  | act _ m _ ih => exact m.sound ih

theorem Run.depth_le (r : Run depth g flow g') (h : depth ≤ g.spine.length) : depth ≤ g'.spine.length := by
  cases r with
  | refl => exact h
  | act _ _ hd => exact hd

theorem Run.trans (r : Run depth g flow g') (r' : Run depth g' flow' g'') : Run depth g (flow ++ flow') g'' := by
  induction r' with
  | refl => simpa using r
  | act _ m hd ih => rw [← List.append_assoc]; exact ih.act m hd

theorem Move.spine_startObject {type : ElementType} (m : g.Move (.startObject type) g') :
    g'.spine.length = g.spine.length + 1 := by
  cases m with
  | startRoot _ _ hs => simp [hs]
  | startChild _ hs _ => simp [hs]

theorem Run.one {a : Act} (m : g.Move a g') (hd : depth ≤ g'.spine.length) :
    Run depth g (if g.spine.length = depth then a.flow else []) g' := by
  simpa using (Run.refl g).act m hd

/-! ## Steps -/

/-- The acts of a step that succeeds, of which only the first puts something into a collection. -/
theorem Path.run {s : Step} {acts : List Act} (path : Path g acts g') (means : s.Means acts)
    (hd : depth ≤ g.spine.length) (hd' : depth ≤ g'.spine.length) :
    Run depth g (if g.spine.length = depth then s.content else []) g' := by
  rcases means.shape with ⟨rfl, hs⟩ | ⟨a, rfl, ha⟩ | ⟨rfl, rfl⟩
  · cases path.of_nil
    simpa [hs] using Run.refl g
  · obtain ⟨g₁, m, rest⟩ := path.of_cons
    cases rest.of_nil
    rw [← ha]
    exact Run.one m hd'
  · obtain ⟨g₁, m₁, rest⟩ := path.of_cons
    obtain ⟨g₂, m₂, rest⟩ := rest.of_cons
    cases rest.of_nil
    -- the object of the line break is one phrase more
    have deeper := m₁.spine_startObject ▸ Nat.le_add_right_of_le hd
    have run := (Run.one m₁ deeper).act m₂ hd'
    simp only [Act.flow, ite_self, List.append_nil] at run
    exact run

/-- **One step.** From a sound draft a step is a run of acts. -/
theorem Sound.step_run (h : g.Sound) (s : Step) (hd : depth ≤ g.spine.length)
    (hd' : depth ≤ (g.writer.step s).scopes.length) :
    ∃ g', Run depth g (g.writer.flowOf depth s) g' ∧ g.writer.step s = g'.writer := by
  cases h.outcome s with
  | @done acts g' means path ok =>
    have hw : g.writer.step s = g'.writer := by rw [Writer.step, ok]
    rw [hw, scopes_length] at hd'
    refine ⟨g', ?_, hw⟩
    rw [Writer.flowOf_ok ok, scopes_length]
    exact path.run means hd hd'
  | refused refused =>
    obtain ⟨e, -, he⟩ := refused
    refine ⟨g, ?_, by rw [Writer.step, he]⟩
    rw [Writer.flowOf_error he]
    exact Run.refl g
  | @unspelled _ _ _ _ g' hs _ _ m he =>
    have hw : g.writer.step s = g'.writer := by rw [Writer.step, he]
    rw [hw, scopes_length] at hd'
    refine ⟨g', ?_, hw⟩
    rw [Writer.flowOf_error he]
    simpa [Act.flow] using Run.one m hd'

/-- **Whole scripts.** From a sound draft a script is a run of acts, which put its flow into the scope at a depth. -/
theorem Sound.script_run (h : g.Sound) (script : List Step) (hd : g.writer.StaysAt depth script) :
    ∃ g', Run depth g (g.writer.flow depth script) g' ∧ g.writer.run script = g'.writer := by
  induction script generalizing g with
  | nil => exact ⟨g, .refl g, rfl⟩
  | cons s script ih =>
    have le : depth ≤ g.spine.length := by simpa using hd.1
    obtain ⟨g₁, r₁, hw⟩ := h.step_run s le hd.2.start
    have stays := hd.2
    rw [hw] at stays
    obtain ⟨g₂, r₂, hw₂⟩ := ih (r₁.sound h) stays
    refine ⟨g₂, ?_, by rw [Writer.run_cons, hw, hw₂]⟩
    rw [Writer.flow, hw]
    exact r₁.trans r₂

end Draft

/-- The scopes never fall below zero. -/
theorem Writer.staysAt_zero (w : Writer) (script : List Step) : w.StaysAt 0 script := by
  induction script generalizing w with
  | nil => exact Nat.zero_le _
  | cons s script ih => exact ⟨Nat.zero_le _, ih _⟩

/-- **Every writer has a sound draft**, whatever its script was. -/
theorem exists_draft (mode : ValueMode) (theme : Style.Theme) (script : List Step) :
    ∃ g : Draft, g.Sound ∧ ({ mode, theme } : Writer).run script = g.writer := by
  have start := Draft.sound_start mode theme
  obtain ⟨g, r, hw⟩ := start.script_run script (Writer.staysAt_zero _ script)
  exact ⟨g, r.sound start, hw⟩

end FlowDoc.Xaml
