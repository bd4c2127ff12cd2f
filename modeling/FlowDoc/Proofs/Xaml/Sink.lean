import FlowDoc.Proofs.Xaml.Stream

/-!
# Sinks

A writer writes for one of three targets, each with a sink that takes its signals one after the other: a record of
events, a graph, or markup, which is printed from a graph when that is finished. No sink refuses anything that a sound
draft has sent (**`Draft.Sound.received`**), so an operation fails for the writer's own reasons alone.
-/

namespace FlowDoc.Xaml

/-- What a writer writes. -/
inductive Target
  | events (mode : ValueMode)
  | graph
  | markup

/-- What takes the signals of a writer. -/
inductive Sink
  | recorder (r : Recorder)
  | builder (b : Builder)

namespace Target

/-- How a target has its values sent. -/
def mode : Target → ValueMode
  | events mode => mode
  | graph => .native
  | markup => .text

/-- The sink that nothing was sent to. -/
def sink : Target → Sink
  | events _ => .recorder {}
  | graph | markup => .builder {}

/-- The writer that has written nothing. -/
def writer (target : Target) (theme : Style.Theme) : Writer := { mode := target.mode, theme }

end Target

theorem Recorder.receiveAll_append (r : Recorder) (ss ts : List Signal) :
    r.receiveAll (ss ++ ts) = (r.receiveAll ss).bind (·.receiveAll ts) := by
  induction ss generalizing r with
  | nil => rfl
  | cons s ss ih =>
    simp only [List.cons_append, receiveAll]
    split
    · exact ih _
    · rfl

namespace Sink

/-- Take signals up to the first refusal. -/
def receiveAll : Sink → List Signal → Except RenderError Sink
  | recorder r, signals => (r.receiveAll signals).map recorder
  | builder b, signals => (b.receiveAll signals).map builder

theorem receiveAll_append (k : Sink) (ss ts : List Signal) :
    k.receiveAll (ss ++ ts) = (k.receiveAll ss).bind (·.receiveAll ts) := by
  cases k with
  | recorder r =>
    rw [receiveAll, receiveAll, Recorder.receiveAll_append]
    cases r.receiveAll ss <;> rfl
  | builder b =>
    rw [receiveAll, receiveAll, Builder.receiveAll_append]
    cases b.receiveAll ss <;> rfl

end Sink

/-- **Nothing is refused.** -/
theorem Draft.Sound.received {g : Draft} (h : g.Sound) (target : Target) :
    ∃ k, target.sink.receiveAll g.signals = .ok k := by
  have recorded : ∃ k, (Sink.recorder {}).receiveAll g.signals = .ok k := by
    obtain ⟨depth, hd, -⟩ := h.depthAfter?
    exact ⟨_, by rw [Sink.receiveAll, Recorder.receiveAll_of_depth g.signals {} hd]; rfl⟩
  have built : ∃ k, (Sink.builder {}).receiveAll g.signals = .ok k := by
    obtain ⟨rest, word⟩ := h.isWord_append
    obtain ⟨b, hb⟩ := word.builder
    obtain ⟨b, hb⟩ := Builder.receiveAll_of_append hb
    exact ⟨_, by rw [Sink.receiveAll, hb]; rfl⟩
  cases target with
  | events mode => exact recorded
  | graph => exact built
  | markup => exact built

end FlowDoc.Xaml
