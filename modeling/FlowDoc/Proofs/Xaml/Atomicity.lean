import FlowDoc.Proofs.Xaml.State

/-!
# Steps that fail

A step that fails leaves the writer and its sink as they were, with one exception (`Failure`): a whole member whose
value has no spelling, which only text asks for, is started and stays open. Then the member and its object can still be
ended. That all steps of every script fail so is **`failed_step`**.

A step of several operations can fail at the first of them alone: in front of a member nothing waits in the buffer
(`Draft.Sound.isQuiet`), so the others find what they need.
-/

namespace FlowDoc.Xaml

namespace Writer

/-- With a member started. -/
def withMember (w : Writer) (m : Member) : Writer :=
  { w with scopes := .member :: w.scopes, sent := w.sent.push (.startMember m) }

/-- With that member ended, and the object that it is in. -/
def withEmptyMember (w : Writer) (m : Member) : Writer :=
  { w with scopes := w.scopes.tail, sent := ((w.sent.push (.startMember m)).push .endMember).push .endObject }

end Writer

/-- How a step can fail that is asked of a writer with a sink: the error, and the writer after it. -/
inductive Failure (w : Writer) (k : Sink) : Step → RenderError → Writer → Prop
  | unchanged {s : Step} {e : RenderError} : isRefusal e = true → Failure w k s e w
  | memberOpen {ref : MemberRef} {v : Scalar} {m : Member} {started ended : Sink} : w.mode = .text →
      k.receiveAll [.startMember m] = .ok started →
      (do Write.endMember; Write.endObject : Write Unit).run (w.withMember m) = .ok () (w.withEmptyMember m) →
      started.receiveAll [.endMember, .endObject] = .ok ended →
      Failure w k (.member ref (some v)) (.conversion m.name v.debug) (w.withMember m)

/-- A sink that takes signals takes each part of them. -/
theorem Sink.receiveAll_append_eq_ok {k k' : Sink} {ss ts : List Signal} (h : k.receiveAll (ss ++ ts) = .ok k') :
    ∃ between, k.receiveAll ss = .ok between ∧ between.receiveAll ts = .ok k' := by
  rw [receiveAll_append] at h
  cases hs : k.receiveAll ss with
  | ok between => exact ⟨between, rfl, by rw [hs] at h; exact h⟩
  | error e => rw [hs] at h; cases h

/-- Ending a member in which nothing was written, and its object. -/
theorem Writer.IsQuiet.run_end {w : Writer} (h : w.IsQuiet) {type : ElementType} {rest : List Scope}
    (hs : w.scopes = .object type :: rest) (m : Member) :
    (do Write.endMember; Write.endObject : Write Unit).run (w.withMember m) = .ok () (w.withEmptyMember m) := by
  have taken : w.buffer.take false = (none, w.buffer) :=
    Prod.ext (Draft.take_of_quiet h false) (Draft.take_false_of_quiet h)
  simp [Write.endMember, Write.endObject, Write.flushText, Write.popScope, Write.send, withMember, withEmptyMember, hs,
    taken]

/-- Two steps that succeed, as a script. -/
theorem Writer.run_pair {w w' : Writer} {s t : Step} (h : (do s.write; t.write).run w = .ok () w') :
    w.run [s, t] = w' := by
  obtain ⟨_, v, hs, ht⟩ := Write.run_bind_eq_ok h
  have first : w.step s = v := by rw [step, hs]
  rw [run_cons, run_cons, run_nil, first, step, ht]

namespace Draft

variable {g : Draft}

theorem writer_startMember {type : ElementType} {members : List MemberPhrase} {sp : List OpenPhrase} (m : Member)
    (hs : g.spine = .object type members :: sp) :
    (g.withSpine (.member m [] :: .object type members :: sp) g.buffer).writer = g.writer.withMember m := by
  simp [writer, withSpine, Writer.withMember, hs, signals, spineSignals, OpenPhrase.scope, OpenPhrase.signals]

/-- The signals sent are the writer's. -/
theorem signals_eq {w : Writer} (hw : g.writer = w) : g.signals = w.sent.toList := by
  rw [← hw]
  rfl

/-- A member started in an object can be ended with it, and the sink takes all of that. -/
theorem Sound.memberOpen (h : g.Sound) (target : Target) {type : ElementType} {members : List MemberPhrase}
    {sp : List OpenPhrase} (hs : g.spine = .object type members :: sp) (m : Member) :
    (do Write.endMember; Write.endObject : Write Unit).run (g.writer.withMember m) =
      .ok () (g.writer.withEmptyMember m) ∧
    ∃ k started ended, target.sink.receiveAll g.writer.sent.toList = .ok k ∧
      k.receiveAll [.startMember m] = .ok started ∧ started.receiveAll [.endMember, .endObject] = .ok ended := by
  have quiet : g.writer.IsQuiet := h.isQuiet (by simp [writer, hs, OpenPhrase.scope, Scope.isObject])
  have ends := quiet.run_end (writer_scopes hs) m
  refine ⟨ends, ?_⟩
  -- the draft after the ends, of which the sink takes all
  have sound := (Move.startMember m hs).sound h
  obtain ⟨g', run, hw⟩ := sound.script_run [.endMember, .endObject] (Writer.staysAt_zero _ _)
  rw [writer_startMember m hs, Writer.run_pair (s := .endMember) (t := .endObject) ends] at hw
  obtain ⟨ended, taken⟩ := (run.sound sound).received target
  have sent : g'.signals = g.writer.sent.toList ++ ([.startMember m] ++ [.endMember, .endObject]) := by
    rw [signals_eq hw.symm]
    simp [Writer.withEmptyMember]
  rw [sent] at taken
  obtain ⟨k, before, rest⟩ := Sink.receiveAll_append_eq_ok taken
  obtain ⟨started, first, last⟩ := Sink.receiveAll_append_eq_ok rest
  exact ⟨k, started, ended, before, first, last⟩

end Draft

/-- **Steps that fail.** Whatever a script did before, a step that fails leaves the writer as it was, and so the sink;
only a whole member whose value has no spelling leaves the member open. -/
theorem failed_step (target : Target) (theme : Style.Theme) (script : List Step) {s : Step} {e : RenderError}
    {w : Writer} (failed : s.write.run ((target.writer theme).run script) = .error e w) :
    ∃ k, target.sink.receiveAll ((target.writer theme).run script).sent.toList = .ok k ∧
      Failure ((target.writer theme).run script) k s e w := by
  obtain ⟨g, sound, hw⟩ := exists_draft target.mode theme script
  have run : (target.writer theme).run script = g.writer := hw
  rw [run] at failed ⊢
  cases sound.outcome s with
  | done _ _ ok => rw [ok] at failed; cases failed
  | refused refused =>
    obtain ⟨_, refusal, he⟩ := refused
    rw [he] at failed
    cases failed
    obtain ⟨k, taken⟩ := sound.received target
    exact ⟨k, by simpa [Draft.writer] using taken, .unchanged refusal⟩
  | @unspelled _ _ m _ _ hs text spelled start he =>
    rw [he] at failed
    cases failed
    subst hs
    cases start with
    | startMember _ spine =>
      obtain ⟨ends, k, started, ended, taken, first, last⟩ := sound.memberOpen target spine m
      refine ⟨k, taken, ?_⟩
      rw [ValueForm.spell_eq_error spelled, Draft.writer_startMember m spine]
      exact .memberOpen text first ends last

/-- A flag has no spelling as a number of columns, so the member stays open. -/
theorem failed_step_columnSpan :
    ∃ (w : Writer) (k : Sink),
      (Step.member (.name "ColumnSpan") (some (.bool true))).write.run
        ((Target.markup.writer {}).run [.startObject "TableCell"]) = .error (.conversion "ColumnSpan" "Bool(true)") w ∧
      w.scopes.head? = some .member ∧
      Failure ((Target.markup.writer {}).run [.startObject "TableCell"]) k
        (.member (.name "ColumnSpan") (some (.bool true))) (.conversion "ColumnSpan" "Bool(true)") w := by
  obtain ⟨k, -, failure⟩ := failed_step .markup {} [.startObject "TableCell"]
    (s := .member (.name "ColumnSpan") (some (.bool true))) rfl
  exact ⟨_, k, rfl, rfl, failure⟩

end FlowDoc.Xaml
