import FlowDoc.Proofs.Text.Words
import FlowDoc.Proofs.Xaml.Collection
import FlowDoc.Proofs.Xaml.Sink

/-!
# Text written in a member

A member has no buffer of its own, and starting one does not start a run of text. What it sees of the buffer is the same
after every script: a buffer that collapses is past the start of its text wherever an object or a member is innermost
(`PastStart`), because an object passes the start, and a collection is left past it. So a member's text is collapsed as
if it went on behind something. The white space at its end is dropped, that at its start is one space
(**`member_text`**), and only without any is it the collapsed text (`leadingSpace_kept_in_member`).
-/

namespace FlowDoc.Xaml

open Text (isSpace collapse joinWords joinBehind Buffer Flow)

/-! ## The start of a text -/

/-- A buffer that collapses is past the start of its text if what is innermost is no collection. -/
def PastStart : List OpenPhrase → Buffer → Prop
  | .object _ _ :: _, b | .member _ _ :: _, b => b.mode = .collapse → b.atStart = false
  | [], _ | .collection _ _ _ _ :: _, _ => True

theorem pastStart_of_atStart {b : Buffer} (h : b.mode = .collapse → b.atStart = false) (spine : List OpenPhrase) :
    PastStart spine b := by
  rcases spine with _ | ⟨_ | _ | _, _⟩
  · trivial
  · exact h
  · exact h
  · trivial

namespace Draft

variable {g g' : Draft}

/-- **One act** leaves the buffer past its start, or a collection innermost. -/
theorem Move.pastStart {a : Act} (m : g.Move a g') (h : PastStart g.spine g.buffer) : PastStart g'.spine g'.buffer := by
  have taken : (g.buffer.take true).2.mode = .collapse → (g.buffer.take true).2.atStart = false := by
    intro hm
    rw [Buffer.take_mode] at hm
    exact take_true_atStart hm
  cases m with
  | declare decl _ _ => exact h
  | startRoot type _ _ => exact pastStart_of_atStart taken _
  | startChild type _ _ => exact pastStart_of_atStart taken _
  | endRoot _ => trivial
  | endChild hs => rw [hs] at h; exact pastStart_of_atStart h _
  | startMember m hs => rw [hs] at h; exact pastStart_of_atStart h _
  | endMember hs =>
    rw [hs] at h
    refine pastStart_of_atStart (fun hm => ?_) _
    simp only [buffer_withSpine, Buffer.take_mode] at hm ⊢
    exact take_atStart (h hm) false
  | put m i hs _ hb =>
    rw [hs] at h
    rcases hb with rfl | rfl
    · exact pastStart_of_atStart h _
    · exact pastStart_of_atStart taken _
  | startItems m mode _ => trivial
  | endItems _ => exact pastStart_of_atStart (fun _ => rfl) _
  | @text p sp s hs hc =>
    rw [hs] at h
    cases p with
    | object _ _ => cases hc
    | member _ _ =>
      refine pastStart_of_atStart (fun hm => ?_) _
      simp only [buffer_withSpine, Buffer.pushAll_mode] at hm ⊢
      exact pushAll_atStart (h hm) s
    | collection _ _ _ _ => trivial

/-- **Runs.** -/
theorem Run.pastStart {depth : Nat} {flow : List (Flow Unit)} (r : Run depth g flow g')
    (h : PastStart g.spine g.buffer) : PastStart g'.spine g'.buffer := by
  induction r with
  | refl => exact h
  | act _ m _ ih => exact m.pastStart ih

end Draft

/-- Every writer has a sound draft whose buffer is past its start in front of a member. -/
theorem exists_draft_pastStart (mode : ValueMode) (theme : Style.Theme) (script : List Step) :
    ∃ g : Draft, g.Sound ∧ PastStart g.spine g.buffer ∧ ({ mode, theme } : Writer).run script = g.writer := by
  have start := Draft.sound_start mode theme
  obtain ⟨g, r, hw⟩ := start.script_run script (Writer.staysAt_zero _ script)
  exact ⟨g, r.sound start, r.pastStart trivial, hw⟩

/-! ## Steps that write text -/

/-- The text that a step writes, if it writes text and nothing else. -/
def Step.text? : Step → Option String
  | .text s | .literal s => some s
  | .char c => some (String.ofList [c])
  | _ => none

/-- All the text that steps write. -/
def writtenText (steps : List Step) : String := String.join (steps.filterMap Step.text?)

/-- The words of a text with single spaces between them, and one in front if the text starts with white space. -/
def memberText (s : String) : String := String.ofList (joinBehind isSpace s.toList)

/-- A text as the one value that is sent for it, or nothing if it is empty. -/
def textSignals (s : String) : List Signal := if s.isEmpty then [] else [.value (.text s)]

theorem textSignals_inj {s t : String} : textSignals s = textSignals t ↔ s = t := by
  refine ⟨fun same => ?_, fun same => by rw [same]⟩
  cases hs : s.isEmpty <;> cases ht : t.isEmpty <;> simp_all [textSignals]

/-- The piece of the last gap, as items. -/
theorem itemsSignals_last_gap (s : String) :
    itemsSignals (pieceItems (Text.gapPiece .collapse false true s)) = textSignals (memberText s) := by
  rw [Text.gapPiece, Text.gapText_last, textSignals, memberText, Text.pieceOf]
  split <;> simp [pieceItems, ItemPhrase.ofPiece, ItemPhrase.signals]

namespace Draft

variable {g : Draft} {p : OpenPhrase} {sp : List OpenPhrase}

theorem step_text (hs : g.spine = p :: sp) (hc : p.isContainer = true) {s : Step} {t : String}
    (ht : s.text? = some t) : g.writer.step s = (g.withSpine (p :: sp) (g.buffer.pushAll t)).writer := by
  have gathered := fun operation => gather_container hs hc operation t
  cases s with
  | text s => cases ht; rw [Writer.step, Step.write, Write.text, gathered]
  | char c => cases ht; rw [Writer.step, Step.write, Write.char, gathered]
  | literal s => cases ht; rw [Writer.step, Step.write, Write.literal, gathered]
  | _ => cases ht

/-- Steps that write text only fill the buffer. -/
theorem run_texts : ∀ {filling : List Step} {g : Draft}, g.spine = p :: sp → p.isContainer = true →
    (∀ s ∈ filling, s.text?.isSome = true) →
      g.writer.run filling = (g.withSpine (p :: sp) (g.buffer.pushAll (writtenText filling))).writer
  | [], g, hs, _, _ => by
    have same : g.withSpine (p :: sp) (g.buffer.pushAll "") = g := by rw [Buffer.pushAll_empty, ← hs]; rfl
    exact congrArg writer same.symm
  | s :: filling, g, hs, hc, texts => by
    obtain ⟨first, rest⟩ := List.forall_mem_cons.mp texts
    obtain ⟨t, ht⟩ := Option.isSome_iff_exists.mp first
    have written : writtenText (s :: filling) = t ++ writtenText filling := by simp [writtenText, ht]
    rw [Writer.run_cons, step_text hs hc ht, run_texts rfl hc rest, written, Buffer.pushAll_append]
    rfl

/-- A member that is filled with text in front of which nothing waits, and ended. -/
theorem endMember_texts {type : ElementType} {members : List MemberPhrase} (m : Member) (h : g.Sound)
    (past : PastStart g.spine g.buffer) (hs : g.spine = .object type members :: sp)
    (collapses : g.buffer.mode = .collapse) (s : String) :
    ∃ g' : Draft, g'.Sound ∧
      Write.endMember.run
        (g.withSpine (.member m [] :: .object type members :: sp) (g.buffer.pushAll s)).writer = .ok () g'.writer ∧
      g'.signals = g.signals ++ .startMember m :: textSignals (memberText s) ++ [.endMember] := by
  have filled : (g.withSpine (.member m [] :: .object type members :: sp) (g.buffer.pushAll s)).Sound :=
    (Move.text (g := g.withSpine _ g.buffer) s rfl rfl).sound ((Move.startMember m hs).sound h)
  have quiet := h.quiet (by simp [hs, OpenPhrase.isContainer])
  rw [hs] at past
  have gap : g.buffer.AtGap .collapse false := ⟨quiet.1, quiet.2, fun _ => past collapses, collapses⟩
  refine ⟨_, (Move.endMember rfl).sound filled, endMember_member rfl, ?_⟩
  rw [buffer_withSpine, Buffer.take_pushAll gap, List.nil_append, Bool.not_false, ← itemsSignals_last_gap]
  simp [signals, withSpine, hs, spineSignals, OpenPhrase.signals, MemberPhrase.signals, membersSignals, memberStart,
    memberEnd]

end Draft

/-- **The text of a member.** Whatever a script did before, a member in a text that collapses, filled by writing text
only, can be ended; it holds the words of that text joined with single spaces, with one in front if the text starts with
white space, and nothing if there are no words. This is the collapsed text exactly if that is empty or no white space
comes first. -/
theorem member_text (target : Target) (theme : Style.Theme) (before filling : List Step) {ref : MemberRef} {w : Writer}
    (collapses : ((target.writer theme).run before).buffer.mode = .collapse)
    (started : (Write.startMember ref).run ((target.writer theme).run before) = .ok () w)
    (texts : ∀ s ∈ filling, s.text?.isSome = true) :
    ∃ (m : Member) (w' : Writer) (k : Sink),
      Write.endMember.run (w.run filling) = .ok () w' ∧
      w'.sent.toList = ((target.writer theme).run before).sent.toList ++
        .startMember m :: textSignals (memberText (writtenText filling)) ++ [.endMember] ∧
      target.sink.receiveAll w'.sent.toList = .ok k ∧
      (textSignals (memberText (writtenText filling)) = textSignals (collapse (writtenText filling)) ↔
        collapse (writtenText filling) = "" ∨ (writtenText filling).toList.head?.any isSpace = false) := by
  obtain ⟨g, sound, past, hw⟩ := exists_draft_pastStart target.mode theme before
  have run : (target.writer theme).run before = g.writer := hw
  rw [run] at collapses started ⊢
  rcases g.object_or_fails ref with ⟨type, members, sp, m, hs, hm⟩ | fails
  · rw [Draft.startMember_object sound hs hm] at started
    cases started
    -- the filling waits in the buffer until the member ends
    have filled := Draft.run_texts (g := g.withSpine (.member m [] :: .object type members :: sp) g.buffer) rfl rfl
      texts
    obtain ⟨g', sound', ended, sent⟩ := Draft.endMember_texts m sound past hs collapses (writtenText filling)
    obtain ⟨k, taken⟩ := sound'.received target
    refine ⟨m, g'.writer, k, (congrArg Write.endMember.run filled).trans ended, by simpa [Draft.writer] using sent,
      by simpa [Draft.writer] using taken, ?_⟩
    rw [textSignals_inj, ← String.toList_inj, memberText, String.toList_ofList, Text.collapse_eq_joinWords,
      Text.joinBehind_eq_joinWords_iff, ← Text.collapse_eq_joinWords, String.toList_eq_nil_iff]
  · obtain ⟨e, -, refused⟩ := Draft.startMember_fails sound fails
    rw [refused] at started
    cases started

/-- A run whose text is written in three steps. -/
theorem member_text_run :
    ∃ w' : Writer, Write.endMember.run (({ mode := .native, theme := {} } : Writer).run
        [.startObject "Run", .startMember (.name "Text"), .text "a ", .char ' ', .literal "b\n"]) = .ok () w' ∧
      ∃ m, w'.sent.toList = [.startObject .run, .startMember m, .value (.text "a b"), .endMember] := by
  have started : (Write.startMember (.name "Text")).run ((Target.graph.writer {}).run [.startObject "Run"]) =
      .ok () (({ mode := .native, theme := {} } : Writer).run [.startObject "Run", .startMember (.name "Text")]) := rfl
  obtain ⟨m, w', k, ended, sent, -, -⟩ :=
    member_text .graph {} [.startObject "Run"] [.text "a ", .char ' ', .literal "b\n"] rfl started (by decide)
  exact ⟨w', ended, m, sent⟩

/-- The space at the start of a text stays in a member, not in the collapsed text, and not in a collection. -/
theorem leadingSpace_kept_in_member :
    collapse " a" = "a" ∧
    (({ mode := .native, theme := {} } : Writer).run
        [.startObject "Run", .startMember (.name "Text"), .text " a", .endMember]).sent.toList =
      [.startObject .run, .startMember runText, .value (.text " a"), .endMember] ∧
    ∃ m, (({ mode := .native, theme := {} } : Writer).run
        [.startObject "Paragraph", .startContent false, .text " a", .endItems]).sent.toList =
      [.startObject .paragraph, .startCollection m, .value (.text "a"), .endCollection] :=
  ⟨by decide, rfl, _, rfl⟩

end FlowDoc.Xaml
