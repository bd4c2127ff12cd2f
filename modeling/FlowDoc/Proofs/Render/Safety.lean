import FlowDoc.Proofs.Render.Ending
import FlowDoc.Proofs.Render.Frame
import FlowDoc.Proofs.Xaml.Stream

/-!
# Rendering keeps the protocol

Whichever of the built-in handlers are left out, no document makes the writer or a receiver meet an operation that is
out of order, and no block or inline leaves a scope open (**`restrict_keepsProtocol`**). What is composed ends at a
fault of a look-up, a value or a fragment, if at all (`Composed.ends`), and what a sound draft has sent any receiver
takes.
-/

namespace FlowDoc.Render

open Xaml

variable {mode : ValueMode} {type : ElementType}

/-! ## Faults -/

theorem lookUp_error {ref : MemberRef} {e : RenderError} (he : lookUp type ref = .error e) : ¬ IsProtocol e := by
  rintro ⟨operation, violation, rfl⟩
  cases ref with
  | name name =>
    simp only [lookUp, getMember] at he
    split at he <;> cases he
  | attached owner name =>
    simp only [lookUp, getAttached] at he
    split at he
    · cases he
    · split at he <;> cases he
  | resolved member => cases he

theorem getContent_error {e : RenderError} (he : getContent type = .error e) : ¬ IsProtocol e := by
  rintro ⟨operation, violation, rfl⟩
  simp only [getContent] at he
  split at he <;> cases he

theorem mem_faultOf {α : Type} {r : Except RenderError α} {e : RenderError} (he : e ∈ faultOf r) : r = .error e := by
  cases r with
  | ok a => cases he
  | error e' => cases he; rfl

theorem memberFault_not_isProtocol {ref : MemberRef} {v : Scalar} {e : RenderError}
    (he : e ∈ memberFault mode type ref v) : ¬ IsProtocol e := by
  unfold memberFault at he
  cases hm : lookUp type ref with
  | error e' =>
    rw [hm] at he
    cases he
    exact lookUp_error hm
  | ok m =>
    rw [hm] at he
    rintro ⟨operation, violation, rfl⟩
    cases mode with
    | native => cases he
    | text =>
      simp only [valueFault] at he
      split at he <;> cases he

/-- Of two faults the first counts. -/
theorem not_isProtocol_or {fault fault' : Option RenderError} (h : ∀ e ∈ fault, ¬ IsProtocol e)
    (h' : ∀ e ∈ fault', ¬ IsProtocol e) : ∀ e ∈ fault.or fault', ¬ IsProtocol e := by
  cases fault with
  | none => exact h'
  | some e => exact h

/-- **What is composed ends**, and at no violation of the protocol. -/
theorem Composed.ends {top : Top} {m : Write Unit} (hc : Composed top m) (mode : ValueMode) :
    ∃ fault, Ends mode top m fault ∧ ∀ e ∈ fault, ¬ IsProtocol e := by
  induction hc with
  | nothing => exact ⟨none, .nothing, fun e he => by cases he⟩
  | @fail _ e he => exact ⟨some e, .fail e, fun e' he' => by cases he'; exact he⟩
  | andThen _ _ hm hn =>
    obtain ⟨fault, ends, safe⟩ := hm
    obtain ⟨fault', ends', safe'⟩ := hn
    exact ⟨_, ends.andThen ends', not_isProtocol_or safe safe'⟩
  | gather operation s => exact ⟨none, .gather operation s, fun e he => by cases he⟩
  | object type _ hb =>
    obtain ⟨fault, ends, safe⟩ := hb
    exact ⟨fault, ends.object, safe⟩
  | member ref hv => exact ⟨_, .member ref hv, fun e => memberFault_not_isProtocol⟩
  | resource ref style => exact ⟨_, .resource ref style, fun e he => lookUp_error (mem_faultOf he)⟩
  | collection ref preserve _ hb =>
    obtain ⟨fault, ends, safe⟩ := hb
    exact ⟨_, .collection ref preserve ends, not_isProtocol_or (fun e he => lookUp_error (mem_faultOf he)) safe⟩
  | content preserve _ hb =>
    obtain ⟨fault, ends, safe⟩ := hb
    exact ⟨_, .content preserve ends, not_isProtocol_or (fun e he => getContent_error (mem_faultOf he)) safe⟩

/-! ## Documents -/

/-- All that is sent for a document, also where writing it fails. -/
def documentSent (h : Handlers) (o : Options) (mode : ValueMode) (d : Document) : List Signal :=
  match (writeDocument h o d).run { mode, theme := o.theme } with
  | .ok _ w => w.sent.toList
  | .error _ w => w.sent.toList

/-- What a recorder makes of a document, which may refuse an event or find the record unclosed. -/
def recordDocument (h : Handlers) (o : Options) (mode : ValueMode) (d : Document) :
    Except RenderError (List Event) := do
  (← Recorder.receiveAll {} (← documentSignals h o mode d)).finish

/-- That the protocol is kept in rendering a document. -/
structure KeepsProtocol (h : Handlers) (o : Options) (d : Document) : Prop where
  /-- A builder and a recorder take all that is sent, whether or not writing fails. -/
  received : ∀ mode, (∃ b, Builder.receiveAll {} (documentSent h o mode d) = .ok b) ∧
    ∃ r, Recorder.receiveAll {} (documentSent h o mode d) = .ok r
  recorded : ∀ mode, recordDocument h o mode d = documentEvents h o mode d
  events : ∀ mode operation violation, documentEvents h o mode d ≠ .error (.protocol operation violation)
  graph : ∀ operation violation, documentGraph h o d ≠ .error (.protocol operation violation)
  markup : ∀ indent operation violation, documentMarkup h o indent d ≠ .error (.protocol operation violation)
  /-- From every state of the writer, the scopes after a block are those before it, but for a collection opened. -/
  block : ∀ b, KeepsScopes (renderBlock h o b)
  inline : ∀ i, KeepsScopes (renderInline h o i)

variable {h : Handlers}

/-- The end of writing a document. -/
theorem writeDocument_cases (hh : h.AreBuiltIn) (o : Options) (mode : ValueMode) (d : Document) :
    (∃ (g : Draft) (root : ObjectPhrase), (writeDocument h o d).run { mode, theme := o.theme } = .ok () g.writer ∧
      g.Sound ∧ g.spine = [] ∧ g.root = some root) ∨
    ∃ (e : RenderError) (g : Draft), (writeDocument h o d).run { mode, theme := o.theme } = .error e g.writer ∧
      g.Sound ∧ ¬ IsProtocol e := by
  obtain ⟨fault, ends, safe⟩ := (composed_document hh o d).ends mode
  have written := writeDocument_ends ends
  cases fault with
  | none =>
    exact Or.inl written
  | some e =>
    obtain ⟨g, run, sound⟩ := written
    exact Or.inr ⟨e, g, run, sound, safe e rfl⟩

/-- The signals of a document are those of namespaces and one object. -/
theorem documentSignals_phrase (hh : h.AreBuiltIn) {o : Options} {d : Document} {signals : List Signal}
    (hs : documentSignals h o mode d = .ok signals) :
    ∃ (decls : List NamespaceDecl) (root : ObjectPhrase), signals = decls.map .namespaceDecl ++ root.signals := by
  rcases writeDocument_cases hh o mode d with ⟨g, root, run, -, closed, hr⟩ | ⟨e, g, run, -, -⟩
  · refine ⟨g.decls, root, ?_⟩
    have sent : documentSignals h o mode d = .ok g.signals := by
      simp [documentSignals, run, Writer.finish, Draft.writer, closed]
    rw [sent] at hs
    cases hs
    simp [Draft.signals, closed, hr, spineSignals]
  · rw [documentSignals, run] at hs
    cases hs

theorem documentSignals_not_isProtocol (hh : h.AreBuiltIn) {o : Options} {d : Document} {e : RenderError}
    (hs : documentSignals h o mode d = .error e) : ¬ IsProtocol e := by
  rcases writeDocument_cases hh o mode d with ⟨g, root, run, -, closed, -⟩ | ⟨e', g, run, -, safe⟩
  · simp [documentSignals, run, Writer.finish, Draft.writer, closed] at hs
  · rw [documentSignals, run] at hs
    cases hs
    exact safe

/-- A record fails where writing fails. -/
theorem documentEvents_error_iff {o : Options} {d : Document} {e : RenderError} :
    documentEvents h o mode d = .error e ↔ documentSignals h o mode d = .error e := by
  rw [documentEvents]
  cases documentSignals h o mode d with
  | ok signals => constructor <;> intro he <;> cases he
  | error e' => constructor <;> intro he <;> cases he <;> rfl

/-- So does a graph: a builder refuses nothing of it. -/
theorem documentGraph_error_iff (hh : h.AreBuiltIn) {o : Options} {d : Document} {e : RenderError} :
    documentGraph h o d = .error e ↔ documentSignals h o .native d = .error e := by
  rw [documentGraph]
  cases hs : documentSignals h o .native d with
  | ok signals =>
    obtain ⟨decls, root, rfl⟩ := documentSignals_phrase hh hs
    have built := Graph.ofSignals_phrase decls root
    constructor
    · intro he; cases built.symm.trans he
    · intro he; cases he
  | error e' => constructor <;> intro he <;> cases he <;> rfl

/-- And so does markup. -/
theorem documentMarkup_error_iff (hh : h.AreBuiltIn) {o : Options} {indent : Nat} {d : Document} {e : RenderError} :
    documentMarkup h o indent d = .error e ↔ documentSignals h o .text d = .error e := by
  rw [documentMarkup]
  cases hs : documentSignals h o .text d with
  | ok signals =>
    obtain ⟨decls, root, rfl⟩ := documentSignals_phrase hh hs
    have printed : (do return (← Graph.ofSignals (decls.map .namespaceDecl ++ root.signals)).markup indent :
        Except RenderError String) = .ok (Graph.markup ⟨decls, root.object⟩ indent) := by
      rw [Graph.ofSignals_phrase]
      rfl
    constructor
    · intro he; cases printed.symm.trans he
    · intro he; cases he
  | error e' => constructor <;> intro he <;> cases he <;> rfl

/-- A recorder takes namespaces and one object, and can finish. -/
theorem recorded_phrase (decls : List NamespaceDecl) (o : ObjectPhrase) :
    (Recorder.receiveAll {} (decls.map Signal.namespaceDecl ++ o.signals)).bind (·.finish) =
      .ok ((decls.map Signal.namespaceDecl ++ o.signals).map Event.ofSignal) := by
  have level := ((isLevel_decls decls).append (isLevel_object o)) 0 (by omega)
  rw [Recorder.receiveAll_of_depth _ {} level]
  simp [Except.bind, Recorder.finish]

theorem documentSent_received (hh : h.AreBuiltIn) (o : Options) (mode : ValueMode) (d : Document) :
    (∃ b, Builder.receiveAll {} (documentSent h o mode d) = .ok b) ∧
      ∃ r, Recorder.receiveAll {} (documentSent h o mode d) = .ok r := by
  have drafted : ∃ g : Draft, g.Sound ∧ documentSent h o mode d = g.signals := by
    rcases writeDocument_cases hh o mode d with ⟨g, root, run, sound, -⟩ | ⟨e, g, run, sound, -⟩
    · exact ⟨g, sound, by simp [documentSent, run, Draft.writer]⟩
    · exact ⟨g, sound, by simp [documentSent, run, Draft.writer]⟩
  obtain ⟨g, sound, sent⟩ := drafted
  obtain ⟨rest, word⟩ := sound.isWord_append
  obtain ⟨b, built⟩ := word.builder
  obtain ⟨depth, hd, -⟩ := sound.depthAfter?
  rw [sent]
  exact ⟨Builder.receiveAll_of_append built, _, Recorder.receiveAll_of_depth g.signals {} hd⟩

/-- The protocol is kept with any of the built-in handlers. -/
theorem keepsProtocol (hh : h.AreBuiltIn) (o : Options) (d : Document) : KeepsProtocol h o d where
  received mode := documentSent_received hh o mode d
  recorded mode := by
    rw [recordDocument, documentEvents]
    cases hs : documentSignals h o mode d with
    | ok signals =>
      obtain ⟨decls, root, rfl⟩ := documentSignals_phrase hh hs
      exact recorded_phrase decls root
    | error e => rfl
  events _ operation violation he :=
    documentSignals_not_isProtocol hh (documentEvents_error_iff.mp he) ⟨operation, violation, rfl⟩
  graph operation violation he :=
    documentSignals_not_isProtocol hh ((documentGraph_error_iff hh).mp he) ⟨operation, violation, rfl⟩
  markup _ operation violation he :=
    documentSignals_not_isProtocol hh ((documentMarkup_error_iff hh).mp he) ⟨operation, violation, rfl⟩
  block b := (composed_block hh o b).keepsScopes
  inline i := (composed_inline hh o i).keepsScopes

/-! ## Handlers that are left out -/

/-- The handlers of the kinds that are kept. -/
def Handlers.restrict (h : Handlers) (keepBlock keepInline : String → Bool) : Handlers where
  blocks := h.blocks.filter fun entry => keepBlock entry.1
  inlines := h.inlines.filter fun entry => keepInline entry.1

/-- Among the entries of kept kinds a kind is found that is kept. -/
theorem lookup_filter_keep {α : Type} (keep : String → Bool) (kind : String) (l : List (String × α)) :
    (l.filter fun entry => keep entry.1).lookup kind = if keep kind then l.lookup kind else none := by
  induction l with
  | nil => simp
  | cons entry l ih =>
    obtain ⟨k, a⟩ := entry
    by_cases same : kind = k
    · subst same
      cases hk : keep kind <;> simp [hk, ih]
    · have other : (kind == k) = false := by simp [same]
      cases hk : keep k <;> simp [hk, ih, List.lookup_cons, other]

theorem areBuiltIn_restrict (keepBlock keepInline : String → Bool) :
    (Handlers.builtIn.restrict keepBlock keepInline).AreBuiltIn where
  block kind handler found := by
    rw [Handlers.block?, Handlers.restrict, lookup_filter_keep] at found
    split at found
    · exact found
    · cases found
  inline kind handler found := by
    rw [Handlers.inline?, Handlers.restrict, lookup_filter_keep] at found
    split at found
    · exact found
    · cases found

/-- **Protocol.** Whichever of the built-in handlers are left out, rendering keeps the protocol for every document. -/
theorem restrict_keepsProtocol (keepBlock keepInline : String → Bool) (o : Options) (d : Document) :
    KeepsProtocol (Handlers.builtIn.restrict keepBlock keepInline) o d :=
  keepsProtocol (areBuiltIn_restrict keepBlock keepInline) o d

end FlowDoc.Render
