import FlowDoc.Proofs.Render.Beneath
import FlowDoc.Proofs.Xaml.TextStart

/-!
# Replayed markup as steps

The nodes of a fragment stand for steps: an element for the start of an object, a member with a text for each of its
attributes, its content if it is substantial, and the end of the object, in the order of the document. Replaying nodes
performs these steps, and ends with a fault at the first thing that is not replayed (`Plan`, `replayNodes_eq_write`).

Content that is all white space is left out, which nobody can tell: replayed with it, the nodes have the same outcome,
and every script that follows sends the same (`matches_replayWholeNodes`). All of it is in **`replay_faithful`**.
-/

namespace FlowDoc.Render

open Xaml
open Text (Buffer SpaceMode)

/-! ## Plans -/

/-- Perform steps one after the other, as long as they succeed. -/
def perform (steps : List Step) : Write Unit := inOrder (steps.map Step.write)

theorem perform_append (steps more : List Step) :
    perform (steps ++ more) = perform steps >>= fun _ => perform more := by
  rw [perform, List.map_append, inOrder_append]
  rfl

theorem perform_singleton (s : Step) : perform [s] = s.write := by simp [perform, inOrder]

/-- Nothing comes after a fault. -/
theorem throw_bind {α β : Type} (e : RenderError) (f : α → Write β) : (throw e : Write α) >>= f = throw e := rfl

/-- Steps that all succeed are a script. -/
theorem run_of_perform {steps : List Step} {w w' : Writer} {u : Unit} (h : (perform steps).run w = .ok u w') :
    w' = w.run steps := by
  induction steps generalizing w with
  | nil => cases h; rfl
  | cons s steps ih =>
    obtain ⟨_, v, first, rest⟩ := Write.run_bind_eq_ok (m := s.write) (f := fun _ => perform steps) h
    rw [Writer.run_cons, Writer.step, first]
    exact ih rest

/-- Steps, and the fault that comes after them, if there is one. -/
structure Plan where
  steps : List Step := []
  fault : Option RenderError := none

namespace Plan

def step (s : Step) : Plan := { steps := [s] }

def fail (e : RenderError) : Plan := { fault := some e }

/-- One plan after another, which does not come if the first has a fault. -/
def andThen (p q : Plan) : Plan :=
  match p.fault with
  | none => ⟨p.steps ++ q.steps, q.fault⟩
  | some _ => p

/-- What a plan writes. -/
def write (p : Plan) : Write Unit := do
  perform p.steps
  match p.fault with
  | none => pure ()
  | some e => throw e

@[simp] theorem write_step (s : Step) : (step s).write = s.write := by simp [write, step, perform_singleton]

@[simp] theorem write_fail (e : RenderError) : (fail e).write = throw e := rfl

@[simp] theorem write_nothing : write {} = pure () := rfl

@[simp] theorem write_andThen (p q : Plan) : (p.andThen q).write = p.write >>= fun _ => q.write := by
  obtain ⟨steps, fault⟩ := p
  cases fault with
  | none => simp [andThen, write, perform_append]
  | some e => simp [andThen, write, throw_bind]

/-- A plan that succeeds has no fault, and is a script. -/
theorem run_of_write {p : Plan} {w w' : Writer} {u : Unit} (h : p.write.run w = .ok u w') :
    p.fault = none ∧ (perform p.steps).run w = .ok () w' ∧ w' = w.run p.steps := by
  obtain ⟨_, v, performed, rest⟩ := Write.run_bind_eq_ok h
  cases fault : p.fault with
  | none =>
    rw [fault] at rest
    cases rest
    exact ⟨rfl, performed, run_of_perform performed⟩
  | some e =>
    rw [fault] at rest
    cases rest

end Plan

/-! ## Nodes as plans -/

/-- The plan of attributes: members in their order. -/
def attributesPlan (fragment : String) : List Xml.Attribute → Plan
  | [] => {}
  | a :: rest =>
    if a.space.isSome then .fail (.unsupportedFragment fragment (.namespacedAttribute a.name))
    else (Plan.step (.member (.ofName a.name) (some (.text a.value)))).andThen (attributesPlan fragment rest)

mutual

/-- The plan of a node, in the order of the document. -/
def nodePlan (fragment : String) : Xml.Node → Plan
  | .text s => .step (.text s)
  | .element space name attributes children =>
    if name.toList.contains '.' then .fail (.unsupportedFragment fragment (.propertyElement name))
    else
      match getTypeIn (space.getD presentationNamespace) name with
      | .error e => .fail e
      | .ok type =>
        let content : Plan :=
          if children.any isSubstantial then
            (Plan.step (.startContent false)).andThen ((nodesPlan fragment children).andThen (.step .endItems))
          else {}
        (Plan.step (.startObjectOf type)).andThen
          ((attributesPlan fragment attributes).andThen (content.andThen (.step .endObject)))

/-- The plans of nodes one after the other. -/
def nodesPlan (fragment : String) : List Xml.Node → Plan
  | [] => {}
  | n :: ns => (nodePlan fragment n).andThen (nodesPlan fragment ns)

end

theorem replayAttributes_eq_write (fragment : String) (attributes : List Xml.Attribute) :
    replayAttributes fragment attributes = (attributesPlan fragment attributes).write := by
  induction attributes with
  | nil => rfl
  | cons a rest ih =>
    rw [replayAttributes, attributesPlan, ih]
    cases a.space with
    | none => simp [Step.write, Write.member?]
    | some space => simp [throw_bind]

mutual

theorem replayNode_eq_write (fragment : String) : ∀ node : Xml.Node,
    replayNode fragment node = (nodePlan fragment node).write
  | .text s => by simp [replayNode, nodePlan, Step.write]
  | .element space name attributes children => by
    have inner := replayNodes_eq_write fragment children
    rw [replayNode, nodePlan]
    by_cases dotted : name.toList.contains '.' = true
    · rw [if_pos dotted, if_pos dotted]
      rfl
    · rw [if_neg dotted, if_neg dotted]
      cases getTypeIn (space.getD presentationNamespace) name with
      | error e => rfl
      | ok type =>
        by_cases filled : children.any isSubstantial = true
        · simp [filled, replayAttributes_eq_write, inner, Step.write, Write.lift]
        · simp [filled, replayAttributes_eq_write, Step.write, Write.lift]

theorem replayNodes_eq_write (fragment : String) : ∀ nodes : List Xml.Node,
    replayNodes fragment nodes = (nodesPlan fragment nodes).write
  | [] => rfl
  | n :: ns => by
    rw [replayNodes, nodesPlan, Plan.write_andThen, replayNode_eq_write fragment n, replayNodes_eq_write fragment ns]

end

/-! ## Content that is all white space -/

mutual

/-- Write a node of a fragment with all content that its type has a place for, also where it is all white space. -/
def replayWholeNode (fragment : String) : Xml.Node → Write Unit
  | .text s => Write.text s
  | .element space name attributes children => do
    if name.toList.contains '.' then throw (.unsupportedFragment fragment (.propertyElement name))
    let type ← Write.lift (getTypeIn (space.getD presentationNamespace) name)
    Write.startObjectOf type
    replayAttributes fragment attributes
    if children.any isSubstantial || (getContent type).isOk then
      Write.startContent false
      replayWholeNodes fragment children
      Write.endItems
    Write.endObject

/-- Write nodes one after the other, with all their content. -/
def replayWholeNodes (fragment : String) : List Xml.Node → Write Unit
  | [] => pure ()
  | n :: ns => do
    replayWholeNode fragment n
    replayWholeNodes fragment ns

end

/-- White space at the start of a text leaves a collapsing buffer empty. -/
theorem pushAll_blank {s : String} (blank : isSubstantial (.text s) = false) :
    (Buffer.empty .collapse).pushAll s = .empty .collapse := by
  have spaces : ∀ c ∈ s.toList, Text.isSpace c = true := by simpa [isSubstantial] using blank
  unfold Buffer.pushAll
  generalize s.toList = cs at spaces
  induction cs with
  | nil => rfl
  | cons c cs ih =>
    have dropped : (Buffer.empty .collapse).push c = .empty .collapse := by
      simp [Buffer.push, Buffer.empty, spaces c List.mem_cons_self]
    rw [List.foldl_cons, dropped]
    exact ih fun d hd => spaces d (List.mem_cons_of_mem c hd)

/-- Nodes that are all white space leave a collection as it is at its start. -/
theorem replayWholeNodes_blank (fragment : String) {children : List Xml.Node}
    (blank : children.any isSubstantial = false) {w : Writer} {m : Member} {outerMode : SpaceMode} {rest : List Scope}
    (hs : w.scopes = .items m false outerMode :: rest) (hb : w.buffer = .empty .collapse) :
    (replayWholeNodes fragment children).run w = .ok () w := by
  induction children with
  | nil => rfl
  | cons n ns ih =>
    rw [List.any_cons, Bool.or_eq_false_iff] at blank
    cases n with
    | element space name attributes inner => cases blank.1
    | text s =>
      have written : (Write.text s).run w = .ok () w := by
        have same : ({ w with buffer := w.buffer.pushAll s } : Writer) = w := by rw [hb, pushAll_blank blank.1, ← hb]
        rw [Write.text, Write.gather, Write.run_get_bind, hs]
        exact congrArg (EStateM.Result.ok ()) same
      rw [replayWholeNodes, replayWholeNode, Write.run_bind_ok written]
      exact ih blank.2

/-- Whether a writer can be reached by a script. -/
def IsReached (w : Writer) : Prop := ∃ (mode : ValueMode) (theme : Style.Theme) (script : List Step),
  w = ({ mode, theme } : Writer).run script

/-- In front of the members and collections of an object nothing waits, and the buffer is past its start. -/
theorem IsReached.buffer_of_object {w : Writer} (h : IsReached w) {type : ElementType} {rest : List Scope}
    (hs : w.scopes = .object type :: rest) :
    w.buffer.text = "" ∧ w.buffer.spaceDue = false ∧ (w.buffer.mode = .collapse → w.buffer.atStart = false) := by
  obtain ⟨mode, theme, script, rfl⟩ := h
  obtain ⟨g, sound, past, hw⟩ := exists_draft_pastStart mode theme script
  rw [hw] at hs ⊢
  have top : ∃ members sp, g.spine = .object type members :: sp := by
    cases hsp : g.spine with
    | nil =>
      rw [Draft.writer_scopes hsp] at hs
      cases hs
    | cons p sp =>
      rw [Draft.writer_scopes hsp] at hs
      cases p <;> cases hs
      exact ⟨_, sp, rfl⟩
  obtain ⟨members, sp, hsp⟩ := top
  obtain ⟨text, due⟩ := sound.quiet (by simp [hsp, OpenPhrase.isContainer])
  rw [hsp] at past
  exact ⟨text, due, past⟩

/-- **White space.** An object that can take content is as before once it got content that is all white space. -/
theorem run_blankContent (fragment : String) {children : List Xml.Node} (blank : children.any isSubstantial = false)
    {w : Writer} (h : IsReached w) {type : ElementType} {rest : List Scope} (hs : w.scopes = .object type :: rest)
    {m : Member} (hm : getContent type = .ok m) :
    ∃ w', (do Write.startContent false; replayWholeNodes fragment children; Write.endItems).run w = .ok () w' ∧
      w.Like w' := by
  obtain ⟨text, due, past⟩ := h.buffer_of_object hs
  let opened : Writer :=
    { w with buffer := .empty .collapse, scopes := .items m false w.buffer.mode :: w.scopes }
  have started : (Write.startContent false).run w = .ok () opened := by
    have current : w.currentType? = some type := by simp [Writer.currentType?, hs]
    have pending : w.buffer.isPending = false := by simp [Buffer.isPending, text]
    simp [Write.startContent, Write.contentProperty, Write.startItems, Write.lift, Write.resolve, current, hm, hs,
      pending, opened, SpaceMode.ofPreserve]
  have written := replayWholeNodes_blank fragment blank (w := opened) rfl rfl
  have ended : Write.endItems.run opened =
      .ok () { w with buffer := (Buffer.empty .collapse).resume w.buffer.mode } := rfl
  refine ⟨{ w with buffer := (Buffer.empty .collapse).resume w.buffer.mode }, ?_, ⟨rfl, rfl, rfl, ?_, rfl, rfl⟩⟩
  · rw [Write.run_bind_ok started, Write.run_bind_ok written, ended]
  · exact ⟨text.symm, rfl, due.symm, fun collapses => (past collapses).symm⟩

/-! ## Side by side -/

/-- An operation after which a writer that was reached is still one. -/
def Reaches {α : Type} (m : Write α) : Prop :=
  ∀ w, IsReached w → (∀ a w', m.run w = .ok a w' → IsReached w') ∧ ∀ e w', m.run w = .error e w' → IsReached w'

theorem reaches_step (s : Step) : Reaches s.write := by
  rintro _ ⟨mode, theme, script, rfl⟩
  refine ⟨fun a w' run => ⟨mode, theme, script ++ [s], ?_⟩, fun e w' run => ⟨mode, theme, script ++ [s], ?_⟩⟩
  · rw [Writer.run_append, Writer.run_cons, Writer.step, run]
    rfl
  · rw [Writer.run_append, Writer.run_cons, Writer.step, run]
    rfl

theorem Reaches.andThen {m n : Write Unit} (hm : Reaches m) (hn : Reaches n) : Reaches (do m; n) := by
  intro w h
  cases first : m.run w with
  | ok a v =>
    rw [Write.run_bind_ok first]
    exact hn v ((hm w h).1 a v first)
  | error e v =>
    rw [Write.run_bind_error first]
    refine ⟨fun _ _ run => (by cases run), fun _ _ run => ?_⟩
    cases run
    exact (hm w h).2 e _ first

theorem reaches_pure : Reaches (pure () : Write Unit) :=
  fun _ h => ⟨fun _ _ run => (by cases run; exact h), fun _ _ run => (by cases run)⟩

theorem reaches_throw (e : RenderError) : Reaches (throw e : Write Unit) :=
  fun _ h => ⟨fun _ _ run => (by cases run), fun _ _ run => (by cases run; exact h)⟩

/-- What a plan writes is reached. -/
theorem Plan.reaches (p : Plan) : Reaches p.write := by
  have performed (steps : List Step) : Reaches (perform steps) := by
    induction steps with
    | nil => exact reaches_pure
    | cons s steps ih => exact (reaches_step s).andThen ih
  refine (performed p.steps).andThen ?_
  split
  · exact reaches_pure
  · exact reaches_throw _

/-- Two operations that have the same outcome on writers that are alike, if the second starts at a writer that is
reached and whose scopes have a property. -/
def Matches (P : List Scope → Prop) (m n : Write Unit) : Prop :=
  ∀ w v, w.Like v → IsReached v → P v.scopes → Same (m.run w) (n.run v)

variable {P Q : List Scope → Prop} {m n m' n' : Write Unit}

theorem matches_of_respects (h : Respects m) : Matches P m m := fun w v like _ _ => h w v like

theorem Matches.andThen {R : List Scope → List Scope → Prop} (h : Matches P m n) (reaches : Reaches n)
    (hs : Scoped n R) (h' : Matches Q m' n') (hR : ∀ s t, P s → R s t → Q t) :
    Matches P (do m; m') (do n; n') := by
  intro w v like reached hP
  have same := h w v like reached hP
  generalize first : m.run w = rw at same
  generalize second : n.run v = rv at same
  cases same with
  | ok a like' =>
    rw [Write.run_bind_ok first, Write.run_bind_ok second]
    exact h' _ _ like' ((reaches v reached).1 _ _ second) (hR _ _ hP (hs v _ _ second))
  | error e like' =>
    rw [Write.run_bind_error first, Write.run_bind_error second]
    exact .error e like'

/-- Operations one after the other, whatever the scopes are. -/
theorem Matches.seq (h : Matches (fun _ => True) m n) (reaches : Reaches n) (h' : Matches (fun _ => True) m' n') :
    Matches P (do m; m') (do n; n') :=
  Matches.andThen (R := fun _ _ => True) (fun w v like reached _ => h w v like reached trivial) reaches
    (fun _ _ _ _ => trivial) h' fun _ _ _ _ => trivial

/-- Content, if it is wanted. -/
def withContent (wanted : Bool) (body : Write Unit) : Write Unit :=
  if wanted then do
    Write.startContent false
    body
    Write.endItems
  else pure ()

section Elements

variable {fragment : String} {space : Option String} {name : String} {attributes : List Xml.Attribute}
  {children : List Xml.Node}

theorem replayNode_element {type : ElementType} (undotted : ¬ name.toList.contains '.' = true)
    (ht : getTypeIn (space.getD presentationNamespace) name = .ok type) :
    replayNode fragment (.element space name attributes children) = (do
      Write.startObjectOf type
      replayAttributes fragment attributes
      withContent (children.any isSubstantial) (replayNodes fragment children)
      Write.endObject) := by
  rw [replayNode, if_neg undotted, ht]
  simp only [Write.lift, pure_bind]
  generalize children.any isSubstantial = filled
  cases filled <;> simp [withContent]

theorem replayWholeNode_element {type : ElementType} (undotted : ¬ name.toList.contains '.' = true)
    (ht : getTypeIn (space.getD presentationNamespace) name = .ok type) :
    replayWholeNode fragment (.element space name attributes children) = (do
      Write.startObjectOf type
      replayAttributes fragment attributes
      withContent (children.any isSubstantial || (getContent type).isOk) (replayWholeNodes fragment children)
      Write.endObject) := by
  rw [replayWholeNode, if_neg undotted, ht]
  simp only [Write.lift, pure_bind]
  generalize (children.any isSubstantial || (getContent type).isOk) = filled
  cases filled <;> simp [withContent]

/-- Content is matched also where it is left out. -/
theorem matches_withContent (type : ElementType) (inner : Matches (fun _ => True) (replayNodes fragment children)
      (replayWholeNodes fragment children)) (reaches : Reaches (replayWholeNodes fragment children)) :
    Matches (fun s => ∃ rest, s = .object type :: rest)
      (withContent (children.any isSubstantial) (replayNodes fragment children))
      (withContent (children.any isSubstantial || (getContent type).isOk) (replayWholeNodes fragment children)) := by
  have start : Respects (Write.startContent false) := respects_step (.startContent false)
  cases filled : children.any isSubstantial with
  | true =>
    exact (matches_of_respects start).seq (reaches_step (.startContent false))
      (inner.seq reaches (matches_of_respects respects_endItems))
  | false =>
    cases hm : getContent type with
    | error e => exact matches_of_respects (respects_pure ())
    | ok member =>
      rintro w v like reached ⟨rest, hs⟩
      obtain ⟨v', written, like'⟩ := run_blankContent fragment filled reached hs hm
      have replayed : (withContent (false || (Except.ok member : Except RenderError Member).isOk)
          (replayWholeNodes fragment children)).run v = .ok () v' := written
      rw [replayed]
      exact .ok () (like.trans like')

end Elements

theorem reaches_replayAttributes (fragment : String) (attributes : List Xml.Attribute) :
    Reaches (replayAttributes fragment attributes) := by
  rw [replayAttributes_eq_write]
  exact Plan.reaches _

theorem respects_replayAttributes (fragment : String) (attributes : List Xml.Attribute) :
    Respects (replayAttributes fragment attributes) := by
  induction attributes with
  | nil => exact respects_pure ()
  | cons a rest ih =>
    rw [replayAttributes]
    cases a.space with
    | none => exact (respects_step (.member (.ofName a.name) (some (.text a.value)))).bind fun _ => ih
    | some space => exact respects_throw _

/-- Content of nodes that are reached. -/
theorem reaches_withContent (wanted : Bool) {body : Write Unit} (hb : Reaches body) :
    Reaches (withContent wanted body) := by
  cases wanted with
  | true => exact (reaches_step (.startContent false)).andThen (hb.andThen (reaches_step .endItems))
  | false => exact reaches_pure

mutual

theorem reaches_replayWholeNode (fragment : String) : ∀ node : Xml.Node, Reaches (replayWholeNode fragment node)
  | .text s => reaches_step (.text s)
  | .element space name attributes children => by
    have inner := reaches_replayWholeNodes fragment children
    by_cases dotted : name.toList.contains '.' = true
    · rw [replayWholeNode, if_pos dotted]
      exact reaches_throw _
    · cases ht : getTypeIn (space.getD presentationNamespace) name with
      | error e =>
        rw [replayWholeNode, if_neg dotted, ht]
        exact reaches_throw e
      | ok type =>
        rw [replayWholeNode_element dotted ht]
        exact (reaches_step (.startObjectOf type)).andThen ((reaches_replayAttributes fragment attributes).andThen
          ((reaches_withContent _ inner).andThen (reaches_step .endObject)))

theorem reaches_replayWholeNodes (fragment : String) :
    ∀ nodes : List Xml.Node, Reaches (replayWholeNodes fragment nodes)
  | [] => reaches_pure
  | n :: ns => (reaches_replayWholeNode fragment n).andThen (reaches_replayWholeNodes fragment ns)

end

mutual

theorem matches_replayWholeNode (fragment : String) : ∀ node : Xml.Node,
    Matches (fun _ => True) (replayNode fragment node) (replayWholeNode fragment node)
  | .text s => matches_of_respects (respects_gather .writeText s)
  | .element space name attributes children => by
    have inner := matches_replayWholeNodes fragment children
    have reaches := reaches_replayWholeNodes fragment children
    by_cases dotted : name.toList.contains '.' = true
    · rw [replayNode, replayWholeNode, if_pos dotted, if_pos dotted]
      exact matches_of_respects (respects_throw _)
    · cases ht : getTypeIn (space.getD presentationNamespace) name with
      | error e =>
        rw [replayNode, replayWholeNode, if_neg dotted, if_neg dotted, ht]
        exact matches_of_respects (respects_throw e)
      | ok type =>
        rw [replayNode_element dotted ht, replayWholeNode_element dotted ht]
        -- the object stays on top while its members are written, so its content has a place
        have members : Composed (.object type) (replayAttributes fragment attributes) :=
          composed_replayAttributes fragment attributes
        have content := (matches_withContent type inner reaches).andThen
          (reaches_withContent _ reaches) (R := fun _ _ => True) (fun _ _ _ _ => trivial)
          (matches_of_respects (P := fun _ => True) respects_endObject) fun _ _ _ _ => trivial
        have filled := (matches_of_respects (P := fun s => ∃ rest, s = .object type :: rest)
          (respects_replayAttributes fragment attributes)).andThen (reaches_replayAttributes fragment attributes)
          members.keepsScopes content fun s t hs settled => by
            obtain ⟨rest, rfl⟩ := hs
            exact ⟨rest, settled.eq_of_ne fun _ _ _ h => by cases h⟩
        refine (matches_of_respects (respects_startObjectOf type)).andThen (reaches_step (.startObjectOf type))
          (scoped_startObjectOf type) filled fun s t _ started => ?_
        obtain ⟨u, -, rfl⟩ := started
        exact ⟨u, rfl⟩

theorem matches_replayWholeNodes (fragment : String) : ∀ nodes : List Xml.Node,
    Matches (fun _ => True) (replayNodes fragment nodes) (replayWholeNodes fragment nodes)
  | [] => matches_of_respects (respects_pure ())
  | n :: ns => (matches_replayWholeNode fragment n).seq (reaches_replayWholeNode fragment n)
      (matches_replayWholeNodes fragment ns)

end

/-! ## Replayed fragments -/

/-- The nodes of a fragment. One without markup is a text with references. -/
def fragmentNodes? (fragment : String) : Option (List Xml.Node) :=
  if fragment.toList.contains '<' then Xml.parseFragment? fragmentScope fragment
  else (Xml.unescape? fragment).map fun text => [.text text]

/-- A fragment that has nodes is replayed as these. -/
theorem replayFragment_eq (fragment : String) :
    replayFragment fragment = match fragmentNodes? fragment with
      | some nodes => replayNodes fragment nodes
      | none => throw (.unsupportedFragment fragment .malformed) := by
  by_cases marked : fragment.toList.contains '<' = true
  · have nodes : fragmentNodes? fragment = Xml.parseFragment? fragmentScope fragment := if_pos marked
    rw [nodes]
    exact if_pos marked
  · have nodes : fragmentNodes? fragment = (Xml.unescape? fragment).map fun text => [.text text] := if_neg marked
    rw [nodes, replayFragment, if_neg marked]
    cases Xml.unescape? fragment with
    | none => rfl
    | some text => simp [replayNodes, replayNode]

/-- Whether writers have sent the same and have the same scopes, now and after every script. -/
def SendAlike (w v : Writer) : Prop :=
  ∀ script : List Step, (v.run script).sent = (w.run script).sent ∧ (v.run script).scopes = (w.run script).scopes

/-- Whether nobody can tell two outcomes apart. -/
def Indistinct : EStateM.Result RenderError Writer Unit → EStateM.Result RenderError Writer Unit → Prop
  | .ok _ w, .ok _ v => SendAlike w v
  | .error e w, .error f v => e = f ∧ SendAlike w v
  | _, _ => False

theorem sendAlike_of_like {w v : Writer} (h : w.Like v) : SendAlike w v :=
  fun script => ⟨(h.run script).sent, (h.run script).scopes⟩

theorem indistinct_of_same {r r' : EStateM.Result RenderError Writer Unit} (h : Same r r') : Indistinct r r' := by
  cases h with
  | ok a like => exact sendAlike_of_like like
  | error e like => exact ⟨rfl, sendAlike_of_like like⟩

/-- What becomes of a writer that replays nodes. -/
structure ReplaysFaithfully (fragment : String) (nodes : List Xml.Node) (w : Writer) : Prop where
  /-- Where it succeeds, the scopes are as before, but for a collection on top that may have been opened, and the steps
  of the nodes were performed. -/
  succeeds : ∀ w', (replayNodes fragment nodes).run w = .ok () w' →
    Settled w.scopes w'.scopes ∧ (nodesPlan fragment nodes).fault = none ∧
      (perform (nodesPlan fragment nodes).steps).run w = .ok () w' ∧ w' = w.run (nodesPlan fragment nodes).steps
  /-- Where it fails, the scopes are those before beneath what was added. -/
  fails : ∀ e w', (replayNodes fragment nodes).run w = .error e w' → Above w.scopes w'.scopes
  /-- Content that is all white space may as well be written. -/
  whole : Indistinct ((replayNodes fragment nodes).run w) ((replayWholeNodes fragment nodes).run w)

/-- **Replayed markup.** A fragment is replayed as its nodes, if it has any, and every script leaves a writer that
replays nodes faithfully. -/
theorem replay_faithful (target : Target) (theme : Style.Theme) (before : List Step) (fragment : String) :
    (replayFragment fragment = match fragmentNodes? fragment with
      | some nodes => replayNodes fragment nodes
      | none => throw (.unsupportedFragment fragment .malformed)) ∧
    ∀ nodes, ReplaysFaithfully fragment nodes ((target.writer theme).run before) := by
  refine ⟨replayFragment_eq fragment, fun nodes => ⟨fun w' run => ?_, fun e w' run => ?_, ?_⟩⟩
  · refine ⟨(composed_replayNodes fragment nodes).keepsScopes _ _ _ run, ?_⟩
    rw [replayNodes_eq_write] at run
    exact Plan.run_of_write run
  · exact (composed_replayNodes fragment nodes).failsAbove _ e w' run
  · exact indistinct_of_same
      (matches_replayWholeNodes fragment nodes _ _ (.refl _) ⟨target.mode, theme, before, rfl⟩ trivial)

end FlowDoc.Render
