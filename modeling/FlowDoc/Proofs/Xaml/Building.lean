import FlowDoc.Proofs.Xaml.Reception

/-!
# What a builder accepts

A builder may be called in any order, and after refusals too. Its stack holds objects and members by turns
(`Alternates`), and what it holds are the signals that it accepted (`Builder.Describes`), as far as a graph keeps them
(`Signal.kept`). So a refused call changes nothing, a call is accepted exactly if it goes on with a word of the grammar,
and the builder can finish exactly if the accepted signals are one, of which the graph is then the tree
(**`calls_faithful`**).
-/

namespace FlowDoc.Xaml

/-! ## The grammar -/

namespace Signal

/-- Whether a signal starts a member, as a collection or not. -/
def startsMember : Signal → Bool
  | .startMember _ | .startCollection _ => true
  | _ => false

/-- Whether a signal ends a member; either end may close either start. -/
def endsMember : Signal → Bool
  | .endMember | .endCollection => true
  | _ => false

/-- The namespace that a signal declares. -/
def decl? : Signal → Option NamespaceDecl
  | .namespaceDecl decl => some decl
  | _ => none

end Signal

namespace Builder

/-- The symbols of the grammar. -/
inductive Symbol
  | object
  | members
  | items

/-- **The words of a symbol.** -/
inductive Word : Symbol → List Signal → Prop
  | object (type : ElementType) {ms : List Signal} : Word .members ms →
      Word .object (.startObject type :: ms ++ [.endObject])
  | noMember : Word .members []
  | member {start stop : Signal} {is ms : List Signal} : start.startsMember = true → stop.endsMember = true →
      Word .items is → Word .members ms → Word .members (start :: is ++ stop :: ms)
  | noItem : Word .items []
  | value (v : Scalar) {is : List Signal} : Word .items is → Word .items (.value v :: is)
  | child {o is : List Signal} : Word .object o → Word .items is → Word .items (o ++ is)

/-- **Whole streams**: namespaces, then one object. -/
def IsStream (signals : List Signal) : Prop :=
  ∃ (decls : List NamespaceDecl) (o : List Signal), Word .object o ∧ signals = decls.map .namespaceDecl ++ o

/-- Make calls one after the other, whether or not they are refused: the builder after them, and what it accepted. -/
def calls (b : Builder) : List Signal → Builder × List Signal
  | [] => (b, [])
  | s :: ss =>
    match b.call s with
    | (b, .ok ()) => ((b.calls ss).1, s :: (b.calls ss).2)
    | (b, .error _) => b.calls ss

end Builder

/-! ## The signals of a graph -/

/-- A member without the form of its values and the vocabulary's word on whether it is a collection, which no graph
keeps. -/
def Member.bare (m : Member) : Member := { m with form := .object, collection := false }

/-- What a graph keeps of a signal: the member by owner, name and kind, and not which end closed it. -/
def Signal.kept : Signal → Signal
  | .startMember m => .startMember m.bare
  | .startCollection m => .startCollection m.bare
  | .endCollection => .endMember
  | s => s

/-- The start of a member node. -/
def MemberNode.start (m : MemberNode) : Signal :=
  memberStart ⟨m.owner, m.name, .object, m.kind, false⟩ m.collection

mutual

/-- The signals that an object is written with. -/
def Object.signals : Object → List Signal
  | .mk type members => .startObject type :: memberNodesSignals members ++ [.endObject]

def memberNodesSignals : List MemberNode → List Signal
  | [] => []
  | m :: ms => m.signals ++ memberNodesSignals ms

/-- Those of a member, which is written as a collection if it was started as one. -/
def MemberNode.signals : MemberNode → List Signal
  | .mk name owner kind isContent collection items =>
    (MemberNode.mk name owner kind isContent collection items).start :: nodesSignals items ++ [memberEnd collection]

def nodesSignals : List Node → List Signal
  | [] => []
  | n :: ns => n.signals ++ nodesSignals ns

def Node.signals : Node → List Signal
  | .object o => o.signals
  | .value v => [.value v]

end

/-- The signals that a graph is written with. -/
def Graph.signals (g : Graph) : List Signal := g.namespaces.map .namespaceDecl ++ g.root.signals

@[simp] theorem memberNodesSignals_append (ms ns : List MemberNode) :
    memberNodesSignals (ms ++ ns) = memberNodesSignals ms ++ memberNodesSignals ns := by
  induction ms with
  | nil => rfl
  | cons m ms ih => simp [memberNodesSignals, ih]

@[simp] theorem nodesSignals_append (ns ks : List Node) :
    nodesSignals (ns ++ ks) = nodesSignals ns ++ nodesSignals ks := by
  induction ns with
  | nil => rfl
  | cons n ns ih => simp [nodesSignals, ih]

/-! ## What a builder holds -/

namespace Builder

/-- Objects and members by turns, an object outermost. -/
inductive Alternates : List Frame → Prop
  | nil : Alternates []
  | root (o : Object) : Alternates [.object o]
  | object (o : Object) {m : MemberNode} {rest : List Frame} : Alternates (.member m :: rest) →
      Alternates (.object o :: .member m :: rest)
  | member (m : MemberNode) {o : Object} {rest : List Frame} : Alternates (.object o :: rest) →
      Alternates (.member m :: .object o :: rest)

/-- The signals that led to a frame from the one below it. -/
def frameSignals : Frame → List Signal
  | .object o => .startObject o.type :: memberNodesSignals o.members
  | .member m => m.start :: nodesSignals m.items

/-- The signals that led to a stack. -/
def stackSignals : List Frame → List Signal
  | [] => []
  | f :: rest => stackSignals rest ++ frameSignals f

@[simp] theorem frameSignals_start (type : ElementType) :
    frameSignals (.object (.mk type [])) = [.startObject type] := rfl

/-- One more member of an object that is open. -/
@[simp] theorem frameSignals_push_object (o : Object) (m : MemberNode) :
    frameSignals (.object (o.push m)) = frameSignals (.object o) ++ m.signals := by
  obtain ⟨type, members⟩ := o
  simp [frameSignals, Object.push, Object.type, Object.members, memberNodesSignals]

/-- One more item of a member that is open. -/
@[simp] theorem frameSignals_push_member (m : MemberNode) (n : Node) :
    frameSignals (.member (m.push n)) = frameSignals (.member m) ++ n.signals := by
  obtain ⟨name, owner, kind, isContent, collection, items⟩ := m
  simp [frameSignals, MemberNode.push, MemberNode.items, nodesSignals]
  rfl

theorem object_signals (o : Object) : o.signals = frameSignals (.object o) ++ [.endObject] := by
  obtain ⟨type, members⟩ := o
  rfl

theorem member_signals (m : MemberNode) : m.signals = frameSignals (.member m) ++ [memberEnd m.collection] := by
  obtain ⟨name, owner, kind, isContent, collection, items⟩ := m
  rfl

/-- That a builder is what the signals it accepted make of it. -/
structure Describes (b : Builder) (accepted : List Signal) : Prop where
  alternates : Alternates b.stack
  root_eq_none : b.stack ≠ [] → b.root = none
  kept : accepted.map Signal.kept = (b.namespaces.map Signal.namespaceDecl ++ b.root.toList.flatMap Object.signals ++
    stackSignals b.stack).map Signal.kept

theorem describes_start : Describes {} [] := ⟨.nil, fun _ => rfl, rfl⟩

variable {b : Builder} {accepted : List Signal}

/-! ### Calls -/

/-- That a call is accepted, and leads to what it should; or it is refused and changes nothing, and not because a frame
was closed into one of its own kind. -/
def IsSound (b : Builder) (accepted : List Signal) (s : Signal) (answer : Answer) : Prop :=
  (∃ b', answer = accept b' ∧ b'.Describes (accepted ++ [s])) ∨
    ∃ operation violation, answer = b.refuse operation violation ∧
      violation ≠ .objectClosedInObject ∧ violation ≠ .memberClosedOutsideObject

theorem isSound_refuse (s : Signal) (operation : Operation) {violation : Violation}
    (h : violation ≠ .objectClosedInObject ∧ violation ≠ .memberClosedOutsideObject) :
    IsSound b accepted s (b.refuse operation violation) := Or.inr ⟨operation, violation, rfl, h⟩

theorem Describes.declare (h : b.Describes accepted) (decl : NamespaceDecl) :
    IsSound b accepted (.namespaceDecl decl) (b.declare decl) := by
  rw [Builder.declare]
  split
  · exact isSound_refuse _ _ (by decide)
  · next early =>
    obtain ⟨root, stack⟩ : b.root = none ∧ b.stack = [] := by simpa using early
    refine Or.inl ⟨_, rfl, h.alternates, fun _ => root, ?_⟩
    simp [h.kept, root, stack, stackSignals]

theorem Describes.startObject (h : b.Describes accepted) (type : ElementType) :
    IsSound b accepted (.startObject type) (b.startObject type) := by
  obtain ⟨alternates, root_eq_none, kept⟩ := h
  rw [Builder.startObject]
  split
  · exact isSound_refuse _ _ (by decide)
  · next m rest hs =>
    have root : b.root = none := root_eq_none (by simp [hs])
    rw [hs] at alternates kept ⊢
    refine Or.inl ⟨_, rfl, .object _ alternates, fun _ => root, ?_⟩
    simp [kept, stackSignals]
  · next hs =>
    split
    · exact isSound_refuse _ _ (by decide)
    · next hr =>
      have root : b.root = none := by simpa using hr
      refine Or.inl ⟨_, rfl, .root _, fun _ => root, ?_⟩
      simp [kept, hs, root, stackSignals]

/-- An object closes into the member below it, or becomes the root: nothing else is below it. -/
theorem Describes.endObject (h : b.Describes accepted) : IsSound b accepted .endObject b.endObject := by
  obtain ⟨alternates, root_eq_none, kept⟩ := h
  rw [Builder.endObject]
  split
  · next o below hs =>
    have root : b.root = none := root_eq_none (by simp [hs])
    rw [hs] at alternates kept
    cases alternates with
    | root =>
      refine Or.inl ⟨_, rfl, .nil, by simp, ?_⟩
      simp [kept, root, stackSignals, object_signals]
    | object _ inner =>
      refine Or.inl ⟨_, rfl, ?_, fun _ => root, ?_⟩
      · cases inner with
        | member _ outer => exact .member _ outer
      · simp [kept, stackSignals, Node.signals, object_signals]
  · exact isSound_refuse _ _ (by decide)
  · exact isSound_refuse _ _ (by decide)

theorem Describes.startMember (h : b.Describes accepted) (member : Member) (collection : Bool) :
    IsSound b accepted (memberStart member collection) (b.startMember member collection) := by
  obtain ⟨alternates, root_eq_none, kept⟩ := h
  rw [Builder.startMember]
  split
  · next o rest hs =>
    have root : b.root = none := root_eq_none (by simp [hs])
    rw [hs] at alternates kept ⊢
    have started : ∀ isContent, (memberStart member collection).kept =
        (MemberNode.mk member.name member.owner member.kind isContent collection []).start.kept := by
      cases collection <;> exact fun _ => rfl
    refine Or.inl ⟨_, rfl, .member _ alternates, fun _ => root, ?_⟩
    simp [kept, stackSignals, frameSignals, MemberNode.items, nodesSignals, started (isContentOf member o.type)]
  · exact isSound_refuse _ _ (by decide)

/-- A member closes into the object below it, whichever end it is closed with. -/
theorem Describes.endMember (h : b.Describes accepted) {stop : Signal} (hstop : stop.endsMember = true) :
    IsSound b accepted stop b.endMember := by
  obtain ⟨alternates, root_eq_none, kept⟩ := h
  rw [Builder.endMember]
  split
  · next m below hs =>
    have root : b.root = none := root_eq_none (by simp [hs])
    rw [hs] at alternates kept
    cases alternates with
    | member _ inner =>
      have closed : stop.kept = (memberEnd m.collection).kept := by
        cases stop <;> cases m.collection <;> first | rfl | cases hstop
      refine Or.inl ⟨_, rfl, ?_, fun _ => root, ?_⟩
      · cases inner with
        | root => exact .root _
        | object _ outer => exact .object _ outer
      · simp [kept, closed, stackSignals, member_signals]
  · exact isSound_refuse _ _ (by decide)
  · exact isSound_refuse _ _ (by decide)

theorem Describes.addValue (h : b.Describes accepted) (v : Scalar) :
    IsSound b accepted (.value v) (b.addValue v) := by
  obtain ⟨alternates, root_eq_none, kept⟩ := h
  rw [Builder.addValue]
  split
  · next m rest hs =>
    have root : b.root = none := root_eq_none (by simp [hs])
    rw [hs] at alternates kept
    refine Or.inl ⟨_, rfl, ?_, fun _ => root, ?_⟩
    · cases alternates with
      | member _ outer => exact .member _ outer
    · simp [kept, stackSignals, Node.signals]
  · exact isSound_refuse _ _ (by decide)

/-- **One call.** -/
theorem Describes.call (h : b.Describes accepted) : ∀ s, IsSound b accepted s (b.call s)
  | .namespaceDecl decl => h.declare decl
  | .startObject type => h.startObject type
  | .endObject => h.endObject
  | .startMember member => h.startMember member false
  | .endMember => h.endMember rfl
  | .startCollection member => h.startMember member true
  | .endCollection => h.endMember rfl
  | .value v => h.addValue v

theorem receive_of_call {s : Signal} {b' : Builder} (taken : b.call s = accept b') : b.receive s = .ok b' := by
  simp [receive, taken, accept]

theorem receive_eq_ok {s : Signal} {b' : Builder} (h : b.receive s = .ok b') : b.call s = accept b' := by
  rw [receive] at h
  split at h
  · rename_i answer
    cases h
    exact answer
  · cases h

/-- A call that was accepted. -/
theorem Describes.of_call (h : b.Describes accepted) {s : Signal} {b' : Builder} (taken : b.call s = accept b') :
    b'.Describes (accepted ++ [s]) := by
  rcases h.call s with ⟨_, answer, described⟩ | ⟨operation, violation, answer, -⟩
  · cases taken.symm.trans answer
    exact described
  · cases taken.symm.trans answer

/-- **Many calls**: the builder after them is what the accepted ones made of it, and they alone lead there too. -/
theorem Describes.calls (h : b.Describes accepted) (signals : List Signal) :
    (b.calls signals).1.Describes (accepted ++ (b.calls signals).2) ∧
      b.receiveAll (b.calls signals).2 = .ok (b.calls signals).1 := by
  induction signals generalizing b accepted with
  | nil => exact ⟨by simpa [Builder.calls] using h, rfl⟩
  | cons s ss ih =>
    rcases h.call s with ⟨b', answer, h'⟩ | ⟨operation, violation, answer, -⟩
    · obtain ⟨described, received⟩ := ih h'
      have taken := receive_of_call answer
      simp only [Builder.calls, answer, accept]
      rw [receiveAll_cons_of taken]
      exact ⟨by simpa using described, received⟩
    · simp only [Builder.calls, answer, refuse]
      exact ih h

/-- Calls that are all accepted. -/
theorem Describes.receiveAll (h : b.Describes accepted) {signals : List Signal} {b' : Builder}
    (received : b.receiveAll signals = .ok b') : b'.Describes (accepted ++ signals) := by
  induction signals generalizing b accepted with
  | nil => cases received; simpa using h
  | cons s ss ih =>
    rw [receiveAll_cons] at received
    rcases h.call s with ⟨b₁, answer, h₁⟩ | ⟨operation, violation, answer, -⟩
    · rw [receive_of_call answer] at received
      simpa using ih h₁ received
    · have lost : b.receive s = .error (.protocol operation violation) := by simp [receive, answer, refuse]
      rw [lost] at received
      cases received

/-! ### Ends -/

/-- The innermost frame can be closed. -/
theorem Describes.exists_close (h : b.Describes accepted) {f : Frame} {below : List Frame} (top : b.stack = f :: below) :
    ∃ s b', b.call s = accept b' ∧ b'.stack.length = below.length := by
  have alternates := h.alternates
  rw [top] at alternates
  cases alternates with
  | root o =>
    refine ⟨.endObject, { b with stack := [], root := some o }, ?_, rfl⟩
    simp [Builder.call, Builder.endObject, top]
  | @object o m rest _ =>
    refine ⟨.endObject, { b with stack := .member (m.push (.object o)) :: rest }, ?_, rfl⟩
    simp [Builder.call, Builder.endObject, top]
  | @member m o rest _ =>
    refine ⟨.endMember, { b with stack := .object (o.push m) :: rest }, ?_, rfl⟩
    simp [Builder.call, Builder.endMember, top]

/-- **Whatever was accepted can be brought to an end.** Frames are closed from the innermost one outwards; if nothing was
started, an object is. -/
theorem Describes.exists_finish (h : b.Describes accepted) :
    ∃ rest b' g, b.receiveAll rest = .ok b' ∧ b'.finish = .ok g := by
  induction depth : b.stack.length generalizing b accepted with
  | zero =>
    obtain ⟨namespaces, stack, root⟩ := b
    obtain rfl : stack = [] := List.eq_nil_of_length_eq_zero depth
    cases root with
    | none => exact ⟨[.startObject .paragraph, .endObject], _, _, rfl, rfl⟩
    | some root => exact ⟨[], _, _, rfl, rfl⟩
  | succ n ih =>
    obtain ⟨f, below, top⟩ := List.exists_cons_of_length_eq_add_one depth
    obtain ⟨s, b', taken, shorter⟩ := h.exists_close top
    rw [top, List.length_cons, Nat.succ.injEq] at depth
    obtain ⟨rest, b'', g, received, finished⟩ := ih (h.of_call taken) (shorter.trans depth)
    exact ⟨s :: rest, b'', g, by rw [receiveAll_cons_of (receive_of_call taken), received], finished⟩

/-! ## Words and trees -/

/-- What a builder does depends on what a graph keeps of a signal alone. -/
theorem call_kept (b : Builder) (s : Signal) : b.call s.kept = b.call s := by cases s <;> rfl

theorem receiveAll_kept (b : Builder) (signals : List Signal) :
    b.receiveAll (signals.map Signal.kept) = b.receiveAll signals := by
  induction signals generalizing b with
  | nil => rfl
  | cons s ss ih =>
    have one : b.receive s.kept = b.receive s := by simp only [receive, call_kept]
    rw [List.map_cons, receiveAll_cons, receiveAll_cons, one]
    exact congrArg _ (funext ih)

theorem startsMember_start (m : MemberNode) : m.start.startsMember = true := by
  obtain ⟨_, _, _, _, collection, _⟩ := m
  cases collection <;> rfl

mutual

/-- The signals of a tree are a word. -/
theorem word_object : ∀ o : Object, Word .object o.signals
  | .mk type members => by
    rw [Object.signals]
    exact .object type (word_members members)

theorem word_members : ∀ ms : List MemberNode, Word .members (memberNodesSignals ms)
  | [] => .noMember
  | .mk name owner kind isContent collection items :: ms => by
    rw [memberNodesSignals, MemberNode.signals, List.append_assoc]
    exact .member (startsMember_start _) (by cases collection <;> rfl) (word_items items) (word_members ms)

theorem word_items : ∀ ns : List Node, Word .items (nodesSignals ns)
  | [] => .noItem
  | .object o :: ns => by
    rw [nodesSignals, Node.signals]
    exact .child (word_object o) (word_items ns)
  | .value v :: ns => by
    rw [nodesSignals, Node.signals]
    exact .value v (word_items ns)

end

theorem kept_eq_startObject {s : Signal} {type : ElementType} (h : s.kept = .startObject type) :
    s = .startObject type := by cases s <;> simp_all [Signal.kept]

theorem kept_eq_endObject {s : Signal} (h : s.kept = .endObject) : s = .endObject := by
  cases s <;> simp_all [Signal.kept]

theorem kept_eq_namespaceDecl {s : Signal} {decl : NamespaceDecl} (h : s.kept = .namespaceDecl decl) :
    s = .namespaceDecl decl := by cases s <;> simp_all [Signal.kept]

theorem kept_eq_value {s : Signal} {v : Scalar} (h : s.kept = .value v) : s = .value v := by
  cases s <;> simp_all [Signal.kept]

theorem startsMember_of_kept {s t : Signal} (h : s.kept = t.kept) (ht : t.startsMember = true) :
    s.startsMember = true := by cases s <;> cases t <;> simp_all [Signal.kept, Signal.startsMember]

theorem endsMember_of_kept {s t : Signal} (h : s.kept = t.kept) (ht : t.endsMember = true) :
    s.endsMember = true := by cases s <;> cases t <;> simp_all [Signal.kept, Signal.endsMember]

/-- Whether signals are a word depends on what a graph keeps of them alone. -/
theorem Word.of_kept {symbol : Symbol} {w : List Signal} (h : Word symbol w) :
    ∀ {v : List Signal}, v.map Signal.kept = w.map Signal.kept → Word symbol v := by
  induction h with
  | object type _ ih =>
    intro v hv
    rw [List.cons_append, List.map_cons, List.map_append] at hv
    obtain ⟨s, _, rfl, hs, hv⟩ := List.map_eq_cons_iff.mp hv
    obtain ⟨ms, _, rfl, hms, hv⟩ := List.map_eq_append_iff.mp hv
    obtain ⟨e, _, rfl, he, hv⟩ := List.map_eq_cons_iff.mp hv
    obtain rfl := List.map_eq_nil_iff.mp hv
    obtain rfl := kept_eq_startObject hs
    obtain rfl := kept_eq_endObject he
    exact .object type (ih hms)
  | noMember =>
    intro v hv
    obtain rfl := List.map_eq_nil_iff.mp hv
    exact .noMember
  | member hstart hstop _ _ ihi ihm =>
    intro v hv
    rw [List.cons_append, List.map_cons, List.map_append, List.map_cons] at hv
    obtain ⟨start, _, rfl, hs, hv⟩ := List.map_eq_cons_iff.mp hv
    obtain ⟨is, _, rfl, his, hv⟩ := List.map_eq_append_iff.mp hv
    obtain ⟨stop, ms, rfl, he, hms⟩ := List.map_eq_cons_iff.mp hv
    exact .member (startsMember_of_kept hs hstart) (endsMember_of_kept he hstop) (ihi his) (ihm hms)
  | noItem =>
    intro v hv
    obtain rfl := List.map_eq_nil_iff.mp hv
    exact .noItem
  | value x _ ih =>
    intro v hv
    rw [List.map_cons] at hv
    obtain ⟨s, is, rfl, hs, his⟩ := List.map_eq_cons_iff.mp hv
    obtain rfl := kept_eq_value hs
    exact .value x (ih his)
  | child _ _ iho ihi =>
    intro v hv
    rw [List.map_append] at hv
    obtain ⟨o, is, rfl, ho, his⟩ := List.map_eq_append_iff.mp hv
    exact .child (iho ho) (ihi his)

/-- Whether signals are a whole stream, too. -/
theorem IsStream.of_kept {v w : List Signal} (h : IsStream w) (hv : v.map Signal.kept = w.map Signal.kept) :
    IsStream v := by
  obtain ⟨decls, o, word, rfl⟩ := h
  rw [List.map_append] at hv
  obtain ⟨ns, o', rfl, hns, ho⟩ := List.map_eq_append_iff.mp hv
  refine ⟨decls, o', word.of_kept ho, congrArg (· ++ o') ?_⟩
  induction decls generalizing ns with
  | nil => exact List.map_eq_nil_iff.mp hns
  | cons d ds ih =>
    rw [List.map_cons, List.map_cons] at hns
    obtain ⟨s, ss, rfl, hs, hss⟩ := List.map_eq_cons_iff.mp hns
    rw [kept_eq_namespaceDecl hs, ih ss (by simp [hss, ho]) hss, List.map_cons]

/-- What a word says, up to what no graph keeps: a phrase. -/
def Says : Symbol → List Signal → Prop
  | .object, w => ∃ o : ObjectPhrase, o.signals.map Signal.kept = w.map Signal.kept
  | .members, w => ∃ ms : List MemberPhrase, (membersSignals ms).map Signal.kept = w.map Signal.kept
  | .items, w => ∃ is : List ItemPhrase, (itemsSignals is).map Signal.kept = w.map Signal.kept

/-- The start of a member says of which member, and whether as a collection. -/
theorem exists_memberStart {s : Signal} (h : s.startsMember = true) :
    ∃ member collection, s = memberStart member collection := by
  cases s with
  | startMember member => exact ⟨member, false, rfl⟩
  | startCollection member => exact ⟨member, true, rfl⟩
  | _ => cases h

/-- All ends of members are the same to a graph. -/
theorem kept_of_endsMember {s : Signal} (h : s.endsMember = true) : s.kept = .endMember := by
  cases s <;> first | rfl | cases h

theorem kept_memberEnd (collection : Bool) : (memberEnd collection).kept = .endMember := by
  cases collection <;> rfl

/-- **Every word says something.** -/
theorem Word.says {symbol : Symbol} {w : List Signal} (h : Word symbol w) : Says symbol w := by
  induction h with
  | object type _ ih =>
    obtain ⟨ms, hms⟩ := ih
    exact ⟨.mk type ms, by simp [ObjectPhrase.signals, hms]⟩
  | noMember => exact ⟨[], rfl⟩
  | member hstart hstop _ _ ihi ihm =>
    obtain ⟨is, his⟩ := ihi
    obtain ⟨ms, hms⟩ := ihm
    obtain ⟨member, collection, rfl⟩ := exists_memberStart hstart
    exact ⟨.mk member collection is :: ms,
      by simp [membersSignals, MemberPhrase.signals, his, hms, kept_memberEnd, kept_of_endsMember hstop]⟩
  | noItem => exact ⟨[], rfl⟩
  | value v _ ih =>
    obtain ⟨is, his⟩ := ih
    exact ⟨.value v :: is, by simp [itemsSignals, ItemPhrase.signals, his]⟩
  | child _ _ iho ihi =>
    obtain ⟨o, ho⟩ := iho
    obtain ⟨is, his⟩ := ihi
    exact ⟨.object o :: is, by simp [itemsSignals, ItemPhrase.signals, ho, his]⟩

/-- A whole stream leaves a builder that can finish. -/
theorem IsStream.receiveAll {w : List Signal} (h : IsStream w) :
    ∃ (decls : List NamespaceDecl) (root : Object), Builder.receiveAll {} w = .ok { namespaces := decls, root } := by
  obtain ⟨decls, o, word, rfl⟩ := h
  obtain ⟨phrase, said⟩ := word.says
  refine ⟨decls, phrase.object, ?_⟩
  rw [receiveAll_append_of (receiveAll_decls decls {} rfl rfl), ← receiveAll_kept, ← said, receiveAll_kept,
    receiveAll_root phrase _ rfl rfl]
  rfl

/-! ## The graph that was built -/

/-- A builder that may finish, which is one with nothing open and a root. -/
theorem finish_eq_ok {g : Graph} (h : b.finish = .ok g) :
    b.stack = [] ∧ b.root = some g.root ∧ b.namespaces = g.namespaces := by
  obtain ⟨namespaces, stack, root⟩ := b
  cases stack with
  | cons => cases h
  | nil =>
    cases root with
    | none => cases h
    | some root => cases h; exact ⟨rfl, rfl, rfl⟩

/-- The signals of the graph that a builder finishes with are those that it accepted. -/
theorem Describes.signals (h : b.Describes accepted) {g : Graph} (finished : b.finish = .ok g) :
    g.signals.map Signal.kept = accepted.map Signal.kept := by
  obtain ⟨stack, root, namespaces⟩ := finish_eq_ok finished
  rw [h.kept, stack, root, namespaces]
  simp [Graph.signals, stackSignals]

/-- The signals of the graph that a stream describes are those of the stream. -/
theorem signals_of_ofSignals {signals : List Signal} {g : Graph} (built : Graph.ofSignals signals = .ok g) :
    g.signals.map Signal.kept = signals.map Signal.kept := by
  rw [Graph.ofSignals] at built
  cases received : Builder.receiveAll {} signals with
  | error e => rw [received] at built; cases built
  | ok b =>
    rw [received] at built
    exact (describes_start.receiveAll received).signals built

/-- The signals of a graph are a whole stream. -/
theorem isStream_signals (g : Graph) : IsStream g.signals := ⟨g.namespaces, g.root.signals, word_object _, rfl⟩

/-- No start or end of a member declares a namespace. -/
theorem decl?_of_startsMember {s : Signal} (h : s.startsMember = true) : s.decl? = none := by
  cases s <;> first | rfl | cases h

theorem decl?_of_endsMember {s : Signal} (h : s.endsMember = true) : s.decl? = none := by
  cases s <;> first | rfl | cases h

/-- Nothing in a word declares a namespace. -/
theorem Word.decl?_eq_none {symbol : Symbol} {w : List Signal} (h : Word symbol w) : ∀ s ∈ w, s.decl? = none := by
  induction h with
  | object type _ ih => simpa [or_imp, forall_and, Signal.decl?] using ih
  | noMember => simp
  | member hstart hstop _ _ ihi ihm =>
    simpa [or_imp, forall_and, decl?_of_startsMember hstart, decl?_of_endsMember hstop] using ⟨ihi, ihm⟩
  | noItem => simp
  | value v _ ih => simpa [Signal.decl?] using ih
  | child _ _ iho ihi => simpa [or_imp, forall_and] using ⟨iho, ihi⟩

/-- The namespaces of a graph are those that its signals declare. -/
theorem namespaces_eq (g : Graph) : g.signals.filterMap Signal.decl? = g.namespaces := by
  have inside : g.root.signals.filterMap Signal.decl? = [] :=
    List.filterMap_eq_nil_iff.mpr (word_object g.root).decl?_eq_none
  have ahead : Signal.decl? ∘ Signal.namespaceDecl = some := rfl
  rw [Graph.signals, List.filterMap_append, inside, List.filterMap_map, ahead, List.filterMap_some, List.append_nil]

/-- Which namespaces are declared depends on what a graph keeps alone. -/
theorem filterMap_decl?_kept (signals : List Signal) :
    (signals.map Signal.kept).filterMap Signal.decl? = signals.filterMap Signal.decl? := by
  have one : Signal.decl? ∘ Signal.kept = Signal.decl? := funext fun s => by cases s <;> rfl
  rw [List.filterMap_map, one]

/-- **That a builder is faithful** to the signals that it accepted. -/
structure IsFaithful (b : Builder) (accepted : List Signal) : Prop where
  /-- A call is accepted exactly if it goes on with a whole stream. -/
  accepts : ∀ {s : Signal}, (∃ b', b.call s = (b', .ok ())) ↔ ∃ rest, IsStream (accepted ++ s :: rest)
  /-- A refused call leaves the builder as it was. -/
  unchanged : ∀ {s : Signal} {b' : Builder} {e : RenderError}, b.call s = (b', .error e) → b' = b
  /-- No call is refused because a frame would be closed into one of its own kind. -/
  closes : ∀ {s : Signal} {b' : Builder} {operation : Operation} {violation : Violation},
    b.call s = (b', .error (.protocol operation violation)) →
      violation ≠ .objectClosedInObject ∧ violation ≠ .memberClosedOutsideObject
  /-- The builder can finish exactly if the accepted signals are a whole stream. -/
  finishes : (∃ g, b.finish = .ok g) ↔ IsStream accepted
  /-- The graph has the namespaces that were declared. -/
  namespaces : ∀ {g : Graph}, b.finish = .ok g → g.namespaces = accepted.filterMap Signal.decl?
  /-- The graph is written with the accepted signals. -/
  signals : ∀ {g : Graph}, b.finish = .ok g → g.signals.map Signal.kept = accepted.map Signal.kept

/-- The signals that lead to a builder that can finish are a whole stream. -/
theorem Describes.isStream (h : b.Describes accepted) {g : Graph} (finished : b.finish = .ok g) : IsStream accepted :=
  (isStream_signals g).of_kept (h.signals finished).symm

/-- A call is accepted exactly if it goes on with a whole stream. -/
theorem Describes.accepts (h : b.Describes accepted) (received : Builder.receiveAll {} accepted = .ok b) (s : Signal) :
    (∃ b', b.call s = (b', .ok ())) ↔ ∃ rest, IsStream (accepted ++ s :: rest) := by
  constructor
  · rintro ⟨b', taken⟩
    have h' := h.of_call taken
    obtain ⟨rest, b'', g, more, finished⟩ := h'.exists_finish
    refine ⟨rest, ?_⟩
    have whole := (h'.receiveAll more).isStream finished
    rwa [List.append_assoc, List.singleton_append] at whole
  · rintro ⟨rest, stream⟩
    obtain ⟨namespaces, root, whole⟩ := stream.receiveAll
    rw [receiveAll_append_of received, receiveAll_cons] at whole
    cases taken : b.receive s with
    | error e =>
      rw [taken] at whole
      cases whole
    | ok b' => exact ⟨b', receive_eq_ok taken⟩

/-- A builder that accepted nothing but what leads to it is faithful. -/
theorem Describes.isFaithful (h : b.Describes accepted) (received : Builder.receiveAll {} accepted = .ok b) :
    b.IsFaithful accepted where
  accepts {s} := h.accepts received s
  unchanged {s b' e} refused := by
    rcases h.call s with ⟨_, answer, -⟩ | ⟨operation, violation, answer, -⟩
    · cases answer.symm.trans refused
    · exact (congrArg Prod.fst (answer.symm.trans refused)).symm
  closes {s b' operation violation} refused := by
    rcases h.call s with ⟨_, answer, -⟩ | ⟨_, _, answer, fits⟩
    · cases answer.symm.trans refused
    · cases answer.symm.trans refused
      exact fits
  finishes := by
    constructor
    · rintro ⟨g, finished⟩
      exact h.isStream finished
    · intro stream
      obtain ⟨namespaces, root, whole⟩ := stream.receiveAll
      cases received.symm.trans whole
      exact ⟨⟨namespaces, root⟩, rfl⟩
  namespaces {g} finished := by
    rw [← namespaces_eq, ← filterMap_decl?_kept, h.signals finished, filterMap_decl?_kept]
  signals finished := h.signals finished

/-- Calls none of which is refused are all accepted. -/
theorem calls_of_receiveAll {signals : List Signal} {b' : Builder} (h : b.receiveAll signals = .ok b') :
    b.calls signals = (b', signals) := by
  induction signals generalizing b with
  | nil =>
    cases h
    rfl
  | cons s ss ih =>
    rw [receiveAll_cons] at h
    cases taken : b.receive s with
    | error e =>
      rw [taken] at h
      cases h
    | ok b₁ =>
      rw [taken] at h
      simp only [Builder.calls, receive_eq_ok taken, accept, ih h]

/-- **A builder accepts its language and keeps what it accepted**, whatever calls are made: after all of them it accepts
just the calls that go on with a whole stream, and the calls of a whole stream are accepted and leave a graph. -/
theorem calls_faithful (signals : List Signal) :
    (calls {} signals).1.IsFaithful (calls {} signals).2 ∧
      (IsStream signals → (calls {} signals).2 = signals ∧ ∃ g, (calls {} signals).1.finish = .ok g) := by
  obtain ⟨described, received⟩ := describes_start.calls signals
  refine ⟨described.isFaithful received, fun stream => ?_⟩
  obtain ⟨namespaces, root, whole⟩ := stream.receiveAll
  rw [calls_of_receiveAll whole]
  exact ⟨rfl, ⟨namespaces, root⟩, rfl⟩

/-- A run with a text, under a namespace. -/
def runStream : List Signal :=
  [.namespaceDecl ⟨"", "u"⟩, .startObject .run, .startMember runText, .value (.text "a"), .endMember, .endObject]

/-- The calls are accepted and leave the tree of the run. -/
theorem calls_faithful_run :
    IsStream runStream ∧ (calls {} runStream).2 = runStream ∧ ∃ g, (calls {} runStream).1.finish = .ok g ∧
      g = ⟨[⟨"", "u"⟩], .mk .run [.mk "Text" "Run" .property true false [.value (.text "a")]]⟩ ∧
      g.signals.map Signal.kept = runStream.map Signal.kept := by
  have stream : IsStream runStream :=
    ⟨[⟨"", "u"⟩], _, .object .run (.member rfl rfl (.value _ .noItem) .noMember), rfl⟩
  obtain ⟨faithful, whole⟩ := calls_faithful runStream
  obtain ⟨accepted, g, finished⟩ := whole stream
  rw [accepted] at faithful
  refine ⟨stream, accepted, g, finished, ?_, faithful.signals finished⟩
  cases finished
  rfl

end Builder

end FlowDoc.Xaml
