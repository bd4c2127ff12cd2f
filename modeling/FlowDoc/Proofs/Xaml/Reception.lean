import FlowDoc.Proofs.Xaml.Phrase
import FlowDoc.Xaml.Builder
import FlowDoc.Xaml.Recorder

/-!
# Receiving phrases

What the receivers of a stream make of the signals of a phrase.

- A builder that has a member open puts the object that the phrase describes into it (`receiveAll_object`), and at the
  start of a stream makes it the root (`receiveAll_root`).
- A record returns to the depth where the phrase began (`isLevel_object`), so a recorder takes all of it
  (`Recorder.receiveAll_of_depth`).
-/

namespace FlowDoc.Xaml

mutual

/-- The object of a graph that a phrase describes. -/
def ObjectPhrase.object : ObjectPhrase → Object
  | .mk type members => .mk type (membersNodes type members)

/-- The member nodes of an object of a type. -/
def membersNodes (type : ElementType) : List MemberPhrase → List MemberNode
  | [] => []
  | m :: ms => m.node type :: membersNodes type ms

def MemberPhrase.node (type : ElementType) : MemberPhrase → MemberNode
  | .mk member collection items =>
    .mk member.name member.owner member.kind (Builder.isContentOf member type) collection (itemsNodes items)

def itemsNodes : List ItemPhrase → List Node
  | [] => []
  | i :: is => i.node :: itemsNodes is

def ItemPhrase.node : ItemPhrase → Node
  | .object o => .object o.object
  | .value v => .value v

end

/-! ## Building -/

namespace Builder

theorem receiveAll_nil (b : Builder) : b.receiveAll [] = .ok b := rfl

theorem receiveAll_cons (b : Builder) (s : Signal) (ss : List Signal) :
    b.receiveAll (s :: ss) = (b.receive s).bind (·.receiveAll ss) := rfl

/-- Signals one part of which is taken with a known result. -/
theorem receiveAll_append_of {b b' : Builder} {ss : List Signal} (h : b.receiveAll ss = .ok b') (ts : List Signal) :
    b.receiveAll (ss ++ ts) = b'.receiveAll ts := by
  rw [receiveAll_append, h]
  rfl

theorem receiveAll_cons_of {b b' : Builder} {s : Signal} (h : b.receive s = .ok b') (ss : List Signal) :
    b.receiveAll (s :: ss) = b'.receiveAll ss := by
  rw [receiveAll_cons, h]
  rfl

theorem receive_memberStart {b : Builder} {type : ElementType} {nodes : List MemberNode} {rest : List Frame}
    (h : b.stack = .object (.mk type nodes) :: rest) (member : Member) (collection : Bool) :
    b.receive (memberStart member collection) = .ok { b with
      stack := .member (.mk member.name member.owner member.kind (isContentOf member type) collection [])
        :: .object (.mk type nodes) :: rest } := by
  cases collection <;> simp [memberStart, receive, call, startMember, accept, h, Object.type]

theorem receive_memberEnd {b : Builder} {m : MemberNode} {type : ElementType} {nodes : List MemberNode}
    {rest : List Frame} (h : b.stack = .member m :: .object (.mk type nodes) :: rest) (collection : Bool) :
    b.receive (memberEnd collection) = .ok { b with stack := .object (.mk type (nodes ++ [m])) :: rest } := by
  cases collection <;> simp [memberEnd, receive, call, endMember, accept, h, Object.push]

mutual

/-- **An object in a member.** -/
theorem receiveAll_object : ∀ (o : ObjectPhrase) (b : Builder) {m : MemberNode} {rest : List Frame},
    b.stack = .member m :: rest →
      b.receiveAll o.signals = .ok { b with stack := .member (m.push (.object o.object)) :: rest }
  | .mk type members, b, m, rest, h => by
    have start : b.receive (.startObject type) = .ok { b with stack := .object (.mk type []) :: b.stack } := by
      simp [receive, call, startObject, accept, h]
    rw [ObjectPhrase.signals, List.cons_append, receiveAll_cons_of start,
      receiveAll_append_of (receiveAll_members members _ rfl)]
    simp [receiveAll_cons, receiveAll_nil, receive, call, endObject, accept, h, ObjectPhrase.object, Except.bind]

/-- The members of the innermost object. -/
theorem receiveAll_members : ∀ (ms : List MemberPhrase) (b : Builder) {type : ElementType} {nodes : List MemberNode}
    {rest : List Frame}, b.stack = .object (.mk type nodes) :: rest →
      b.receiveAll (membersSignals ms) =
        .ok { b with stack := .object (.mk type (nodes ++ membersNodes type ms)) :: rest }
  | [], b, type, nodes, rest, h => by simp [membersSignals, receiveAll_nil, membersNodes, ← h]
  | m :: ms, b, type, nodes, rest, h => by
    rw [membersSignals, receiveAll_append_of (receiveAll_member m b h), receiveAll_members ms _ rfl]
    simp [membersNodes]

theorem receiveAll_member : ∀ (m : MemberPhrase) (b : Builder) {type : ElementType} {nodes : List MemberNode}
    {rest : List Frame}, b.stack = .object (.mk type nodes) :: rest →
      b.receiveAll m.signals = .ok { b with stack := .object (.mk type (nodes ++ [m.node type])) :: rest }
  | .mk member collection items, b, type, nodes, rest, h => by
    rw [MemberPhrase.signals, List.cons_append, receiveAll_cons_of (receive_memberStart h member collection),
      receiveAll_append_of (receiveAll_items items _ rfl), receiveAll_cons_of (receive_memberEnd rfl collection)]
    simp [receiveAll_nil, MemberPhrase.node]

/-- The items of the innermost member. -/
theorem receiveAll_items : ∀ (is : List ItemPhrase) (b : Builder) {name owner : String} {kind : MemberKind}
    {isContent collection : Bool} {nodes : List Node} {rest : List Frame},
    b.stack = .member (.mk name owner kind isContent collection nodes) :: rest →
      b.receiveAll (itemsSignals is) = .ok { b with
        stack := .member (.mk name owner kind isContent collection (nodes ++ itemsNodes is)) :: rest }
  | [], b, _, _, _, _, _, _, _, h => by simp [itemsSignals, receiveAll_nil, itemsNodes, ← h]
  | i :: is, b, name, owner, kind, isContent, collection, nodes, rest, h => by
    rw [itemsSignals, receiveAll_append_of (receiveAll_item i b h), MemberNode.push, receiveAll_items is _ rfl]
    simp [itemsNodes]

theorem receiveAll_item : ∀ (i : ItemPhrase) (b : Builder) {m : MemberNode} {rest : List Frame},
    b.stack = .member m :: rest →
      b.receiveAll i.signals = .ok { b with stack := .member (m.push i.node) :: rest }
  | .object o, b, _, _, h => by simpa [ItemPhrase.signals, ItemPhrase.node] using receiveAll_object o b h
  | .value v, b, _, _, h => by
    simp [ItemPhrase.signals, ItemPhrase.node, receiveAll_cons, receiveAll_nil, receive, call, addValue, accept, h,
      Except.bind]

end

/-- Namespaces at the start of a stream. -/
theorem receiveAll_decls (decls : List NamespaceDecl) (b : Builder) (hs : b.stack = []) (hr : b.root = none) :
    b.receiveAll (decls.map .namespaceDecl) = .ok { b with namespaces := b.namespaces ++ decls } := by
  induction decls generalizing b with
  | nil => simp [receiveAll_nil]
  | cons d ds ih =>
    have step : b.receive (.namespaceDecl d) = .ok { b with namespaces := b.namespaces ++ [d] } := by
      simp [receive, call, declare, accept, hs, hr]
    rw [List.map_cons, receiveAll_cons_of step, ih { b with namespaces := b.namespaces ++ [d] } hs hr]
    simp

/-- **A whole stream.** -/
theorem receiveAll_root (o : ObjectPhrase) (b : Builder) (hs : b.stack = []) (hr : b.root = none) :
    b.receiveAll o.signals = .ok { b with root := some o.object } := by
  obtain ⟨type, members⟩ := o
  have start : b.receive (.startObject type) = .ok { b with stack := [.object (.mk type [])] } := by
    simp [receive, call, startObject, accept, hs, hr]
  rw [ObjectPhrase.signals, List.cons_append, receiveAll_cons_of start,
    receiveAll_append_of (receiveAll_members members _ rfl)]
  simp [receiveAll_cons, receiveAll_nil, receive, call, endObject, accept, ObjectPhrase.object, Except.bind, hs]

end Builder

/-- The graph of namespaces and one object. -/
theorem Graph.ofSignals_phrase (decls : List NamespaceDecl) (o : ObjectPhrase) :
    Graph.ofSignals (decls.map .namespaceDecl ++ o.signals) = .ok ⟨decls, o.object⟩ := by
  rw [Graph.ofSignals, Builder.receiveAll_append_of (Builder.receiveAll_decls decls {} rfl rfl),
    Builder.receiveAll_root o _ rfl rfl]
  rfl

/-! ## Recording -/

/-- Whether a record may be of any depth before a stretch of signals, and is as deep after it. -/
def IsLevel (signals : List Signal) : Prop :=
  ∀ depth : Int, 0 ≤ depth → depthAfter? depth (signals.map Event.ofSignal) = some depth

theorem isLevel_nil : IsLevel [] := fun _ _ => rfl

theorem IsLevel.append {ss ts : List Signal} (hs : IsLevel ss) (ht : IsLevel ts) : IsLevel (ss ++ ts) := by
  intro depth h
  rw [List.map_append, depthAfter?_append, hs depth h]
  exact ht depth h

/-- A start and an end around a level stretch. -/
theorem IsLevel.bracket {ss : List Signal} (h : IsLevel ss) {a b : Signal} (ha : (Event.ofSignal a).depthChange = 1)
    (hb : (Event.ofSignal b).depthChange = -1) : IsLevel (a :: ss ++ [b]) := by
  intro depth hd
  have up : ¬ depth + 1 < 0 := by omega
  have down : depth + 1 + -1 = depth := by omega
  rw [List.cons_append, List.map_cons, depthAfter?, ha, if_neg up, List.map_append, depthAfter?_append,
    h _ (by omega)]
  simp [depthAfter?, hb, down, hd]

mutual

/-- **Depth after an object.** -/
theorem isLevel_object : ∀ o : ObjectPhrase, IsLevel o.signals
  | .mk _ members => (isLevel_members members).bracket rfl rfl

theorem isLevel_members : ∀ ms : List MemberPhrase, IsLevel (membersSignals ms)
  | [] => isLevel_nil
  | m :: ms => (isLevel_member m).append (isLevel_members ms)

theorem isLevel_member : ∀ m : MemberPhrase, IsLevel m.signals
  | .mk _ collection items => (isLevel_items items).bracket (by cases collection <;> rfl) (by cases collection <;> rfl)

theorem isLevel_items : ∀ is : List ItemPhrase, IsLevel (itemsSignals is)
  | [] => isLevel_nil
  | i :: is => (isLevel_item i).append (isLevel_items is)

theorem isLevel_item : ∀ i : ItemPhrase, IsLevel i.signals
  | .object o => isLevel_object o
  | .value v => fun depth h => by simp [ItemPhrase.signals, Event.ofSignal, depthAfter?, Event.depthChange, h]

end

theorem isLevel_decls (decls : List NamespaceDecl) : IsLevel (decls.map .namespaceDecl) := by
  induction decls with
  | nil => exact isLevel_nil
  | cons d ds ih =>
    intro depth h
    have hd : ¬ depth < 0 := by omega
    simpa [depthAfter?, Event.ofSignal, Event.depthChange, hd] using ih depth h

namespace Recorder

/-- Take the signals of a stream up to the first refusal. -/
def receiveAll (r : Recorder) : List Signal → Except RenderError Recorder
  | [] => .ok r
  | s :: ss =>
    match r.receive s with
    | (r, .ok ()) => r.receiveAll ss
    | (_, .error e) => .error e

/-- A recorder takes all of a stream on which the depth never falls below zero. -/
theorem receiveAll_of_depth (signals : List Signal) (r : Recorder) {depth : Int}
    (h : depthAfter? r.depth (signals.map Event.ofSignal) = some depth) :
    r.receiveAll signals = .ok ⟨r.events ++ (signals.map Event.ofSignal), depth⟩ := by
  induction signals generalizing r with
  | nil => simp [receiveAll, depthAfter?] at h ⊢; simp [← h]
  | cons s ss ih =>
    rw [List.map_cons, depthAfter?] at h
    by_cases hneg : r.depth + (Event.ofSignal s).depthChange < 0
    · rw [if_pos hneg] at h
      cases h
    · rw [if_neg hneg] at h
      have step : r.receive s =
          (⟨r.events.push (Event.ofSignal s), r.depth + (Event.ofSignal s).depthChange⟩, .ok ()) := by
        simp [receive, record, hneg]
      rw [receiveAll, step]
      simp only
      rw [ih _ h]
      simp

end Recorder

end FlowDoc.Xaml
