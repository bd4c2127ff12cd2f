import FlowDoc.Proofs.Render.ContentModel
import FlowDoc.Proofs.Xaml.Run
import FlowDoc.Proofs.Xaml.Sink

/-!
# What is written stays

No act takes back a member: it stays in its object, and the object in what it was put into, whatever is written
afterwards (`Draft.Move.holds`). So a member that a writer has put into an open object is found again in the graph of
all that was sent (**`Draft.Sound.exists_within`**). Neither is a namespace taken back, so the first declarations stay
the first.
-/

namespace FlowDoc.Xaml

open Text (Buffer SpaceMode)

variable {type t : ElementType} {node : MemberNode} {items more : List ItemPhrase} {members after : List MemberPhrase}
  {p : OpenPhrase} {g g' : Draft} {a : Act}

/-! ## Objects with a member -/

/-- Whether there is an object of a type with a member in an object, or it is one itself. -/
def Object.Has (type : ElementType) (node : MemberNode) (o : Object) : Prop :=
  ∃ p : Object, p.Within o ∧ p.type = type ∧ node ∈ p.members

/-- The same of items. -/
def ItemsHave (type : ElementType) (node : MemberNode) (items : List ItemPhrase) : Prop :=
  ∃ o : Object, .object o ∈ itemsNodes items ∧ o.Has type node

/-- The same of what is open. -/
def OpenPhrase.Has (type : ElementType) (node : MemberNode) : OpenPhrase → Prop
  | .object t members => (ObjectPhrase.mk t members).object.Has type node
  | .member _ items | .collection _ _ _ items => ItemsHave type node items

theorem itemsNodes_append (items more : List ItemPhrase) :
    itemsNodes (items ++ more) = itemsNodes items ++ itemsNodes more := by
  induction items with
  | nil => rfl
  | cons i is ih => exact congrArg (_ :: ·) ih

theorem membersNodes_append (t : ElementType) (members after : List MemberPhrase) :
    membersNodes t (members ++ after) = membersNodes t members ++ membersNodes t after := by
  induction members with
  | nil => rfl
  | cons m ms ih => exact congrArg (_ :: ·) ih

/-! ### Growing -/

theorem ItemsHave.append (h : ItemsHave type node items) (more : List ItemPhrase) :
    ItemsHave type node (items ++ more) := by
  obtain ⟨o, found, has⟩ := h
  rw [ItemsHave, itemsNodes_append]
  exact ⟨o, List.mem_append_left _ found, has⟩

/-- What an object has it has with more members. -/
theorem Object.Has.grow (h : (ObjectPhrase.mk t members).object.Has type node) (after : List MemberPhrase) :
    (ObjectPhrase.mk t (members ++ after)).object.Has type node := by
  have grown : ∀ m ∈ membersNodes t members, m ∈ membersNodes t (members ++ after) := fun m hm => by
    rw [membersNodes_append]
    exact List.mem_append_left _ hm
  obtain ⟨p, within, rfl, found⟩ := h
  cases within with
  | self => exact ⟨_, .self, rfl, grown node found⟩
  | inMember hm hc inner => exact ⟨p, .inMember (grown _ hm) hc inner, rfl, found⟩

/-- What is in items is in the object that has them as a member. -/
theorem ItemsHave.member (h : ItemsHave type node items) (m : Member) (collection : Bool)
    (members : List MemberPhrase) :
    (ObjectPhrase.mk t (members ++ [.mk m collection items])).object.Has type node := by
  obtain ⟨o, found, p, within, rfl, mem⟩ := h
  refine ⟨p, .inMember (m := (MemberPhrase.mk m collection items).node t) ?_ found within, rfl, mem⟩
  show _ ∈ membersNodes t (members ++ [.mk m collection items])
  rw [membersNodes_append]
  exact List.mem_append_right _ List.mem_cons_self

namespace OpenPhrase

theorem Has.add (h : p.Has type node) (more : List ItemPhrase) : (p.add more).Has type node := by
  cases p with
  | object t members => exact h
  | member m items => exact ItemsHave.append h more
  | collection m opened outer items => exact ItemsHave.append h more

theorem Has.opened (h : p.Has type node) : p.opened.Has type node := by cases p <;> exact h

/-- An object that is put into a container. -/
theorem has_add_object (hc : p.isContainer = true) {o : ObjectPhrase} (h : o.object.Has type node) :
    (p.add [.object o]).Has type node := by
  have added (items : List ItemPhrase) : ItemsHave type node (items ++ [.object o]) := by
    rw [ItemsHave, itemsNodes_append]
    exact ⟨_, List.mem_append_right _ List.mem_cons_self, h⟩
  cases p with
  | object t members => cases hc
  | member m items => exact added items
  | collection m opened outer items => exact added items

/-- What a container has it leaves in its object. -/
theorem Has.closed (hc : p.isContainer = true) (coherent : p.IsCoherent) (h : p.Has type node)
    (t : ElementType) (members : List MemberPhrase) :
    (ObjectPhrase.mk t (members ++ p.closed)).object.Has type node := by
  cases p with
  | object t members => cases hc
  | member m items => exact ItemsHave.member h m false members
  | collection m opened outer items =>
    cases opened with
    | true => exact ItemsHave.member h m true members
    | false =>
      cases coherent
      obtain ⟨o, found, -⟩ := h
      cases found

theorem IsCoherent.add (h : p.IsCoherent) (more : List ItemPhrase) : (p.add more).IsCoherent := by
  rcases p with _ | _ | ⟨m, _ | _, outer, items⟩
  · trivial
  · trivial
  · cases h
    cases more <;> trivial
  · trivial

end OpenPhrase

/-! ## Acts -/

/-- Whether there is an object of a type with a member in a draft. -/
def Draft.Holds (g : Draft) (type : ElementType) (node : MemberNode) : Prop :=
  (∃ p ∈ g.spine, p.Has type node) ∨ ∃ o ∈ g.root, o.object.Has type node

namespace Draft

/-- What is open at the inner end may be replaced by what has the same. -/
theorem Holds.withSpine (held : g.Holds type node) (inner inner' : List OpenPhrase) {sp : List OpenPhrase}
    (hs : g.spine = inner ++ sp) (b : Buffer)
    (replaced : ∀ p ∈ inner, p.Has type node → ∃ q ∈ inner', q.Has type node) :
    (g.withSpine (inner' ++ sp) b).Holds type node := by
  refine held.imp_left ?_
  rintro ⟨p, hp, has⟩
  rw [hs, List.mem_append] at hp
  rcases hp with hp | hp
  · obtain ⟨q, hq, has⟩ := replaced p hp has
    exact ⟨q, List.mem_append_left _ hq, has⟩
  · exact ⟨p, List.mem_append_right _ hp, has⟩

/-- **No act takes back a member.** -/
theorem Move.holds (m : g.Move a g') (h : g.Sound) (held : g.Holds type node) : g'.Holds type node := by
  cases m with
  | declare decl hr hs => exact held
  | startRoot t hr hs =>
    rcases held with ⟨p, hp, -⟩ | ⟨o, ho, -⟩
    · rw [hs] at hp; cases hp
    · rw [hr] at ho; cases ho
  | startChild t hs hc =>
    refine held.withSpine [_] [_, _] hs _ fun p hp has => ?_
    cases List.mem_singleton.mp hp
    exact ⟨_, List.mem_cons_of_mem _ List.mem_cons_self, (has.add _).opened⟩
  | endRoot hs =>
    rcases held with ⟨p, hp, has⟩ | ⟨o, ho, -⟩
    · rw [hs, List.mem_singleton] at hp
      subst hp
      exact Or.inr ⟨_, rfl, has⟩
    · have none := h.single (Option.isSome_of_mem ho)
      rw [hs] at none
      cases none
  | endChild hs =>
    have container := (hs ▸ h.nested).parent.2.1
    refine held.withSpine [_, _] [_] hs _ fun p hp has => ⟨_, List.mem_singleton_self _, ?_⟩
    rcases List.mem_pair.mp hp with rfl | rfl
    · exact OpenPhrase.has_add_object container has
    · exact has.add _
  | startMember m hs =>
    exact held.withSpine [] [_] hs _ fun p hp => by cases hp
  | endMember hs =>
    refine held.withSpine [_, _] [_] hs _ fun p hp has => ⟨_, List.mem_singleton_self _, ?_⟩
    rcases List.mem_pair.mp hp with rfl | rfl
    · exact (has.add _).closed rfl ((h.coherent hs).add _) _ _
    · exact Object.Has.grow has _
  | put m i hs proper hb =>
    refine held.withSpine [_] [_] hs _ fun p hp has => ⟨_, List.mem_singleton_self _, ?_⟩
    cases List.mem_singleton.mp hp
    exact Object.Has.grow has _
  | startItems m mode hs =>
    exact held.withSpine [] [_] hs _ fun p hp => by cases hp
  | endItems hs =>
    refine held.withSpine [_, _] [_] hs _ fun p hp has => ⟨_, List.mem_singleton_self _, ?_⟩
    rcases List.mem_pair.mp hp with rfl | rfl
    · exact (has.add _).closed rfl ((h.coherent hs).add _) _ _
    · exact Object.Has.grow has _
  | text s hs hc => exact held.withSpine [] [] hs _ fun p hp => by cases hp

/-- Nor does an act take back a namespace. -/
theorem Move.decls_isPrefix (m : g.Move a g') : g.decls <+: g'.decls := by
  cases m with
  | declare decl => exact List.prefix_append _ _
  | _ => exact List.prefix_refl _

/-- Nor does it change how values are sent. -/
theorem Move.settings (m : g.Move a g') : g'.mode = g.mode ∧ g'.theme = g.theme := by cases m <;> exact ⟨rfl, rfl⟩

theorem Run.holds {depth : Nat} {flow : List (Text.Flow Unit)} (r : Run depth g flow g') (h : g.Sound)
    (held : g.Holds type node) : g'.Holds type node := by
  induction r with
  | refl => exact held
  | act r m _ ih => exact m.holds (r.sound h) ih

theorem Run.decls_isPrefix {depth : Nat} {flow : List (Text.Flow Unit)} (r : Run depth g flow g') :
    g.decls <+: g'.decls := by
  induction r with
  | refl => exact List.prefix_refl _
  | act _ m _ ih => exact ih.trans m.decls_isPrefix

theorem Run.settings {depth : Nat} {flow : List (Text.Flow Unit)} (r : Run depth g flow g') :
    g'.mode = g.mode ∧ g'.theme = g.theme := by
  induction r with
  | refl => exact ⟨rfl, rfl⟩
  | act _ m _ ih => exact ⟨m.settings.1.trans ih.1, m.settings.2.trans ih.2⟩

/-! ## Whole scripts -/

/-- **What is written stays.** A member in the object that is innermost is in the graph of all that is sent once the
script is done, in an object of that type, and the namespaces of the graph begin with those declared before. -/
theorem Sound.exists_within (h : g.Sound) {sp : List OpenPhrase} (hs : g.spine = .object type members :: sp)
    (held : node ∈ membersNodes type members) (script : List Step) {signals : List Signal}
    (finished : (g.writer.run script).finish = .ok signals) :
    ∃ graph, Graph.ofSignals signals = .ok graph ∧ g.decls <+: graph.namespaces ∧ graph.root.Has type node := by
  obtain ⟨g', r, hw⟩ := h.script_run script (Writer.staysAt_zero _ script)
  rw [hw] at finished
  have has : (OpenPhrase.object type members).Has type node := ⟨_, .self, rfl, held⟩
  have kept := r.holds h (Or.inl ⟨_, hs ▸ List.mem_cons_self, has⟩)
  rw [Writer.finish] at finished
  split at finished
  · next closed =>
    have closed : g'.spine = [] := by simpa [Draft.writer] using closed
    rw [Holds, closed] at kept
    obtain ⟨o, root, has⟩ := kept.resolve_left (by rintro ⟨_, h, _⟩; cases h)
    have sent : g'.decls.map .namespaceDecl ++ o.signals = signals := by
      simpa [Draft.writer, Draft.signals, closed, Option.mem_def.mp root, spineSignals] using finished
    rw [← sent]
    exact ⟨_, Graph.ofSignals_phrase _ _, r.decls_isPrefix, has⟩
  · cases finished

end Draft

end FlowDoc.Xaml
