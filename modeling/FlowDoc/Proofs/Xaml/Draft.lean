import FlowDoc.Proofs.Text.Flow
import FlowDoc.Proofs.Xaml.Phrase
import FlowDoc.Xaml.Script

/-!
# Drafts

A `Draft` is a writer together with what it has written so far as phrases: the namespaces, the root once it is closed,
and the objects, members and collections that are still open, each with what it holds (`OpenPhrase`, innermost first).
`Draft.writer` forgets the phrases.

What an operation does to a draft at once is an `Act`, and `Move` says what the act needs and leaves. Between operations
drafts are sound (`Draft.Sound`), and every act keeps them so (`Move.sound`).
-/

namespace FlowDoc.Xaml

open Text (SpaceMode Piece Buffer Laid)

/-- A piece as an item: a value, or a run of its own. -/
def ItemPhrase.ofPiece : Piece → ItemPhrase
  | .value s => .value (.text s)
  | .verbatim s => .object (.mk .run [.mk runText false [.value (.text s)]])

/-- What a collection holds, as items. -/
def ItemPhrase.ofLaid : Laid ObjectPhrase → ItemPhrase
  | .piece p => ofPiece p
  | .child o => .object o

/-- The items that a taken piece becomes: one or none. -/
def pieceItems (p : Option Piece) : List ItemPhrase := p.toList.map .ofPiece

/-- An object, member or collection that is still open, with what it holds so far. -/
inductive OpenPhrase
  | object (type : ElementType) (members : List MemberPhrase)
  | member (member : Member) (items : List ItemPhrase)
  | collection (member : Member) (opened : Bool) (outerMode : SpaceMode) (items : List ItemPhrase)

namespace OpenPhrase

/-- The scope that a writer keeps of it. -/
def scope : OpenPhrase → Scope
  | object type _ => .object type
  | member _ _ => .member
  | collection m opened outerMode _ => .items m opened outerMode

/-- Its signals so far. A collection that is not opened has none. -/
def signals : OpenPhrase → List Signal
  | object type members => .startObject type :: membersSignals members
  | member m items => .startMember m :: itemsSignals items
  | collection m opened _ items => if opened then .startCollection m :: itemsSignals items else []

/-- Whether items can go into it. -/
def isContainer : OpenPhrase → Bool
  | object _ _ => false
  | member _ _ | collection _ _ _ _ => true

/-- The items in it. -/
def items : OpenPhrase → List ItemPhrase
  | object _ _ => []
  | member _ items | collection _ _ _ items => items

/-- With a collection opened on the stream. -/
def opened : OpenPhrase → OpenPhrase
  | collection m _ outerMode items => collection m true outerMode items
  | p => p

/-- With more items at its end. The first one opens a collection. -/
def add (p : OpenPhrase) (more : List ItemPhrase) : OpenPhrase :=
  match p with
  | object type members => object type members
  | member m items => member m (items ++ more)
  | collection m opened outerMode items => collection m (opened || !more.isEmpty) outerMode (items ++ more)

/-- What it leaves in its object when it is closed. -/
def closed : OpenPhrase → List MemberPhrase
  | object _ _ => []
  | member m items => [.mk m false items]
  | collection m opened _ items => if opened then [.mk m true items] else []

/-- A collection that is not opened holds nothing. -/
def IsCoherent : OpenPhrase → Prop
  | collection _ false _ items => items = []
  | _ => True

@[simp] theorem add_nil (p : OpenPhrase) : p.add [] = p := by cases p <;> simp [add]

@[simp] theorem isContainer_add (p : OpenPhrase) (more : List ItemPhrase) :
    (p.add more).isContainer = p.isContainer := by
  cases p <;> rfl

@[simp] theorem isContainer_opened (p : OpenPhrase) : p.opened.isContainer = p.isContainer := by cases p <;> rfl

theorem signals_add {p : OpenPhrase} (hc : p.isContainer = true) (h : p.IsCoherent) {more : List ItemPhrase}
    (hne : more ≠ []) : (p.add more).signals = p.opened.signals ++ itemsSignals more := by
  rcases p with ⟨t, ms⟩ | ⟨m, items⟩ | ⟨m, _ | _, om, items⟩
  · cases hc
  · simp [add, signals, opened]
  · cases h
    simp [add, signals, opened, hne]
  · simp [add, signals, opened]

theorem isCoherent_opened (p : OpenPhrase) : p.opened.IsCoherent := by cases p <;> trivial

end OpenPhrase

/-- The signals of all that is open, innermost first. -/
def spineSignals : List OpenPhrase → List Signal
  | [] => []
  | p :: ps => spineSignals ps ++ p.signals

/-- A writer with what it has written as phrases. -/
structure Draft where
  mode : ValueMode
  theme : Style.Theme
  decls : List NamespaceDecl := []
  root : Option ObjectPhrase := none
  spine : List OpenPhrase := []
  buffer : Buffer := .empty .collapse

namespace Draft

/-- All that was sent. -/
def signals (g : Draft) : List Signal :=
  g.decls.map .namespaceDecl ++ g.root.toList.flatMap ObjectPhrase.signals ++ spineSignals g.spine

/-- The draft without its phrases. -/
def writer (g : Draft) : Writer where
  mode := g.mode
  theme := g.theme
  scopes := g.spine.map OpenPhrase.scope
  buffer := g.buffer
  rootStarted := g.root.isSome || !g.spine.isEmpty
  sent := g.signals.toArray

/-- The draft that a writer starts from. -/
theorem writer_start (mode : ValueMode) (theme : Style.Theme) :
    ({ mode, theme } : Draft).writer = { mode, theme } := rfl

/-- The draft with other phrases open and another buffer. -/
def withSpine (g : Draft) (spine : List OpenPhrase) (buffer : Buffer) : Draft := { g with spine, buffer }

@[simp] theorem spine_withSpine (g : Draft) (spine : List OpenPhrase) (b : Buffer) :
    (g.withSpine spine b).spine = spine := rfl

@[simp] theorem buffer_withSpine (g : Draft) (spine : List OpenPhrase) (b : Buffer) :
    (g.withSpine spine b).buffer = b := rfl

end Draft

/-! ## Moves -/

/-- What an operation does to a draft at once. -/
inductive Act
  | declare (decl : NamespaceDecl)
  | startObject (type : ElementType)
  | endObject
  | startMember (member : Member)
  | endMember
  /-- A whole member with one item. -/
  | put (member : Member) (item : ItemPhrase)
  | startItems (member : Member) (mode : SpaceMode)
  | endItems
  | text (s : String)

namespace Draft

/-- One act: what it needs of the innermost phrases, and what it leaves. -/
inductive Move : Draft → Act → Draft → Prop
  | declare {g : Draft} (decl : NamespaceDecl) : g.root = none → g.spine = [] →
      Move g (.declare decl) { g with decls := g.decls ++ [decl] }
  | startRoot {g : Draft} (type : ElementType) : g.root = none → g.spine = [] →
      Move g (.startObject type) (g.withSpine [.object type []] (g.buffer.take true).2)
  | startChild {g : Draft} {p : OpenPhrase} {sp : List OpenPhrase} (type : ElementType) : g.spine = p :: sp →
      p.isContainer = true →
      Move g (.startObject type)
        (g.withSpine (.object type [] :: (p.add (pieceItems (g.buffer.take true).1)).opened :: sp)
          (g.buffer.take true).2)
  | endRoot {g : Draft} {type : ElementType} {members : List MemberPhrase} : g.spine = [.object type members] →
      Move g .endObject { g with root := some (.mk type members), spine := [] }
  | endChild {g : Draft} {type : ElementType} {members : List MemberPhrase} {p : OpenPhrase} {sp : List OpenPhrase} :
      g.spine = .object type members :: p :: sp →
      Move g .endObject (g.withSpine (p.add [.object (.mk type members)] :: sp) g.buffer)
  | startMember {g : Draft} {type : ElementType} {members : List MemberPhrase} {sp : List OpenPhrase} (m : Member) :
      g.spine = .object type members :: sp →
      Move g (.startMember m) (g.withSpine (.member m [] :: .object type members :: sp) g.buffer)
  | endMember {g : Draft} {m : Member} {items : List ItemPhrase} {type : ElementType} {members : List MemberPhrase}
      {sp : List OpenPhrase} : g.spine = .member m items :: .object type members :: sp →
      Move g .endMember
        (g.withSpine (.object type (members ++ [.mk m false (items ++ pieceItems (g.buffer.take false).1)]) :: sp)
          (g.buffer.take false).2)
  | put {g : Draft} {type : ElementType} {members : List MemberPhrase} {sp : List OpenPhrase} (m : Member)
      (i : ItemPhrase) {b : Buffer} : g.spine = .object type members :: sp → i.IsProper →
      (b = g.buffer ∨ b = (g.buffer.take true).2) →
      Move g (.put m i) (g.withSpine (.object type (members ++ [.mk m false [i]]) :: sp) b)
  | startItems {g : Draft} {type : ElementType} {members : List MemberPhrase} {sp : List OpenPhrase} (m : Member)
      (mode : SpaceMode) : g.spine = .object type members :: sp →
      Move g (.startItems m mode)
        (g.withSpine (.collection m false g.buffer.mode [] :: .object type members :: sp) (.empty mode))
  | endItems {g : Draft} {m : Member} {opened : Bool} {outerMode : SpaceMode} {items : List ItemPhrase}
      {type : ElementType} {members : List MemberPhrase} {sp : List OpenPhrase} :
      g.spine = .collection m opened outerMode items :: .object type members :: sp →
      Move g .endItems
        (g.withSpine
          (.object type (members ++
            ((OpenPhrase.collection m opened outerMode items).add (pieceItems (g.buffer.take false).1)).closed) :: sp)
          ((g.buffer.take false).2.resume outerMode))
  | text {g : Draft} {p : OpenPhrase} {sp : List OpenPhrase} (s : String) : g.spine = p :: sp →
      p.isContainer = true → Move g (.text s) (g.withSpine (p :: sp) (g.buffer.pushAll s))

end Draft

/-! ## Sound drafts -/

/-- What may be open inside what: objects in members and opened collections, and these in objects. -/
inductive Nested : List OpenPhrase → Prop
  | nil : Nested []
  | root (type : ElementType) (members : List MemberPhrase) : Nested [.object type members]
  | inMember (type : ElementType) (members : List MemberPhrase) {m : Member} {items : List ItemPhrase}
      {sp : List OpenPhrase} : Nested (.member m items :: sp) →
      Nested (.object type members :: .member m items :: sp)
  | inCollection (type : ElementType) (members : List MemberPhrase) {m : Member} {outerMode : SpaceMode}
      {items : List ItemPhrase} {sp : List OpenPhrase} : Nested (.collection m true outerMode items :: sp) →
      Nested (.object type members :: .collection m true outerMode items :: sp)
  | member (m : Member) (items : List ItemPhrase) {type : ElementType} {members : List MemberPhrase}
      {sp : List OpenPhrase} : Nested (.object type members :: sp) →
      Nested (.member m items :: .object type members :: sp)
  | collection (m : Member) (opened : Bool) (outerMode : SpaceMode) (items : List ItemPhrase) {type : ElementType}
      {members : List MemberPhrase} {sp : List OpenPhrase} : Nested (.object type members :: sp) →
      Nested (.collection m opened outerMode items :: .object type members :: sp)

/-- Whether items end in no value. -/
def EndsFree (items : List ItemPhrase) : Prop := ∀ l ∈ items.getLast?, l.isValue = false

/-- What an open phrase holds is proper. -/
def OpenPhrase.IsProper : OpenPhrase → Prop
  | object _ members => MembersProper members
  | member _ items | collection _ _ _ items => Separated items ∧ ItemsProper items

/-- Whether the innermost phrase can go on with anything: in front of a member nothing waits in the buffer, in a member
or collection a value may come next, and a collection is opened exactly if it holds something. -/
def Ready : List OpenPhrase → Buffer → Prop
  | [], b | .object _ _ :: _, b => b.text = "" ∧ b.spaceDue = false
  | .member _ items :: _, _ => EndsFree items
  | .collection _ opened _ items :: _, _ => EndsFree items ∧ (opened = true ↔ items ≠ [])

/-- The invariant of drafts between operations. -/
structure Draft.Sound (g : Draft) : Prop where
  nested : Nested g.spine
  proper : ∀ p ∈ g.spine, p.IsProper
  single : g.root.isSome = true → g.spine = []
  rootProper : ∀ o ∈ g.root, o.IsProper
  ready : Ready g.spine g.buffer
  due : g.buffer.mode = .preserve → g.buffer.spaceDue = false

/-! ### What acts keep -/

theorem Nested.add {p : OpenPhrase} {sp : List OpenPhrase} (h : Nested (p :: sp)) (more : List ItemPhrase) :
    Nested (p.add more :: sp) := by
  cases p with
  | object type members => exact h
  | member m items => cases h with | member _ _ h => exact .member _ _ h
  | collection m opened outerMode items => cases h with | collection _ _ _ _ h => exact .collection _ _ _ _ h

theorem Nested.opened {p : OpenPhrase} {sp : List OpenPhrase} (h : Nested (p :: sp)) : Nested (p.opened :: sp) := by
  cases p with
  | object type members => exact h
  | member m items => exact h
  | collection m opened outerMode items => cases h with | collection _ _ _ _ h => exact .collection _ _ _ _ h

/-- An object may be open in whatever is opened for items. -/
theorem Nested.child {p : OpenPhrase} {sp : List OpenPhrase} (h : Nested (p :: sp)) (hc : p.isContainer = true)
    (type : ElementType) (members : List MemberPhrase) : Nested (.object type members :: p.opened :: sp) := by
  have ho := h.opened
  cases p with
  | object type members => cases hc
  | member m items => exact .inMember _ _ ho
  | collection m opened outerMode items => exact .inCollection _ _ ho

/-- What an object is open in, if anything. -/
theorem Nested.parent {type : ElementType} {members : List MemberPhrase} {p : OpenPhrase} {sp : List OpenPhrase}
    (h : Nested (.object type members :: p :: sp)) : Nested (p :: sp) ∧ p.isContainer = true ∧ p.opened = p := by
  cases h with
  | inMember _ _ h => exact ⟨h, rfl, rfl⟩
  | inCollection _ _ h => exact ⟨h, rfl, rfl⟩

/-- What is in an object stays when the object's members change. -/
theorem Nested.members {type : ElementType} {members : List MemberPhrase} {sp : List OpenPhrase}
    (h : Nested (.object type members :: sp)) (members' : List MemberPhrase) : Nested (.object type members' :: sp) := by
  cases h with
  | root => exact .root _ _
  | inMember _ _ h => exact .inMember _ _ h
  | inCollection _ _ h => exact .inCollection _ _ h

theorem Nested.inner {p : OpenPhrase} {type : ElementType} {members : List MemberPhrase} {sp : List OpenPhrase}
    (h : Nested (p :: .object type members :: sp)) : Nested (.object type members :: sp) := by
  cases h with
  | member _ _ h => exact h
  | collection _ _ _ _ h => exact h

/-- A taken piece can follow anything that does not end in a value. -/
theorem separated_pieceItems {items : List ItemPhrase} (hs : Separated items) (he : EndsFree items) (p : Option Piece) :
    Separated (items ++ pieceItems p) := by
  cases p with
  | none => simpa [pieceItems] using hs
  | some p => exact hs.concat fun _ => he

theorem itemsProper_pieceItems (p : Option Piece) : ItemsProper (pieceItems p) := by
  rcases p with _ | ⟨s | s⟩ <;>
    simp [pieceItems, ItemPhrase.ofPiece, ItemsProper, ItemPhrase.IsProper, ObjectPhrase.IsProper, MembersProper,
      MemberPhrase.IsProper, Separated]

theorem OpenPhrase.IsProper.addPiece {p : OpenPhrase} (h : p.IsProper) (he : EndsFree p.items) (piece : Option Piece) :
    (p.add (pieceItems piece)).IsProper := by
  cases p with
  | object type members => exact h
  | member m items =>
    exact ⟨separated_pieceItems h.1 he piece, (itemsProper_append _ _).mpr ⟨h.2, itemsProper_pieceItems piece⟩⟩
  | collection m opened outerMode items =>
    exact ⟨separated_pieceItems h.1 he piece, (itemsProper_append _ _).mpr ⟨h.2, itemsProper_pieceItems piece⟩⟩

theorem OpenPhrase.IsProper.addObject {p : OpenPhrase} (h : p.IsProper) {o : ObjectPhrase} (ho : o.IsProper) :
    (p.add [.object o]).IsProper := by
  have proper : ItemsProper [.object o] := ⟨ho, trivial⟩
  cases p with
  | object type members => exact h
  | member m items => exact ⟨h.1.concat (by simp [ItemPhrase.isValue]), (itemsProper_append _ _).mpr ⟨h.2, proper⟩⟩
  | collection m opened outerMode items =>
    exact ⟨h.1.concat (by simp [ItemPhrase.isValue]), (itemsProper_append _ _).mpr ⟨h.2, proper⟩⟩

theorem OpenPhrase.isProper_opened {p : OpenPhrase} : p.opened.IsProper ↔ p.IsProper := by cases p <;> rfl

theorem endsFree_object (items : List ItemPhrase) (o : ObjectPhrase) : EndsFree (items ++ [.object o]) := by
  intro l hl
  simp only [List.getLast?_append, List.getLast?_singleton, Option.some_or, Option.mem_some_iff] at hl
  rw [← hl]
  rfl

/-- A buffer that was taken is ready for a member. -/
theorem take_quiet {b : Buffer} (h : b.mode = .preserve → b.spaceDue = false) (sibling : Bool) :
    (b.take sibling).2.text = "" ∧ (b.take sibling).2.spaceDue = false := by
  refine ⟨Buffer.take_text b sibling, ?_⟩
  cases hm : b.mode with
  | collapse => simp [Buffer.take, hm]
  | preserve => simp [Buffer.take, hm, h hm]

theorem pushAll_spaceDue {b : Buffer} (h : b.mode = .preserve → b.spaceDue = false) (s : String) :
    (b.pushAll s).mode = .preserve → (b.pushAll s).spaceDue = false := by
  intro hm
  rw [Buffer.pushAll_mode] at hm
  rw [Buffer.pushAll, Buffer.pushes_preserve hm]
  exact h hm

/-- What closing leaves in the object is proper. -/
theorem OpenPhrase.IsProper.closed {p : OpenPhrase} (h : p.IsProper)
    (ho : ∀ m outerMode items, p = .collection m true outerMode items → items ≠ []) : MembersProper p.closed := by
  rcases p with ⟨t, ms⟩ | ⟨m, items⟩ | ⟨m, _ | _, om, items⟩
  · trivial
  · exact ⟨⟨by simp, h⟩, trivial⟩
  · trivial
  · exact ⟨⟨fun _ => ho m om items rfl, h⟩, trivial⟩

namespace Draft

variable {g g' : Draft}

theorem sound_start (mode : ValueMode) (theme : Style.Theme) : ({ mode, theme } : Draft).Sound where
  nested := .nil
  proper := by simp
  single := by simp
  rootProper := by simp
  ready := ⟨rfl, rfl⟩
  due := fun _ => rfl

/-- The invariant with what is open by its name. -/
theorem Sound.of_spine (h : g.Sound) {spine : List OpenPhrase} (hs : g.spine = spine) :
    Nested spine ∧ (∀ p ∈ spine, p.IsProper) ∧ Ready spine g.buffer := by
  subst hs
  exact ⟨h.nested, h.proper, h.ready⟩

theorem Sound.endsFree (h : g.Sound) {p : OpenPhrase} {sp : List OpenPhrase} (hs : g.spine = p :: sp) :
    EndsFree p.items := by
  obtain ⟨-, -, ready⟩ := h.of_spine hs
  cases p with
  | object type members => simp [EndsFree, OpenPhrase.items]
  | member m items => exact ready
  | collection m opened outerMode items => exact ready.1

/-- Only a root that is still open is no finished one. -/
theorem Sound.root_eq_none (h : g.Sound) {p : OpenPhrase} {sp : List OpenPhrase} (hs : g.spine = p :: sp) :
    g.root = none := by
  cases hr : g.root with
  | none => rfl
  | some o => have := h.single (by simp [hr]); simp [hs] at this

/-- A sound draft with other phrases on top of the innermost ones that stay. -/
theorem Sound.withSpine (h : g.Sound) {spine : List OpenPhrase} {b : Buffer} (hroot : g.root = none)
    (nested : Nested spine) (proper : ∀ p ∈ spine, p.IsProper) (ready : Ready spine b)
    (due : b.mode = .preserve → b.spaceDue = false) : (g.withSpine spine b).Sound where
  nested := nested
  proper := proper
  single := by simp [Draft.withSpine, hroot]
  rootProper := h.rootProper
  ready := ready
  due := due

/-- **Every act keeps drafts sound.** -/
theorem Move.sound {a : Act} (m : g.Move a g') (h : g.Sound) : g'.Sound := by
  have quiet := take_quiet h.due
  have due : ∀ sibling, (g.buffer.take sibling).2.mode = .preserve → (g.buffer.take sibling).2.spaceDue = false :=
    fun sibling _ => (quiet sibling).2
  cases m with
  | declare decl _ _ => exact ⟨h.nested, h.proper, h.single, h.rootProper, h.ready, h.due⟩
  | startRoot type hroot hs =>
    exact h.withSpine hroot (.root _ _) (by simp [OpenPhrase.IsProper, MembersProper]) (quiet true) (due true)
  | @startChild p sp type hs hc =>
    obtain ⟨nested, proper, -⟩ := h.of_spine hs
    refine h.withSpine (h.root_eq_none hs) ((nested.add _).child (by simpa using hc) type [])
      (fun q hq => ?_) (quiet true) (due true)
    rcases List.mem_cons.mp hq with rfl | hq
    · trivial
    · rcases List.mem_cons.mp hq with rfl | hq
      · exact OpenPhrase.isProper_opened.mpr ((proper p (by simp)).addPiece (h.endsFree hs) _)
      · exact proper q (by simp [hq])
  | @endRoot type members hs =>
    obtain ⟨-, proper, ready⟩ := h.of_spine hs
    have root : (OpenPhrase.object type members).IsProper := proper _ (List.mem_singleton_self _)
    exact ⟨.nil, by simp, fun _ => rfl, fun o ho => by cases ho; exact root, ready, h.due⟩
  | @endChild type members p sp hs =>
    obtain ⟨nested, proper, ready⟩ := h.of_spine hs
    obtain ⟨nested, hc, ho⟩ := nested.parent
    have obj : (ObjectPhrase.mk type members).IsProper := proper (.object type members) (by simp)
    refine h.withSpine (h.root_eq_none hs) (nested.add _) (fun q hq => ?_) ?_ h.due
    · rcases List.mem_cons.mp hq with rfl | hq
      · exact (proper p (by simp)).addObject obj
      · exact proper q (by simp [hq])
    · cases p with
      | object _ _ => cases hc
      | member m items => exact endsFree_object _ _
      | collection m opened outerMode items => exact ⟨endsFree_object _ _, by simp⟩
  | @startMember type members sp m hs =>
    obtain ⟨nested, proper, -⟩ := h.of_spine hs
    refine h.withSpine (h.root_eq_none hs) (.member _ _ nested) (fun q hq => ?_) (by simp [Ready, EndsFree]) h.due
    rcases List.mem_cons.mp hq with rfl | hq
    · simp [OpenPhrase.IsProper, Separated, ItemsProper]
    · exact proper q hq
  | @endMember m items type members sp hs =>
    obtain ⟨nested, proper, -⟩ := h.of_spine hs
    have item := (proper (.member m items) (by simp)).addPiece (h.endsFree hs) (g.buffer.take false).1
    have obj : MembersProper members := proper (.object type members) (by simp)
    refine h.withSpine (h.root_eq_none hs) (nested.inner.members _) (fun q hq => ?_) (quiet false) (due false)
    rcases List.mem_cons.mp hq with rfl | hq
    · exact (membersProper_append _ _).mpr ⟨obj, ⟨by simp, item⟩, trivial⟩
    · exact proper q (by simp [hq])
  | @put type members sp m i b hs hi hb =>
    obtain ⟨nested, proper, ready⟩ := h.of_spine hs
    have obj : MembersProper members := proper (.object type members) (by simp)
    have still : b.text = "" ∧ b.spaceDue = false := by
      rcases hb with rfl | rfl
      · exact ready
      · exact quiet true
    refine h.withSpine (h.root_eq_none hs) (nested.members _) (fun q hq => ?_) still (fun _ => still.2)
    rcases List.mem_cons.mp hq with rfl | hq
    · refine (membersProper_append _ _).mpr ⟨obj, ?_⟩
      simp [MembersProper, MemberPhrase.IsProper, Separated, ItemsProper, hi]
    · exact proper q (by simp [hq])
  | @startItems type members sp m mode hs =>
    obtain ⟨nested, proper, -⟩ := h.of_spine hs
    refine h.withSpine (h.root_eq_none hs) (.collection _ _ _ _ nested) (fun q hq => ?_) (by simp [Ready, EndsFree])
      (fun _ => rfl)
    rcases List.mem_cons.mp hq with rfl | hq
    · simp [OpenPhrase.IsProper, Separated, ItemsProper]
    · exact proper q hq
  | @endItems m opened outerMode items type members sp hs =>
    obtain ⟨nested, proper, ready⟩ := h.of_spine hs
    have item := (proper (.collection m opened outerMode items) (by simp)).addPiece (h.endsFree hs)
      (g.buffer.take false).1
    have obj : MembersProper members := proper (.object type members) (by simp)
    refine h.withSpine (h.root_eq_none hs) (nested.inner.members _) (fun q hq => ?_) (quiet false)
      (fun _ => (quiet false).2)
    rcases List.mem_cons.mp hq with rfl | hq
    · refine (membersProper_append _ _).mpr ⟨obj, item.closed fun m' om' items' he => ?_⟩
      simp only [OpenPhrase.add, OpenPhrase.collection.injEq, Bool.or_eq_true] at he
      obtain ⟨-, ho, -, rfl⟩ := he
      rcases ho with ho | ho
      · simp [ready.2.mp ho]
      · simp at ho; simp [ho]
    · exact proper q (by simp [hq])
  | @text p sp s hs hc =>
    obtain ⟨nested, proper, ready⟩ := h.of_spine hs
    refine h.withSpine (h.root_eq_none hs) nested proper ?_ (pushAll_spaceDue h.due s)
    cases p with
    | object _ _ => cases hc
    | member m items => exact ready
    | collection m opened outerMode items => exact ready

end Draft

end FlowDoc.Xaml
