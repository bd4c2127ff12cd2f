import FlowDoc.Proofs.Xaml.Run

/-!
# The text of a collection

A writer has one buffer for all that is open. While a child of a collection is open, the members and collections in it
use the buffer for themselves, and what they leave behind is right for the collection again: `Inside` is the invariant,
`Move.inside` that every act keeps it. So a collection gathers its flow (`Filling`), and what it sends is the layout of
that flow (**`collection_text`**).
-/

namespace FlowDoc.Xaml

open Text (SpaceMode Piece Buffer Flow Laid Gathers layout laidPieces)

/-! ## Inside a child -/

/-- The mode that a buffer goes back to when all of these are closed. -/
def baseMode : List OpenPhrase → SpaceMode → SpaceMode
  | [], mode => mode
  | .collection _ _ outerMode _ :: sp, _ => baseMode sp outerMode
  | .object _ _ :: sp, mode | .member _ _ :: sp, mode => baseMode sp mode

/-- Whether a collection is among what is open. -/
def hasCollection : List OpenPhrase → Bool
  | [] => false
  | .collection _ _ _ _ :: _ => true
  | .object _ _ :: sp | .member _ _ :: sp => hasCollection sp

/-- Whether the outermost phrase is an object, as is what is open in a child. -/
def EndsInObject (inner : List OpenPhrase) : Prop := ∃ type members, inner.getLast? = some (.object type members)

/-- What is open in a child of a collection, the child itself included, and the buffer. When all is closed, the buffer has
the mode of the collection and is past the start of its text. -/
structure Inside (mode : SpaceMode) (inner : List OpenPhrase) (b : Buffer) : Prop where
  child : EndsInObject inner
  base : baseMode inner b.mode = mode
  atStart : mode = .collapse → hasCollection inner = false → b.atStart = false

/-! ### The phrases open in a child -/

theorem endsInObject_object (type : ElementType) (members : List MemberPhrase) {inner : List OpenPhrase}
    (h : inner = [] ∨ EndsInObject inner) : EndsInObject (.object type members :: inner) := by
  rcases h with rfl | ⟨t, ms, h⟩
  · exact ⟨type, members, rfl⟩
  · cases inner with
    | nil => cases h
    | cons q sp => exact ⟨t, ms, h⟩

theorem EndsInObject.cons {inner : List OpenPhrase} (h : EndsInObject inner) (p : OpenPhrase) :
    EndsInObject (p :: inner) := by
  obtain ⟨t, ms, h⟩ := h
  cases inner with
  | nil => cases h
  | cons q sp => exact ⟨t, ms, h⟩

theorem EndsInObject.tail {p : OpenPhrase} {inner : List OpenPhrase} (h : EndsInObject (p :: inner)) :
    inner = [] ∨ EndsInObject inner := by
  obtain ⟨t, ms, h⟩ := h
  cases inner with
  | nil => exact Or.inl rfl
  | cons q sp => exact Or.inr ⟨t, ms, h⟩

/-- A member or a collection in a child is in an object. -/
theorem EndsInObject.tail_of_container {p : OpenPhrase} {inner : List OpenPhrase} (h : EndsInObject (p :: inner))
    (hc : p.isContainer = true) : EndsInObject inner := by
  rcases h.tail with rfl | h
  · obtain ⟨t, ms, h⟩ := h
    cases h
    cases hc
  · exact h

@[simp] theorem baseMode_add (p : OpenPhrase) (more : List ItemPhrase) (sp : List OpenPhrase) (mode : SpaceMode) :
    baseMode (p.add more :: sp) mode = baseMode (p :: sp) mode := by
  cases p <;> rfl

@[simp] theorem baseMode_opened (p : OpenPhrase) (sp : List OpenPhrase) (mode : SpaceMode) :
    baseMode (p.opened :: sp) mode = baseMode (p :: sp) mode := by
  cases p <;> rfl

@[simp] theorem hasCollection_add (p : OpenPhrase) (more : List ItemPhrase) (sp : List OpenPhrase) :
    hasCollection (p.add more :: sp) = hasCollection (p :: sp) := by
  cases p <;> rfl

@[simp] theorem hasCollection_opened (p : OpenPhrase) (sp : List OpenPhrase) :
    hasCollection (p.opened :: sp) = hasCollection (p :: sp) := by
  cases p <;> rfl

/-- Without a collection in it, a child leaves the mode as it is. -/
theorem baseMode_of_not_hasCollection {sp : List OpenPhrase} (h : hasCollection sp = false) (mode : SpaceMode) :
    baseMode sp mode = mode := by
  induction sp with
  | nil => rfl
  | cons p sp ih =>
    cases p with
    | object _ _ => exact ih h
    | member _ _ => exact ih h
    | collection _ _ _ _ => cases h

/-! ### The buffer -/

theorem pushAll_atStart {b : Buffer} (h : b.atStart = false) (s : String) : (b.pushAll s).atStart = false := by
  unfold Buffer.pushAll
  induction s.toList generalizing b with
  | nil => exact h
  | cons c cs ih =>
    refine ih ?_
    unfold Buffer.push
    split
    · exact h
    · split
      · split <;> simp_all
      · rfl

theorem take_atStart {b : Buffer} (h : b.atStart = false) (sibling : Bool) : (b.take sibling).2.atStart = false := by
  cases hm : b.mode <;> simp [Buffer.take, hm, h]

/-- Before a sibling the start of the text is passed, whatever it was. -/
theorem take_true_atStart {b : Buffer} (h : b.mode = .collapse) : (b.take true).2.atStart = false := by
  simp [Buffer.take, h]

/-! ### Acts -/

namespace Draft

variable {g g' : Draft} {a : Act} {mode : SpaceMode}

/-- **What a child leaves behind.** An act in a child stays in it, or it ends the child. -/
theorem Move.inside (m : g.Move a g') {inner rest : List OpenPhrase} (hs : g.spine = inner ++ rest)
    (i : Inside mode inner g.buffer) :
    (∃ inner', g'.spine = inner' ++ rest ∧ Inside mode inner' g'.buffer) ∨
      ∃ type members, inner = [.object type members] ∧ a = .endObject ∧ g'.buffer = g.buffer ∧
        ∀ p sp, rest = p :: sp → g'.spine = p.add [.object (.mk type members)] :: sp := by
  obtain ⟨child, base, atStart⟩ := i
  cases inner with
  | nil => obtain ⟨_, _, child⟩ := child; cases child
  | cons p inner =>
    rw [List.cons_append] at hs
    cases m with
    | declare decl _ h => rw [h] at hs; cases hs
    | startRoot type _ h => rw [h] at hs; cases hs
    | @startChild q sp type h hc =>
      rw [h] at hs
      obtain ⟨rfl, rfl⟩ := List.cons.inj hs
      refine Or.inl ⟨.object type [] :: (q.add (pieceItems (g.buffer.take true).1)).opened :: inner, by simp, ?_⟩
      refine ⟨((child.tail_of_container hc).cons _).cons _, by simpa [baseMode] using base, fun hm hn => ?_⟩
      have none : hasCollection (q :: inner) = false := by simpa [hasCollection] using hn
      rw [baseMode_of_not_hasCollection none] at base
      exact take_true_atStart (base.trans hm)
    | @endRoot type members h =>
      rw [h] at hs
      obtain ⟨rfl, hnil⟩ := List.cons.inj hs
      obtain ⟨rfl, rfl⟩ := List.append_eq_nil_iff.mp hnil.symm
      exact Or.inr ⟨type, members, rfl, rfl, rfl, fun p sp hp => by cases hp⟩
    | @endChild type members q sp h =>
      rw [h] at hs
      obtain ⟨rfl, hrest⟩ := List.cons.inj hs
      cases inner with
      | nil =>
        refine Or.inr ⟨type, members, rfl, rfl, rfl, fun p sp' hp => ?_⟩
        rw [List.nil_append, hp] at hrest
        obtain ⟨rfl, rfl⟩ := List.cons.inj hrest
        rfl
      | cons r inner =>
        obtain ⟨rfl, rfl⟩ := List.cons.inj hrest
        refine Or.inl ⟨q.add [.object (.mk type members)] :: inner, rfl, ?_, by simpa [baseMode] using base,
          fun hm hn => atStart hm (by simpa [hasCollection] using hn)⟩
        have ends : EndsInObject (q :: inner) := by
          rcases child.tail with h | h
          · cases h
          · exact h
        cases q with
        | object t ms => exact ends
        | member _ _ => exact (ends.tail_of_container rfl).cons _
        | collection _ _ _ _ => exact (ends.tail_of_container rfl).cons _
    | @startMember type members sp m h =>
      rw [h] at hs
      obtain ⟨rfl, rfl⟩ := List.cons.inj hs
      exact Or.inl ⟨.member m [] :: .object type members :: inner, rfl, child.cons _, base, atStart⟩
    | @endMember m items type members sp h =>
      rw [h] at hs
      obtain ⟨rfl, hrest⟩ := List.cons.inj hs
      have ends := child.tail_of_container rfl
      cases inner with
      | nil => obtain ⟨_, _, ends⟩ := ends; cases ends
      | cons r inner =>
        obtain ⟨rfl, rfl⟩ := List.cons.inj hrest
        refine Or.inl ⟨_ :: inner, rfl, endsInObject_object _ _ ends.tail, by simpa [baseMode] using base,
          fun hm hn => ?_⟩
        exact take_atStart (atStart hm hn) false
    | @put type members sp m i b h hi hb =>
      rw [h] at hs
      obtain ⟨rfl, rfl⟩ := List.cons.inj hs
      refine Or.inl ⟨_ :: inner, rfl, endsInObject_object _ _ child.tail, ?_, fun hm hn => ?_⟩
      · rcases hb with rfl | rfl
        · exact base
        · simpa [baseMode] using base
      · rcases hb with rfl | rfl
        · exact atStart hm hn
        · exact take_atStart (atStart hm hn) true
    | @startItems type members sp m _ h =>
      rw [h] at hs
      obtain ⟨rfl, rfl⟩ := List.cons.inj hs
      exact Or.inl ⟨.collection m false g.buffer.mode [] :: .object type members :: inner, rfl, child.cons _, base,
        fun _ hn => by cases hn⟩
    | @endItems m opened outerMode items type members sp h =>
      rw [h] at hs
      obtain ⟨rfl, hrest⟩ := List.cons.inj hs
      have ends := child.tail_of_container rfl
      cases inner with
      | nil => obtain ⟨_, _, ends⟩ := ends; cases ends
      | cons r inner =>
        obtain ⟨rfl, rfl⟩ := List.cons.inj hrest
        exact Or.inl ⟨_ :: inner, rfl, endsInObject_object _ _ ends.tail, base, fun _ _ => rfl⟩
    | @text q sp s h hc =>
      rw [h] at hs
      obtain ⟨rfl, rfl⟩ := List.cons.inj hs
      exact Or.inl ⟨q :: inner, rfl, child, by simpa using base, fun hm hn => pushAll_atStart (atStart hm hn) s⟩

/-! ## A collection that is filled -/

/-- A collection and what it has gathered: it is the innermost phrase, or the last thing in it is a child that is still
open. -/
inductive Filling (m : Member) (mode outerMode : SpaceMode) (outer : List OpenPhrase) : List (Flow Unit) → Draft → Prop
  | innermost {g : Draft} {flow : List (Flow ObjectPhrase)} {items : List (Laid ObjectPhrase)} {opened : Bool} :
      g.spine = .collection m opened outerMode (items.map .ofLaid) :: outer → Gathers mode flow items g.buffer →
      Filling m mode outerMode outer (flow.map .erase) g
  | inChild {g : Draft} {flow : List (Flow ObjectPhrase)} {items : List (Laid ObjectPhrase)} {b : Buffer}
      {inner : List OpenPhrase} :
      g.spine = inner ++ .collection m true outerMode ((items ++ laidPieces (b.take true).1).map .ofLaid) :: outer →
      Inside mode inner g.buffer → Gathers mode flow items b →
      Filling m mode outerMode outer (flow.map .erase ++ [.child ()]) g

theorem map_ofLaid_laidPieces (p : Option Piece) : (laidPieces p).map ItemPhrase.ofLaid = pieceItems p := by
  cases p <;> rfl

variable {m : Member} {outerMode : SpaceMode} {outer : List OpenPhrase} {log log' : List (Flow Unit)}

/-- Acts go on with the flow of a collection as long as it stays open. -/
theorem Filling.move (f : Filling m mode outerMode outer log g) (h : g.Sound) (v : g.Move a g')
    (hd : outer.length + 1 ≤ g'.spine.length) :
    Filling m mode outerMode outer (log ++ if g.spine.length = outer.length + 1 then a.flow else []) g' := by
  cases f with
  | @innermost _ flow items opened hs hg =>
    have top : g.spine.length = outer.length + 1 := by simp [hs]
    rw [if_pos top]
    cases v with
    | declare decl _ h => rw [h] at hs; cases hs
    | startRoot type _ h => rw [h] at hs; cases hs
    | @startChild q sp type hq hc =>
      rw [hq] at hs
      obtain ⟨rfl, rfl⟩ := List.cons.inj hs
      have spine : ((OpenPhrase.collection m opened outerMode (items.map .ofLaid)).add
          (pieceItems (g.buffer.take true).1)).opened =
          .collection m true outerMode ((items ++ laidPieces (g.buffer.take true).1).map .ofLaid) := by
        rw [List.map_append, map_ofLaid_laidPieces]
        rfl
      have inside : Inside mode [.object type []] (g.buffer.take true).2 := by
        refine ⟨⟨type, [], rfl⟩, by simpa [baseMode] using hg.mode_eq, fun hm _ => take_true_atStart ?_⟩
        rw [hg.mode_eq, hm]
      exact .inChild (by rw [spine_withSpine, spine]; rfl) inside hg
    | endRoot h => rw [h] at hs; cases hs
    | endChild h => rw [h] at hs; cases hs
    | startMember _ h => rw [h] at hs; cases hs
    | endMember h => rw [h] at hs; cases hs
    | put _ _ h => rw [h] at hs; cases hs
    | startItems _ _ h => rw [h] at hs; cases hs
    | @endItems _ _ _ _ type members sp he =>
      rw [he] at hs
      obtain ⟨-, rfl⟩ := List.cons.inj hs
      simp only [spine_withSpine, List.length_cons] at hd
      omega
    | @text q sp s hq hc =>
      rw [hq] at hs
      obtain ⟨rfl, rfl⟩ := List.cons.inj hs
      have log : flow.map Flow.erase ++ [.text s] = (flow ++ [Flow.text s]).map Flow.erase := by simp [Flow.erase]
      rw [Act.flow, log]
      exact .innermost rfl (hg.text s)
  | @inChild _ flow items b inner hs hi hg =>
    have above : g.spine.length ≠ outer.length + 1 := by
      obtain ⟨t, ms, hl⟩ := hi.child
      cases inner with
      | nil => cases hl
      | cons p inner => simp only [hs, List.length_append, List.length_cons]; omega
    rw [if_neg above, List.append_nil]
    rcases v.inside hs hi with ⟨inner', hs', hi'⟩ | ⟨type, members, rfl, rfl, hb, hs'⟩
    · exact .inChild hs' hi' hg
    · have quiet := h.quiet (by simp [hs, OpenPhrase.isContainer])
      have gap : g'.buffer.AtGap mode false := by
        rw [hb]
        exact ⟨quiet.1, quiet.2, fun hm => hi.atStart hm rfl, hi.base⟩
      have log : flow.map Flow.erase ++ [.child ()] =
          (flow ++ [Flow.child (ObjectPhrase.mk type members)]).map Flow.erase := by
        simp [Flow.erase]
      have spine : g'.spine = .collection m true outerMode
          ((items ++ laidPieces (b.take true).1 ++ [Laid.child (ObjectPhrase.mk type members)]).map .ofLaid) :: outer := by
        rw [hs' _ _ rfl]
        simp [OpenPhrase.add, ItemPhrase.ofLaid]
      rw [log]
      exact .innermost spine (hg.child (.mk type members) gap)

/-- So do runs. -/
theorem Filling.run {depth : Nat} (f : Filling m mode outerMode outer log g) (h : g.Sound) (r : Run depth g log' g')
    (hd : depth = outer.length + 1) : Filling m mode outerMode outer (log ++ log') g' := by
  induction r with
  | refl => simpa using f
  | act r v hd' ih =>
    subst hd
    rw [← List.append_assoc]
    exact ih.move (r.sound h) v hd'

/-- As long as anything stays open, no namespace is declared. -/
theorem Run.decls_eq {depth : Nat} (r : Run depth g log g') (hd : 0 < depth) (hg : depth ≤ g.spine.length) :
    g'.decls = g.decls := by
  induction r with
  | refl => rfl
  | @act g₁ g₂ flow a r v _ ih =>
    rw [← ih]
    cases v with
    | declare decl _ hs =>
      have := r.depth_le hg
      rw [hs] at this
      simp only [List.length_nil] at this
      omega
    | _ => rfl

end Draft

/-! ## Collections of a run -/

/-- Whether a step begins a collection that collapses or preserves its text. -/
def Step.Opens (preserve : Bool) : Step → Prop
  | .startItems _ p | .startContent p => p = preserve
  | _ => False

/-- What a collection leaves in its object: nothing if nothing was put into it. -/
def MemberPhrase.collect (m : Member) : List ItemPhrase → List MemberPhrase
  | [] => []
  | i :: is => [.mk m true (i :: is)]

/-- An item as text, with a mark for an object. -/
def ItemPhrase.marked (k : Char) : ItemPhrase → String
  | .object _ => String.ofList [k]
  | .value v => v.display

/-- A text as the one run that holds it, or nothing if it is empty. -/
def runOf (s : String) : List ItemPhrase :=
  if s.isEmpty then [] else [.object (.mk .run [.mk runText false [.value (.text s)]])]

namespace Draft

variable {g : Draft} {preserve : Bool}

/-- Where a collection can begin, and what it begins with. -/
theorem Sound.opens (h : g.Sound) {s : Step} (hs : s.Opens preserve) {w : Writer}
    (hw : s.write.run g.writer = .ok () w) :
    ∃ type members sp m, g.spine = .object type members :: sp ∧
      w = (g.withSpine (.collection m false g.buffer.mode [] :: .object type members :: sp)
        (.empty (.ofPreserve preserve))).writer := by
  have items : ∀ ref, (Write.startItems ref preserve).run g.writer = .ok () w →
      ∃ type members sp m, g.spine = .object type members :: sp ∧
        w = (g.withSpine (.collection m false g.buffer.mode [] :: .object type members :: sp)
          (.empty (.ofPreserve preserve))).writer := by
    intro ref hw
    rcases g.object_or_fails ref with ⟨type, members, sp, m, hsp, hm⟩ | hf
    · rw [startItems_object h hsp hm preserve] at hw
      cases hw
      exact ⟨type, members, sp, m, hsp, rfl⟩
    · obtain ⟨e, -, he⟩ := startItems_fails h hf preserve
      rw [he] at hw
      cases hw
  cases s with
  | startItems ref p => cases hs; exact items ref hw
  | startContent p =>
    cases hs
    rcases Write.run_contentProperty g.writer with ⟨m, hm⟩ | ⟨e, he⟩
    · rw [Step.write, Write.startContent, Write.run_bind_ok hm] at hw
      exact items _ hw
    · rw [Step.write, Write.startContent, Write.run_bind_error he] at hw
      cases hw
  | _ => cases hs

/-- What a collection leaves when it ends after what it has gathered. -/
theorem closed_filled {m : Member} {opened : Bool} {outerMode : SpaceMode} {items last : List ItemPhrase}
    (ho : opened = true ↔ items ≠ []) :
    ((OpenPhrase.collection m opened outerMode items).add last).closed = MemberPhrase.collect m (items ++ last) := by
  cases items with
  | nil =>
    have : opened = false := by cases opened <;> simp_all
    cases last <;> simp [OpenPhrase.add, OpenPhrase.closed, MemberPhrase.collect, this]
  | cons i is =>
    have : opened = true := ho.mpr (by simp)
    simp [OpenPhrase.add, OpenPhrase.closed, MemberPhrase.collect, this]

end Draft

/-- What is laid out as collapsed text reads the same as items. -/
theorem map_marked_layout {k : Char} (flow : List (Flow ObjectPhrase)) :
    ((layout .collapse flow).map ItemPhrase.ofLaid).map (·.marked k) = (layout .collapse flow).map (·.marked k) := by
  rw [List.map_map]
  refine List.map_congr_left fun l hl => ?_
  rcases l with (s | s) | o
  · rfl
  · exact absurd hl (Text.verbatim_not_mem_layout s flow)
  · rfl

theorem map_marked_erase {k : Char} (flow : List (Flow ObjectPhrase)) :
    (flow.map Flow.erase).map (·.marked k) = flow.map (·.marked k) := by
  rw [List.map_map]
  exact List.map_congr_left fun f _ => by cases f <;> rfl

/-- What is laid out verbatim, as items. -/
theorem map_ofLaid_layout_preserve (flow : List (Flow ObjectPhrase)) :
    (layout .preserve flow).map ItemPhrase.ofLaid =
      runOf (Text.gaps flow).1 ++ (Text.gaps flow).2.flatMap fun c => .object c.1 :: runOf c.2 := by
  have piece : ∀ s, (laidPieces (Text.pieceOf .preserve s)).map ItemPhrase.ofLaid = runOf s := by
    intro s
    cases hs : s.isEmpty <;> simp [Text.pieceOf, runOf, laidPieces, hs, ItemPhrase.ofLaid, ItemPhrase.ofPiece]
  rw [Text.layout_preserve, List.map_append, piece, List.map_flatMap]
  congr 1
  refine List.flatMap_congr fun c _ => ?_
  rw [List.map_cons, piece]
  rfl

/-- **The text of a collection.** In any run, a collection that begins with an accepted step and whose scope is the
innermost again after `body`, without having been left in between, can end there. It leaves in the stream what its flow
is laid out as: in a collapsing collection, with a mark for each child, the collapsed text of the flow; in one that
preserves, each gap in one run of its own, or nothing for an empty gap. -/
theorem collection_text (mode : ValueMode) (theme : Style.Theme) (before : List Step) (opening : Step) (body : List Step)
    {preserve : Bool} {w : Writer} (opens : opening.Opens preserve)
    (began : opening.write.run (({ mode, theme } : Writer).run before) = .ok () w)
    (stays : w.StaysAt w.scopes.length body) (back : (w.run body).scopes.length = w.scopes.length) :
    ∃ (m : Member) (flow : List (Flow ObjectPhrase)) (items : List ItemPhrase) (w' : Writer),
      (∃ outerMode, w.scopes.head? = some (.items m false outerMode)) ∧
      flow.map Flow.erase = w.flow w.scopes.length body ∧
      Write.endItems.run (w.run body) = .ok () w' ∧
      w'.sent.toList =
        (({ mode, theme } : Writer).run before).sent.toList ++ membersSignals (MemberPhrase.collect m items) ∧
      (preserve = false → ∀ k, Text.isSpace k = false →
        String.join (items.map (·.marked k)) =
          Text.collapse (String.join ((w.flow w.scopes.length body).map (·.marked k)))) ∧
      (preserve = true →
        items = runOf (Text.gaps flow).1 ++ (Text.gaps flow).2.flatMap fun c => .object c.1 :: runOf c.2) := by
  obtain ⟨g₀, sound₀, hw₀⟩ := exists_draft mode theme before
  rw [hw₀] at began ⊢
  obtain ⟨type, members, sp, m, hs₀, hw⟩ := sound₀.opens opens began
  have sound₁ := (Draft.Move.startItems m (.ofPreserve preserve) hs₀).sound sound₀
  generalize hg₁ : g₀.withSpine (.collection m false g₀.buffer.mode [] :: .object type members :: sp)
    (.empty (.ofPreserve preserve)) = g₁ at hw sound₁
  subst hw
  -- what is written while the collection is open
  obtain ⟨g₂, run, hw₂⟩ := sound₁.script_run body stays
  have sound₂ := run.sound sound₁
  have depth : g₁.writer.scopes.length = (OpenPhrase.object type members :: sp).length + 1 := by
    rw [← hg₁]
    simp
  have filling : Draft.Filling m (.ofPreserve preserve) g₀.buffer.mode (.object type members :: sp) [] g₁ := by
    rw [← hg₁]
    have gathers : Gathers (.ofPreserve preserve) ([] : List (Flow ObjectPhrase)) []
      (g₀.withSpine (.collection m false g₀.buffer.mode [] :: .object type members :: sp)
        (.empty (.ofPreserve preserve))).buffer := Gathers.nil _
    exact .innermost rfl gathers
  have filled := filling.run sound₁ run depth
  rw [hw₂, Draft.scopes_length] at back
  rw [List.nil_append] at filled
  generalize hlog : g₁.writer.flow g₁.writer.scopes.length body = log at filled run
  cases filled with
  | @inChild _ flow items b inner hs hi hg =>
    obtain ⟨t, ms, hl⟩ := hi.child
    cases inner with
    | nil => cases hl
    | cons p inner =>
      rw [depth, hs] at back
      simp only [List.length_append, List.length_cons] at back
      omega
  | @innermost _ flow items opened hs hg =>
    have ready := sound₂.ready
    rw [hs] at ready
    have ended := Draft.endItems_collection sound₂ hs
    rw [Draft.closed_filled ready.2, ← Draft.map_ofLaid_laidPieces, ← List.map_append, ← hg.close] at ended
    have scope : g₁.writer.scopes.head? = some (.items m false g₀.buffer.mode) := by rw [← hg₁]; rfl
    refine ⟨m, flow, (layout (.ofPreserve preserve) flow).map .ofLaid, _, ⟨_, scope⟩, rfl, by rw [hw₂]; exact ended,
      ?_, ?_, ?_⟩
    · have decls := run.decls_eq (by rw [depth]; omega) (by simp)
      have decls₁ : g₁.decls = g₀.decls := by rw [← hg₁]; rfl
      have none₂ := sound₂.root_eq_none hs
      have none₀ := sound₀.root_eq_none hs₀
      simp [Draft.writer, Draft.signals, Draft.withSpine, spineSignals, OpenPhrase.signals, hs₀, none₀, none₂, decls,
        decls₁]
    · rintro rfl k hk
      rw [map_marked_erase]
      have := Text.join_marked_layout hk flow
      rw [← this, ← map_marked_layout]
      rfl
    · rintro rfl
      exact map_ofLaid_layout_preserve flow

/-- In a paragraph, with a line break between two texts. -/
theorem collection_text_paragraph :
    ∃ (flow : List (Flow ObjectPhrase)) (items : List ItemPhrase) (w' : Writer),
      flow.map Flow.erase = [.text " a ", .child (), .text "b  c "] ∧
      Write.endItems.run (({ mode := .native, theme := {} } : Writer).run
        [.startObject "Paragraph", .startContent false, .text " a ", .lineBreak, .text "b  c "]) = .ok () w' ∧
      String.join (items.map (·.marked '|')) = Text.collapse " a |b  c " := by
  obtain ⟨m, flow, items, w', -, hflow, ended, -, collapsed, -⟩ :=
    collection_text .native {} [.startObject "Paragraph"] (.startContent false)
      [.text " a ", .lineBreak, .text "b  c "] rfl rfl (by decide) rfl
  exact ⟨flow, items, w', hflow, ended, collapsed rfl '|' (by decide)⟩

end FlowDoc.Xaml
