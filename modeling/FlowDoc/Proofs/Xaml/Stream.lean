import FlowDoc.Proofs.Xaml.Reception
import FlowDoc.Proofs.Xaml.Run

/-!
# The stream of a writer

Whatever a script does, what its writer sent is the start of a word of the grammar (`Sound.isWord_append`): everything
that is open can be closed (`exists_closed`). So every receiver takes all of it, and a record that is as deep at its end
as at its start is a whole word (**`run_stream`**).
-/

namespace FlowDoc.Xaml

/-! ## Closing what is open -/

/-- What a member or collection with one more object leaves in its object. -/
theorem OpenPhrase.closed_add_object {p : OpenPhrase} (hc : p.isContainer = true) (ho : p.opened = p)
    (o : ObjectPhrase) :
    ∃ c, membersSignals (p.add [.object o]).closed = p.signals ++ o.signals ++ [memberEnd c] := by
  rcases p with ⟨t, ms⟩ | ⟨m, items⟩ | ⟨m, _ | _, om, items⟩
  · cases hc
  · exact ⟨false, by simp [add, closed, signals, membersSignals, MemberPhrase.signals, ItemPhrase.signals, memberStart]⟩
  · simp [opened] at ho
  · exact ⟨true, by simp [add, closed, signals, membersSignals, MemberPhrase.signals, ItemPhrase.signals, memberStart]⟩

/-- An object can be completed to the root that it is a part of. -/
theorem exists_closed {type : ElementType} {members : List MemberPhrase} :
    ∀ (sp : List OpenPhrase), Nested (.object type members :: sp) → (∀ p ∈ sp, p.IsProper) →
      ∀ o : ObjectPhrase, o.IsProper →
        ∃ (root : ObjectPhrase) (rest : List Signal), root.IsProper ∧ root.signals = spineSignals sp ++ o.signals ++ rest
  | [], _, _, o, ho => ⟨o, [], ho, by simp [spineSignals]⟩
  | [p], h, _, _, _ => by obtain ⟨hp, hc, -⟩ := h.parent; cases hp; cases hc
  | p :: q :: sp, h, proper, o, ho => by
    obtain ⟨nested, hc, opened⟩ := h.parent
    obtain ⟨t, ms, rfl⟩ : ∃ t ms, q = .object t ms := by cases nested <;> first | exact ⟨_, _, rfl⟩ | cases hc
    obtain ⟨c, closed⟩ := OpenPhrase.closed_add_object hc opened o
    have hq : MembersProper ms := proper (.object t ms) (by simp)
    have hp : MembersProper (p.add [.object o]).closed := by
      refine ((proper p (by simp)).addObject ho).closed fun m outerMode items he => ?_
      cases p with
      | object _ _ => cases he
      | member _ _ => cases he
      | collection _ _ _ _ =>
        simp only [OpenPhrase.add, OpenPhrase.collection.injEq] at he
        simp [← he.2.2.2]
    -- the object around gets the member with `o` in it, and is completed in turn
    obtain ⟨root, rest, proper', signals⟩ := exists_closed sp nested.inner (fun r hr => proper r (by simp [hr]))
      (.mk t (ms ++ (p.add [.object o]).closed)) ((membersProper_append _ _).mpr ⟨hq, hp⟩)
    refine ⟨root, memberEnd c :: .endObject :: rest, proper', ?_⟩
    rw [signals]
    simp [spineSignals, ObjectPhrase.signals, closed, OpenPhrase.signals]

/-- An open member or collection, as part of the object that it leaves something in. -/
theorem OpenPhrase.signals_closed (p : OpenPhrase) (hc : p.isContainer = true) :
    ∃ rest, membersSignals p.closed = p.signals ++ rest := by
  rcases p with ⟨t, ms⟩ | ⟨m, items⟩ | ⟨m, _ | _, om, items⟩
  · cases hc
  · exact ⟨[memberEnd false], by simp [closed, signals, membersSignals, MemberPhrase.signals, memberStart]⟩
  · exact ⟨[], rfl⟩
  · exact ⟨[memberEnd true], by simp [closed, signals, membersSignals, MemberPhrase.signals, memberStart]⟩

namespace Draft

variable {g : Draft}

/-- What is open is the start of an object. -/
theorem Sound.exists_root (h : g.Sound) (hs : g.spine ≠ []) :
    ∃ (root : ObjectPhrase) (rest : List Signal), root.IsProper ∧ root.signals = spineSignals g.spine ++ rest := by
  cases hsp : g.spine with
  | nil => exact absurd hsp hs
  | cons p sp =>
    obtain ⟨nested, proper, ready⟩ := h.of_spine hsp
    by_cases hc : p.isContainer = true
    · obtain ⟨t, ms, sp, rfl⟩ : ∃ t ms sp', sp = .object t ms :: sp' := by
        cases nested <;> first | exact ⟨_, _, _, rfl⟩ | cases hc
      obtain ⟨tail, closed⟩ := p.signals_closed hc
      have hq : MembersProper ms := proper (.object t ms) (by simp)
      have hp : MembersProper p.closed := (proper p (by simp)).closed fun m outerMode items he => by
        subst he
        exact ready.2.mp rfl
      obtain ⟨root, rest, proper', signals⟩ := exists_closed sp nested.inner (fun r hr => proper r (by simp [hr]))
        (.mk t (ms ++ p.closed)) ((membersProper_append _ _).mpr ⟨hq, hp⟩)
      refine ⟨root, tail ++ .endObject :: rest, proper', ?_⟩
      rw [signals]
      simp [spineSignals, ObjectPhrase.signals, closed, OpenPhrase.signals]
    · obtain ⟨t, ms, rfl⟩ : ∃ t ms, p = .object t ms := by cases p <;> simp_all [OpenPhrase.isContainer]
      obtain ⟨root, rest, proper', signals⟩ := exists_closed sp nested (fun r hr => proper r (by simp [hr]))
        (.mk t ms) (proper (.object t ms) (by simp))
      refine ⟨root, .endObject :: rest, proper', ?_⟩
      rw [signals]
      simp [spineSignals, ObjectPhrase.signals, OpenPhrase.signals]

/-- **The stream so far can go on to a word.** -/
theorem Sound.isWord_append (h : g.Sound) : ∃ rest, IsWord (g.signals ++ rest) := by
  by_cases hs : g.spine = []
  · cases hr : g.root with
    | none =>
      refine ⟨(ObjectPhrase.mk .run []).signals, g.decls, .mk .run [], trivial, ?_⟩
      simp [signals, hr, hs, spineSignals]
    | some o =>
      refine ⟨[], g.decls, o, h.rootProper o (by simp [hr]), ?_⟩
      simp [signals, hr, hs, spineSignals]
  · obtain ⟨root, rest, proper, hroot⟩ := h.exists_root hs
    obtain ⟨p, sp, hsp⟩ := List.exists_cons_of_ne_nil hs
    refine ⟨rest, g.decls, root, proper, ?_⟩
    simp [signals, h.root_eq_none hsp, hroot]

end Draft

/-! ## Receivers -/

/-- A builder that takes a stream takes every start of it. -/
theorem Builder.receiveAll_of_append {b b' : Builder} {ss ts : List Signal} (h : b.receiveAll (ss ++ ts) = .ok b') :
    ∃ b'', b.receiveAll ss = .ok b'' := by
  rw [receiveAll_append] at h
  cases hs : b.receiveAll ss with
  | ok b'' => exact ⟨b'', rfl⟩
  | error e => rw [hs] at h; cases h

/-- A builder takes every word. -/
theorem IsWord.builder {signals : List Signal} (h : IsWord signals) : ∃ b, Builder.receiveAll {} signals = .ok b := by
  obtain ⟨decls, o, -, rfl⟩ := h
  rw [Builder.receiveAll_append_of (Builder.receiveAll_decls decls {} rfl rfl),
    Builder.receiveAll_root o _ rfl rfl]
  exact ⟨_, rfl⟩

/-- The depth after the signals of what is open: as many levels as there are phrases open on the stream. -/
theorem depthAfter?_open (p : OpenPhrase) (depth : Int) (hd : 0 ≤ depth) :
    depthAfter? depth (p.signals.map Event.ofSignal) = some (depth + if p.signals = [] then 0 else 1) := by
  have up : ¬ depth + 1 < 0 := by omega
  rcases p with ⟨t, ms⟩ | ⟨m, items⟩ | ⟨m, _ | _, om, items⟩
  · have inside := isLevel_members ms (depth + 1) (by omega)
    simp [OpenPhrase.signals, depthAfter?, Event.ofSignal, Event.depthChange, up, inside]
  · have inside := isLevel_items items (depth + 1) (by omega)
    simp [OpenPhrase.signals, depthAfter?, Event.ofSignal, Event.depthChange, up, inside]
  · simp [OpenPhrase.signals, depthAfter?]
  · have inside := isLevel_items items (depth + 1) (by omega)
    simp [OpenPhrase.signals, depthAfter?, Event.ofSignal, Event.depthChange, up, inside]

/-- While something is open the record is deeper than at its start. -/
theorem depthAfter?_spine {spine : List OpenPhrase} (h : Nested spine) :
    ∃ depth : Int, depthAfter? 0 ((spineSignals spine).map Event.ofSignal) = some depth ∧ 0 ≤ depth ∧
      (spine ≠ [] → 0 < depth) := by
  -- a phrase on top of others that are open adds one level or none
  have more : ∀ (p : OpenPhrase) (sp : List OpenPhrase) (depth : Int), 0 < depth →
      depthAfter? 0 ((spineSignals sp).map Event.ofSignal) = some depth →
      ∃ depth' : Int, depthAfter? 0 ((spineSignals (p :: sp)).map Event.ofSignal) = some depth' ∧ 0 ≤ depth' ∧
        (p :: sp ≠ [] → 0 < depth') := by
    intro p sp depth pos hd
    refine ⟨depth + if p.signals = [] then 0 else 1, ?_, by split <;> omega, fun _ => by split <;> omega⟩
    rw [spineSignals, List.map_append, depthAfter?_append, hd]
    exact depthAfter?_open p depth (by omega)
  induction h with
  | nil => exact ⟨0, rfl, by omega, by simp⟩
  | root type members =>
    refine ⟨1, ?_, by omega, fun _ => by omega⟩
    have := depthAfter?_open (.object type members) 0 (by omega)
    simpa [spineSignals, OpenPhrase.signals] using this
  | inMember type members _ ih => obtain ⟨d, hd, -, pos⟩ := ih; exact more _ _ d (pos (by simp)) hd
  | inCollection type members _ ih => obtain ⟨d, hd, -, pos⟩ := ih; exact more _ _ d (pos (by simp)) hd
  | member m items _ ih => obtain ⟨d, hd, -, pos⟩ := ih; exact more _ _ d (pos (by simp)) hd
  | collection m opened outerMode items _ ih => obtain ⟨d, hd, -, pos⟩ := ih; exact more _ _ d (pos (by simp)) hd

/-- The depth of a record of all that was sent. -/
theorem Draft.Sound.depthAfter? {g : Draft} (h : g.Sound) :
    ∃ depth : Int, Xaml.depthAfter? 0 (g.signals.map Event.ofSignal) = some depth ∧ (g.spine ≠ [] → 0 < depth) := by
  obtain ⟨depth, hd, -, pos⟩ := depthAfter?_spine h.nested
  have roots : IsLevel (g.root.toList.flatMap ObjectPhrase.signals) := by
    cases g.root with
    | none => exact isLevel_nil
    | some o => simpa using isLevel_object o
  refine ⟨depth, ?_, pos⟩
  rw [Draft.signals, List.map_append, depthAfter?_append, ((isLevel_decls g.decls).append roots) 0 (by omega)]
  exact hd

/-! ## The end of the stream -/

/-- The signals of an open phrase do not end with the start of a collection. -/
theorem OpenPhrase.last_signals {p : OpenPhrase}
    (hp : ∀ m outerMode items, p = .collection m true outerMode items → items ≠ []) :
    ∀ s ∈ p.signals.getLast?, s.isCollectionStart = false := by
  rcases p with ⟨t, ms⟩ | ⟨m, items⟩ | ⟨m, _ | _, om, items⟩
  · intro s hs
    rcases List.eq_nil_or_concat (membersSignals ms) with hn | ⟨l, x, hl⟩
    · simp only [signals, hn, List.getLast?_singleton, Option.mem_some_iff] at hs
      rw [← hs]
      rfl
    · obtain ⟨c, hc⟩ := last_membersSignals ms x (by simp [hl])
      have : s = x := by simpa [signals, hl, List.getLast?_cons, eq_comm] using hs
      rw [this, hc]
      cases c <;> rfl
  · intro s hs
    rcases List.eq_nil_or_concat (itemsSignals items) with hn | ⟨l, x, hl⟩
    · simp only [signals, hn, List.getLast?_singleton, Option.mem_some_iff] at hs
      rw [← hs]
      rfl
    · have : s = x := by simpa [signals, hl, List.getLast?_cons, eq_comm] using hs
      exact last_itemsSignals items s (by simp [hl, this])
  · simp [signals]
  · intro s hs
    obtain ⟨i, is, rfl⟩ := List.exists_cons_of_ne_nil (hp m om items rfl)
    rcases List.eq_nil_or_concat (itemsSignals (i :: is)) with hn | ⟨l, x, hl⟩
    · exact absurd hn (by simp [itemsSignals, i.signals_ne_nil])
    · have : s = x := by simpa [signals, hl, List.getLast?_cons, eq_comm] using hs
      exact last_itemsSignals (i :: is) s (by simp [hl, this])

/-- No stream ends with the start of a collection. -/
theorem Draft.Sound.last_signals {g : Draft} (h : g.Sound) : ∀ s ∈ g.signals.getLast?, s.isCollectionStart = false := by
  cases hs : g.spine with
  | nil =>
    intro s hl
    cases hr : g.root with
    | none =>
      have hd : s ∈ g.decls.map Signal.namespaceDecl := by
        simpa [signals, hr, hs, spineSignals] using List.mem_of_getLast? hl
      obtain ⟨d, -, rfl⟩ := List.mem_map.mp hd
      rfl
    | some o =>
      obtain ⟨type, members⟩ := o
      have : s = .endObject := by
        simpa [signals, hr, hs, spineSignals, ObjectPhrase.signals, List.getLast?_append, List.getLast?_cons, eq_comm]
          using hl
      rw [this]
      rfl
  | cons p sp =>
    obtain ⟨nested, -, ready⟩ := h.of_spine hs
    have filled : ∀ m outerMode items, p = .collection m true outerMode items → items ≠ [] := by
      rintro m outerMode items rfl
      exact ready.2.mp rfl
    by_cases hp : p.signals = []
    · -- then `p` is not opened on the stream, and the object that it is in is the last that is
      obtain ⟨t, ms, sp, rfl⟩ : ∃ t ms sp', sp = .object t ms :: sp' := by
        cases nested <;> first | exact ⟨_, _, _, rfl⟩ | simp [OpenPhrase.signals] at hp
      have hne : (OpenPhrase.object t ms).signals ≠ [] := by simp [OpenPhrase.signals]
      rw [signals, hs, spineSignals, spineSignals, hp, List.append_nil, ← List.append_assoc,
        List.getLast?_append_of_ne_nil _ hne]
      exact OpenPhrase.last_signals (by simp)
    · rw [signals, hs, spineSignals, ← List.append_assoc, List.getLast?_append_of_ne_nil _ hp]
      exact OpenPhrase.last_signals filled

/-! ## Runs -/

/-- All that a writer sends that is asked for the steps of a script, one after the other, whether they succeed or not. -/
def streamOf (mode : ValueMode) (theme : Style.Theme) (script : List Step) : List Signal :=
  (({ mode, theme } : Writer).run script).sent.toList

/-- **The stream of every run.** Both receivers take all of it; it is the start of a word, in which each collection starts
right before an item and no two values are neighbours; and a recorder that finishes has a whole word, or no object at
all. -/
theorem run_stream (mode : ValueMode) (theme : Style.Theme) (script : List Step) :
    (∃ b, Builder.receiveAll {} (streamOf mode theme script) = .ok b) ∧
    (∃ r, Recorder.receiveAll {} (streamOf mode theme script) = .ok r ∧
      r.events.toList = (streamOf mode theme script).map Event.ofSignal ∧
      ((∃ events, r.finish = .ok events) →
        IsWord (streamOf mode theme script) ∨
          ∃ decls : List NamespaceDecl, streamOf mode theme script = decls.map .namespaceDecl)) ∧
    (∃ rest, IsWord (streamOf mode theme script ++ rest)) ∧
    (streamOf mode theme script).IsChain Signal.MayPrecede ∧
    ∀ s ∈ (streamOf mode theme script).getLast?, s.isCollectionStart = false := by
  obtain ⟨g, sound, hw⟩ := exists_draft mode theme script
  have hsent : streamOf mode theme script = g.signals := by rw [streamOf, hw]; simp [Draft.writer]
  obtain ⟨rest, word⟩ := sound.isWord_append
  obtain ⟨b, hb⟩ := word.builder
  obtain ⟨depth, hd, pos⟩ := sound.depthAfter?
  have record := Recorder.receiveAll_of_depth g.signals {} hd
  have chain := List.IsChain.left_of_append (isWord_isChain word)
  rw [hsent]
  refine ⟨Builder.receiveAll_of_append hb, ⟨_, record, by simp, ?_⟩, ⟨rest, word⟩, chain, sound.last_signals⟩
  rintro ⟨events, finished⟩
  have level : depth = 0 := by
    by_cases hz : depth = 0
    · exact hz
    · simp [Recorder.finish, hz] at finished
  have closed : g.spine = [] := by
    by_contra hs
    have := pos hs
    omega
  cases hr : g.root with
  | none => exact Or.inr ⟨g.decls, by simp [Draft.signals, hr, closed, spineSignals]⟩
  | some o =>
    exact Or.inl ⟨g.decls, o, sound.rootProper o (by simp [hr]), by simp [Draft.signals, hr, closed, spineSignals]⟩

end FlowDoc.Xaml
