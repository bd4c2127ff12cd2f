import FlowDoc.Proofs.Render.Composed

/-!
# The scopes around what is written

What is written whole leaves the open scopes as it finds them, but for a collection on top that it may open
(`Settled`). Operations that start or end something add or take one scope (`scoped_startObjectOf` and so on), and what
is composed adds none (**`Composed.keepsScopes`**). All of this holds from every state of a writer.
-/

namespace FlowDoc.Render

open Xaml

/-- The same scopes, but for a collection on top that may have been opened. -/
def Settled (before after : List Scope) : Prop :=
  after = before ∨ ∃ member outerMode rest,
    before = .items member false outerMode :: rest ∧ after = .items member true outerMode :: rest

theorem Settled.refl (scopes : List Scope) : Settled scopes scopes := Or.inl rfl

theorem Settled.trans {s t u : List Scope} (hst : Settled s t) (htu : Settled t u) : Settled s u := by
  rcases hst with rfl | ⟨member, outerMode, rest, hs, rfl⟩
  · exact htu
  · rcases htu with rfl | ⟨_, _, _, ht, -⟩
    · exact Or.inr ⟨member, outerMode, rest, hs, rfl⟩
    · cases ht

/-- Scopes with no pending collection on top stay. -/
theorem Settled.eq_of_ne {s t : List Scope} (h : Settled s t)
    (hs : ∀ member outerMode rest, s ≠ .items member false outerMode :: rest) : t = s := by
  rcases h with rfl | ⟨member, outerMode, rest, hp, -⟩
  · rfl
  · exact absurd hp (hs member outerMode rest)

/-- Where an operation succeeds, its scopes before and after. -/
def Scoped {α : Type} (m : Write α) (R : List Scope → List Scope → Prop) : Prop :=
  ∀ w a w', m.run w = .ok a w' → R w.scopes w'.scopes

/-- An operation that keeps the scopes. -/
abbrev KeepsScopes (m : Write Unit) : Prop := Scoped m Settled

variable {α β : Type} {m : Write α} {f : α → Write β} {R S T : List Scope → List Scope → Prop}

theorem Scoped.mono (h : Scoped m R) (hRS : ∀ s t, R s t → S s t) : Scoped m S :=
  fun w a w' run => hRS _ _ (h w a w' run)

theorem Scoped.bind (hm : Scoped m R) (hf : ∀ a, Scoped (f a) S) (hRS : ∀ s t u, R s t → S t u → T s u) :
    Scoped (m >>= f) T := by
  intro w b w' run
  obtain ⟨a, v, first, second⟩ := Write.run_bind_eq_ok run
  exact hRS _ _ _ (hm w a v first) (hf a v b w' second)

/-- After what changes no scope. -/
theorem Scoped.after (hm : Scoped m Eq) (hf : ∀ a, Scoped (f a) S) : Scoped (m >>= f) S :=
  hm.bind hf fun _ _ _ hst htu => hst ▸ htu

theorem KeepsScopes.bind {m n : Write Unit} (hm : KeepsScopes m) (hn : KeepsScopes n) : KeepsScopes (do m; n) :=
  Scoped.bind hm (fun _ => hn) fun _ _ _ hst htu => hst.trans htu

/-! ## Operations -/

theorem scoped_send (s : Signal) : Scoped (Write.send s) Eq := by
  intro w a w' run
  cases run
  rfl

theorem scoped_lift (r : Except RenderError α) : Scoped (Write.lift r) Eq := by
  intro w a w' run
  rcases Write.run_lift r w with ⟨b, -, hb⟩ | ⟨e, -, he⟩
  · rw [hb] at run; cases run; rfl
  · rw [he] at run; cases run

/-- A member is looked up without a trace. -/
theorem resolve_inv {ref : MemberRef} {w w' : Writer} {member : Member}
    (run : (Write.resolve ref).run w = .ok member w') : w' = w := by
  rcases Write.run_resolve ref w with ⟨m, hm⟩ | ⟨e, he⟩
  · rw [hm] at run; cases run; rfl
  · rw [he] at run; cases run

theorem scoped_resolve (ref : MemberRef) : Scoped (Write.resolve ref) Eq := by
  intro w member w' run
  rw [resolve_inv run]

theorem scoped_openItems : Scoped Write.openItems Settled := by
  intro w a w' run
  rw [Write.openItems, Write.run_get_bind] at run
  split at run
  case h_1 member outerMode rest hs =>
    cases run
    exact Or.inr ⟨member, outerMode, rest, hs, rfl⟩
  case h_2 =>
    cases run
    exact .refl _

theorem scoped_sendPiece (piece : Text.Piece) : Scoped (Write.sendPiece piece) Eq := by
  intro w a w' run
  rw [Draft.sendPiece_run] at run
  cases run
  rfl

theorem scoped_flushText (beforeSibling : Bool) : Scoped (Write.flushText beforeSibling) Settled := by
  intro w a w' run
  rw [Write.flushText, Write.run_get_bind] at run
  generalize w.buffer.take beforeSibling = taken at run
  obtain ⟨piece?, buffer⟩ := taken
  cases piece? with
  | none =>
    cases run
    exact .refl _
  | some piece =>
    have sent : Scoped (do Write.openItems; Write.sendPiece piece) Settled :=
      scoped_openItems.bind (fun _ => scoped_sendPiece piece) fun _ _ _ hst htu => htu ▸ hst
    have rest : (do Write.openItems; Write.sendPiece piece).run { w with buffer } = .ok a w' := run
    have kept := sent _ a w' rest
    exact kept

theorem scoped_gather (operation : Operation) (s : String) : KeepsScopes (Write.gather operation s) := by
  intro w a w' run
  rw [Write.gather, Write.run_get_bind] at run
  split at run
  · cases run
    exact .refl _
  · cases run
    exact .refl _
  · cases run

/-- What starting an object has done where it succeeded. -/
theorem startObjectOf_inv {type : ElementType} {w w' : Writer} {u : Unit}
    (run : (Write.startObjectOf type).run w = .ok u w') :
    ∃ v₁ v₂ : Writer, Write.openItems.run w = .ok () v₁ ∧ (Write.flushText true).run v₁ = .ok () v₂ ∧
      w' = { v₂ with
        sent := v₂.sent.push (.startObject type)
        rootStarted := true
        scopes := .object type :: v₂.scopes } := by
  rw [Write.startObjectOf, Write.run_get_bind] at run
  have started : (do
      Write.openItems
      Write.flushText true
      Write.send (.startObject type)
      modify fun w => { w with rootStarted := true, scopes := .object type :: w.scopes } : Write Unit).run w =
      .ok u w' := by
    split at run
    · cases run
    · split at run
      · cases run
      · exact run
    · exact run
  obtain ⟨_, v₁, opened, rest⟩ := Write.run_bind_eq_ok started
  obtain ⟨_, v₂, flushed, rest⟩ := Write.run_bind_eq_ok rest
  cases rest
  exact ⟨v₁, v₂, opened, flushed, rfl⟩

/-- An object is put on what it starts in, which may be opened for it. -/
theorem scoped_startObjectOf (type : ElementType) :
    Scoped (Write.startObjectOf type) fun s t => ∃ u, Settled s u ∧ t = .object type :: u := by
  intro w a w' run
  obtain ⟨v₁, v₂, opened, flushed, rfl⟩ := startObjectOf_inv run
  exact ⟨v₂.scopes, (scoped_openItems w _ v₁ opened).trans (scoped_flushText true v₁ _ v₂ flushed), rfl⟩

theorem scoped_endObject : Scoped Write.endObject fun s t => ∃ type, s = .object type :: t := by
  intro w a w' run
  rw [Write.endObject, Write.run_get_bind] at run
  split at run
  case h_1 type rest hs =>
    cases run
    exact ⟨type, by simp [hs]⟩
  case h_2 => cases run
  case h_3 => cases run

/-- What starting a member has done where it succeeded. -/
theorem startMember_inv {ref : MemberRef} {w w' : Writer} {u : Unit}
    (run : (Write.startMember ref).run w = .ok u w') :
    ∃ member, w' = { w with sent := w.sent.push (.startMember member), scopes := .member :: w.scopes } := by
  rw [Write.startMember, Write.run_get_bind] at run
  cases hs : w.scopes with
  | nil => simp only [hs] at run; cases run
  | cons s rest =>
    cases s with
    | object type =>
      simp only [hs] at run
      by_cases pending : w.buffer.isPending = true
      · rw [if_pos pending] at run; cases run
      · rw [if_neg pending] at run
        obtain ⟨member, v, resolved, rest⟩ := Write.run_bind_eq_ok run
        obtain rfl : v = w := resolve_inv resolved
        cases rest
        exact ⟨member, by rw [← hs]⟩
    | member => simp only [hs] at run; cases run
    | items _ _ _ => simp only [hs] at run; cases run

theorem scoped_startMember (ref : MemberRef) : Scoped (Write.startMember ref) fun s t => t = .member :: s := by
  intro w a w' run
  obtain ⟨member, rfl⟩ := startMember_inv run
  rfl

/-- What has a member on top keeps it. -/
theorem Settled.member {s t : List Scope} (h : Settled (.member :: s) t) : t = .member :: s :=
  h.eq_of_ne fun _ _ _ hs => by cases hs

theorem scoped_endMember : Scoped Write.endMember fun s t => s = .member :: t := by
  intro w a w' run
  rw [Write.endMember, Write.run_get_bind] at run
  split at run
  case h_1 rest hs =>
    obtain ⟨_, v, flushed, popped⟩ := Write.run_bind_eq_ok run
    have kept := scoped_flushText false w _ v flushed
    rw [hs] at kept
    have scopes := kept.member
    cases popped
    show w.scopes = .member :: v.scopes.tail
    rw [hs, scopes]
    rfl
  case h_2 => cases run

theorem scoped_startItems (ref : MemberRef) (preserve : Bool) :
    Scoped (Write.startItems ref preserve) fun s t => ∃ member outerMode, t = .items member false outerMode :: s := by
  have started : Scoped (do
      let member ← Write.resolve ref
      modify fun w =>
        { w with
          buffer := .empty (.ofPreserve preserve)
          scopes := .items member false w.buffer.mode :: w.scopes })
      fun s t => ∃ member outerMode, t = .items member false outerMode :: s := by
    refine (scoped_resolve ref).after fun member => ?_
    intro w a w' run
    cases run
    exact ⟨member, _, rfl⟩
  intro w a w' run
  rw [Write.startItems, Write.run_get_bind] at run
  cases hs : w.scopes with
  | nil => simp only [hs] at run; cases run
  | cons s rest =>
    cases s with
    | object type =>
      simp only [hs] at run
      by_cases pending : w.buffer.isPending = true
      · rw [if_pos pending] at run; cases run
      · rw [if_neg pending] at run; rw [← hs]; exact started w a w' run
    | member => simp only [hs] at run; cases run
    | items _ opened _ => cases opened <;> simp only [hs] at run <;> cases run

theorem scoped_endItems :
    Scoped Write.endItems fun s t => ∃ member opened outerMode, s = .items member opened outerMode :: t := by
  intro w a w' run
  rw [Write.endItems, Write.run_get_bind] at run
  split at run
  case h_1 member opened outerMode rest hs =>
    obtain ⟨_, v, flushed, ended⟩ := Write.run_bind_eq_ok run
    have kept := scoped_flushText false w _ v flushed
    have top : ∃ opened', v.scopes = .items member opened' outerMode :: rest := by
      rw [hs] at kept
      rcases kept with hv | ⟨_, _, _, hp, hv⟩
      · exact ⟨opened, hv⟩
      · cases hp
        exact ⟨true, hv⟩
    obtain ⟨opened', hv⟩ := top
    rw [Write.run_get_bind, hv] at ended
    refine ⟨member, opened, outerMode, ?_⟩
    rw [hs]
    cases opened' with
    | true => cases ended; rfl
    | false => cases ended; rfl
  case h_2 => cases run

/-! ## What is composed -/

/-- Whole objects keep the scopes. -/
theorem KeepsScopes.object (type : ElementType) {body : Write Unit} (hb : KeepsScopes body) :
    KeepsScopes (object type body) := by
  intro w a w' run
  obtain ⟨_, v₁, started, rest⟩ := Write.run_bind_eq_ok run
  obtain ⟨_, v₂, built, ended⟩ := Write.run_bind_eq_ok rest
  obtain ⟨u, opened, hv₁⟩ := scoped_startObjectOf type w _ v₁ started
  have kept := hb v₁ _ v₂ built
  obtain ⟨type', hv₂⟩ := scoped_endObject v₂ _ w' ended
  have same := kept.eq_of_ne fun _ _ _ hs => by rw [hv₁] at hs; cases hs
  rw [hv₁, hv₂, List.cons.injEq] at same
  rw [same.2]
  exact opened

/-- So do whole members. -/
theorem KeepsScopes.member (ref : MemberRef) {body : Write Unit} (hb : KeepsScopes body) :
    KeepsScopes (do Write.startMember ref; body; Write.endMember) := by
  intro w a w' run
  obtain ⟨_, v₁, started, rest⟩ := Write.run_bind_eq_ok run
  obtain ⟨_, v₂, built, ended⟩ := Write.run_bind_eq_ok rest
  have hv₁ := scoped_startMember ref w _ v₁ started
  have kept := hb v₁ _ v₂ built
  have hv₂ := scoped_endMember v₂ _ w' ended
  rw [hv₁] at kept
  have same := kept.member
  rw [hv₂, List.cons.injEq] at same
  exact Or.inl same.2

/-- And so do whole collections, however they start. -/
theorem KeepsScopes.collection {start body : Write Unit}
    (hs : Scoped start fun s t => ∃ member outerMode, t = .items member false outerMode :: s) (hb : KeepsScopes body) :
    KeepsScopes (do start; body; Write.endItems) := by
  intro w a w' run
  obtain ⟨_, v₁, started, rest⟩ := Write.run_bind_eq_ok run
  obtain ⟨_, v₂, built, ended⟩ := Write.run_bind_eq_ok rest
  obtain ⟨member, outerMode, hv₁⟩ := hs w _ v₁ started
  have kept := hb v₁ _ v₂ built
  obtain ⟨_, _, _, hv₂⟩ := scoped_endItems v₂ _ w' ended
  rw [hv₁, hv₂] at kept
  rcases kept with same | ⟨_, _, rest, hp, same⟩
  · rw [List.cons.injEq] at same
    exact Or.inl same.2
  · rw [List.cons.injEq] at hp same
    exact Or.inl (same.2.trans hp.2.symm)

theorem keepsScopes_send (s : Signal) : KeepsScopes (Write.send s) := (scoped_send s).mono fun _ _ h => Or.inl h.symm

theorem keepsScopes_memberValue (member : Member) (value : Scalar) : KeepsScopes (Write.memberValue member value) := by
  have spelled : ∀ r : Except RenderError String, KeepsScopes (do Write.send (.value (.text (← Write.lift r)))) :=
    fun r => (scoped_lift r).after fun s => keepsScopes_send _
  have reference : ∀ s : String, KeepsScopes (do
      Write.startObjectOf .staticExtension
      Write.startMember (.resolved .positionalParameters)
      Write.send (.value (.text s))
      Write.endMember
      Write.endObject) := by
    intro s
    have whole : KeepsScopes (Render.object .staticExtension (do
        Write.startMember (.resolved .positionalParameters)
        Write.send (.value (.text s))
        Write.endMember)) := .object _ (.member _ (keepsScopes_send _))
    simpa only [Render.object, bind_assoc] using whole
  intro w a w' run
  rw [Write.memberValue, Write.run_get_bind, Write.run_get_bind] at run
  cases hm : w.mode with
  | native => simp only [hm] at run; exact keepsScopes_send _ w a w' run
  | text =>
    cases value with
    | resourceKey key =>
      simp only [hm] at run
      by_cases known : w.theme.keyClass.contains key = true
      · rw [if_pos known] at run; exact reference _ w a w' run
      · rw [if_neg known] at run; exact spelled _ w a w' run
    | _ => simp only [hm] at run; exact spelled _ w a w' run

theorem scoped_contentProperty : Scoped Write.contentProperty Eq := by
  intro w a w' run
  rcases Write.run_contentProperty w with ⟨m, hm⟩ | ⟨e, he⟩
  · rw [hm] at run; cases run; rfl
  · rw [he] at run; cases run

theorem scoped_startContent (preserve : Bool) :
    Scoped (Write.startContent preserve) fun s t => ∃ member outerMode, t = .items member false outerMode :: s :=
  scoped_contentProperty.after fun member => scoped_startItems (.resolved member) preserve

/-- **What is composed keeps the scopes**, but for a collection on top that it may open. -/
theorem Composed.keepsScopes {top : Top} {m : Write Unit} (hc : Composed top m) : KeepsScopes m := by
  induction hc with
  | nothing => intro w a w' run; cases run; exact .refl _
  | fail he => intro w a w' run; cases run
  | andThen _ _ hm hn => exact hm.bind hn
  | gather operation s => exact scoped_gather operation s
  | object type _ hb => exact hb.object type
  | member ref hv =>
    exact (scoped_resolve ref).after fun member =>
      KeepsScopes.member (.resolved member) (keepsScopes_memberValue member _)
  | resource ref style =>
    intro w a w' run
    rw [Write.resource, Write.run_get_bind] at run
    have whole : KeepsScopes (do
        Write.startMember ref
        Render.object .staticResourceExtension (do
          Write.startMember (.resolved .positionalParameters)
          Write.memberValue .positionalParameters (.resourceKey (w.theme.keyOf style))
          Write.endMember)
        Write.endMember) :=
      .member ref (.object _ (.member _ (keepsScopes_memberValue _ _)))
    simp only [Render.object, bind_assoc] at whole
    exact whole w a w' run
  | collection ref preserve _ hb => exact .collection (scoped_startItems ref preserve) hb
  | content preserve _ hb => exact .collection (scoped_startContent preserve) hb

end FlowDoc.Render
