import FlowDoc.Config.Settings
import FlowDoc.Proofs.Config.LastValue

/-!
# The order of configured styles

The styles of a configuration come in no particular order. Two names that differ only in the case of their letters are
one role, and the style that comes last is the one of the role. So the options do not depend on the order exactly if
they cannot be had at all, or no two names of one role have different keys (**`Settings.options_orderFree_iff`**).
-/

namespace FlowDoc.Style

open Config

/-! ## Roles and names -/

namespace Role

theorem foldCase_name_injective {r t : Role} (h : foldCase r.name = foldCase t.name) : r = t := by
  revert h
  cases r <;> cases t <;> decide

theorem mem_all (r : Role) : r ∈ all := by cases r <;> decide

/-- The name of a role in any case, and no other name. -/
theorem ofName_eq_ok_iff {s : String} {r : Role} : ofName s = .ok r ↔ foldCase s = foldCase r.name := by
  unfold ofName
  cases found : all.find? fun r => foldCase r.name == foldCase s with
  | none =>
    have other : foldCase r.name ≠ foldCase s := by simpa using List.find?_eq_none.mp found r (mem_all r)
    simpa using fun h => other h.symm
  | some t =>
    have name : foldCase t.name = foldCase s := by simpa using List.find?_some found
    refine ⟨?_, fun h => ?_⟩
    · rintro ⟨⟩
      exact name.symm
    · exact congrArg Except.ok (foldCase_name_injective (name.trans h))

/-- A name is the name of a role also in another case. -/
theorem ofName_congr {s t : String} {r : Role} (hs : ofName s = .ok r) : ofName t = .ok r ↔ foldCase s = foldCase t := by
  rw [ofName_eq_ok_iff, ofName_eq_ok_iff.mp hs]
  exact eq_comm

end Role

/-! ## Overrides -/

namespace Overrides

/-- A style sets the key of the role that its name stands for. -/
def setter : Setter Overrides RenderError (String × String) Role ResourceKey where
  key e := Role.ofName e.1
  value e := ⟨e.2⟩
  put := insert
  find? := find?
  find?_put_self := find?_insert_self
  find?_put_of_ne o _ k _ h := find?_insert_of_ne o k h

/-- The key of a role, with what is found for it. -/
def keyOr (r : Role) (found : Option ResourceKey) : ResourceKey := found.getD r.defaultKey

/-- Styles that all have roles set no role to different keys if names that are alike up to case do not. -/
theorem isConsistent_entries {styles : List (String × String)} (valid : setter.IsValid styles) :
    IsConsistent (setter.entries styles) ↔
      ∀ e ∈ styles, ∀ f ∈ styles, Role.foldCase e.1 = Role.foldCase f.1 → e.2 = f.2 := by
  rw [valid.isConsistent_iff]
  refine forall₂_congr fun e he => forall₂_congr fun f _ => ?_
  obtain ⟨r, hr⟩ := valid e he
  have same : setter.key e = setter.key f ↔ Role.foldCase e.1 = Role.foldCase f.1 := by
    rw [hr, eq_comm]
    exact Role.ofName_congr hr
  rw [same]
  exact imp_congr_right fun _ => ⟨congrArg ResourceKey.name, congrArg ResourceKey.mk⟩

end Overrides

end FlowDoc.Style

namespace FlowDoc.Config

open Style

namespace Settings

section

variable [Uri.Domains]

/-! ## Options -/

/-- The base address of the options. -/
def base (s : Settings) : Except RenderError (Option Uri.Address) :=
  match s.baseUri with
  | none | some "" => .ok none
  | some uri => (Uri.parseBase uri).map some

/-- The options with overrides and a base address. -/
def optionsOf (s : Settings) (overrides : Overrides) (base : Option Uri.Address) : Render.Options :=
  { domains := inferInstance, baseUri := base, lineJoin := s.lineJoin, rawMarkup := s.rawMarkup
    theme := { overrides, keyClass := s.keyClass } }

theorem options_eq (s : Settings) :
    s.options = (Overrides.ofNames s.styles).bind fun o => s.base.map (s.optionsOf o) := by
  unfold options base
  generalize s.baseUri = given
  cases Overrides.ofNames s.styles with
  | error e => rfl
  | ok o =>
    rcases given with - | uri
    · rfl
    · by_cases empty : uri = ""
      · subst empty
        rfl
      · simp only [bind, Except.bind, Render.Options.withBaseUri]
        cases Uri.parseBase uri <;> rfl

theorem options_of_error {s : Settings} {e : RenderError} (h : Overrides.ofNames s.styles = .error e) :
    s.options = .error e := by
  rw [options_eq, h]
  rfl

theorem options_of_ok {s : Settings} {o : Overrides} (h : Overrides.ofNames s.styles = .ok o) :
    s.options = s.base.map (s.optionsOf o) := by
  rw [options_eq, h]
  rfl

/-! ## Order -/

/-- The settings with their styles in some order. -/
abbrev reorder (s : Settings) (styles : List (String × String)) : Settings := { s with styles }

/-- Whether the options fail for every order of the styles, or every order gives options with the same key for each
role. -/
def IsOrderFree (s : Settings) : Prop :=
  (∀ styles, styles.Perm s.styles → ∃ e, (s.reorder styles).options = .error e) ∨
    ∃ key : Role → ResourceKey, ∀ styles, styles.Perm s.styles →
      ∃ o, (s.reorder styles).options = .ok o ∧ ∀ r, o.theme.resolve r = key r

variable {s : Settings}

/-- Options that have a base address depend on the order as their overrides do. -/
theorem isOrderFree_of_base {base : Option Uri.Address} (h : s.base = .ok base) :
    s.IsOrderFree ↔ Overrides.setter.IsOrderFree Overrides.keyOr {} s.styles := by
  have given (styles : List (String × String)) : (s.reorder styles).base = .ok base := h
  constructor
  · rintro (fails | ⟨key, ok⟩)
    · refine Or.inl fun styles p => ?_
      obtain ⟨e, failed⟩ := fails styles p
      cases read : Overrides.ofNames styles with
      | error e => exact ⟨e, read⟩
      | ok o =>
        rw [options_of_ok read, given] at failed
        cases failed
    · refine Or.inr ⟨key, fun styles p => ?_⟩
      obtain ⟨o, had, seen⟩ := ok styles p
      cases read : Overrides.ofNames styles with
      | error e =>
        rw [options_of_error read] at had
        cases had
      | ok t =>
        rw [options_of_ok read, given] at had
        cases had
        exact ⟨t, read, seen⟩
  · rintro (fails | ⟨key, ok⟩)
    · refine Or.inl fun styles p => ?_
      obtain ⟨e, failed⟩ := fails styles p
      exact ⟨e, options_of_error failed⟩
    · refine Or.inr ⟨key, fun styles p => ?_⟩
      obtain ⟨t, read, seen⟩ := ok styles p
      refine ⟨s.optionsOf t base, ?_, seen⟩
      rw [options_of_ok (s := s.reorder styles) read, given]
      rfl

/-- Without a base address there are no options, in any order. -/
theorem options_of_base_error {e : RenderError} (h : s.base = .error e) (styles : List (String × String)) :
    ∃ e, (s.reorder styles).options = .error e := by
  cases read : Overrides.ofNames styles with
  | error e => exact ⟨e, options_of_error read⟩
  | ok o =>
    have given : (s.reorder styles).base = .error e := h
    exact ⟨e, by rw [options_of_ok read, given]; rfl⟩

/-- Options that have a base address fail at a style without a role. -/
theorem exists_options_error {base : Option Uri.Address} (h : s.base = .ok base) :
    (∃ e, s.options = .error e) ↔ ¬ Overrides.setter.IsValid s.styles := by
  constructor
  · rintro ⟨e, failed⟩ valid
    obtain ⟨o, read, -⟩ := Setter.exists_setAll valid {}
    rw [options_of_ok read, h] at failed
    cases failed
  · intro invalid
    obtain ⟨e, read⟩ := Setter.exists_setAll_error invalid {}
    exact ⟨e, options_of_error read⟩

/-- **The order of styles.** The options do not depend on the order of the styles exactly if there are none, or names
that are alike up to the case of their letters have the same key. -/
theorem options_orderFree_iff (s : Settings) :
    s.IsOrderFree ↔ (∃ e, s.options = .error e) ∨
      ∀ e ∈ s.styles, ∀ f ∈ s.styles, Role.foldCase e.1 = Role.foldCase f.1 → e.2 = f.2 := by
  cases h : s.base with
  | error e =>
    have fails := options_of_base_error h
    exact iff_of_true (Or.inl fun styles _ => fails styles) (Or.inl (fails s.styles))
  | ok base =>
    rw [isOrderFree_of_base h, Setter.isOrderFree_iff fun _ _ _ same => same, ← Setter.not_isValid,
      exists_options_error h]
    by_cases valid : Overrides.setter.IsValid s.styles
    · simp only [valid, not_true_eq_false, false_or]
      exact Overrides.isConsistent_entries valid
    · simp only [valid, not_false_eq_true, true_or]

end

/-- Two names of one role, each of which can come last. -/
theorem letterCase_decides :
    (["Code", "code"].Nodup ∧ ¬ ({ styles := [("Code", "A"), ("code", "B")] } : Settings).IsOrderFree) ∧
      (∃ o, ({ styles := [("Code", "A"), ("code", "B")] } : Settings).options = .ok o ∧ o.theme.resolve .code = ⟨"B"⟩) ∧
      ∃ o, ({ styles := [("code", "B"), ("Code", "A")] } : Settings).options = .ok o ∧
        o.theme.resolve .code = ⟨"A"⟩ := by
  refine ⟨⟨by decide, ?_⟩, ⟨_, rfl, by decide⟩, ⟨_, rfl, by decide⟩⟩
  rintro (fails | ⟨key, ok⟩)
  · obtain ⟨e, failed⟩ := fails _ (.refl _)
    cases failed
  · obtain ⟨o, ⟨⟩, seen⟩ := ok _ (.refl _)
    obtain ⟨o', ⟨⟩, seen'⟩ := ok [("code", "B"), ("Code", "A")] (List.Perm.swap _ _ _)
    have same := (seen .code).trans (seen' .code).symm
    revert same
    decide

end Settings

end FlowDoc.Config
