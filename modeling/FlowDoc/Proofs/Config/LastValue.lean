import FlowDoc.Config.Value
import Mathlib.Logic.Basic

/-!
# The last value of a key

A `Setter` sets values under keys one after the other, and fails at a value whose key is not valid. What it leaves under
a key is the value set there last (`Setter.exists_setAll`). So what it leaves is the same in every order of the setting
exactly if a key is invalid, or no key gets two values (**`Setter.isOrderFree_iff`**).
-/

namespace FlowDoc.Config

/-! ## Entries -/

section Lists

variable {κ α : Type}

/-- Whether entries of one key have one value. -/
def IsConsistent (es : List (κ × α)) : Prop := ∀ e ∈ es, ∀ f ∈ es, e.1 = f.1 → e.2 = f.2

theorem IsConsistent.perm {es fs : List (κ × α)} (h : IsConsistent es) (p : fs.Perm es) : IsConsistent fs :=
  fun e he f hf => h e (p.mem_iff.mp he) f (p.mem_iff.mp hf)

/-- Any item of a list can come last. -/
theorem exists_perm_concat {bs : List α} {b : α} (h : b ∈ bs) : ∃ cs, (cs ++ [b]).Perm bs := by
  obtain ⟨before, after, rfl⟩ := List.append_of_mem h
  refine ⟨before ++ after, ?_⟩
  rw [List.append_assoc]
  exact (List.perm_append_singleton b after).append_left before

variable [BEq κ] [LawfulBEq κ]

theorem mem_of_lookup_eq_some {es : List (κ × α)} {k : κ} {a : α} (h : es.lookup k = some a) : (k, a) ∈ es := by
  obtain ⟨before, after, rfl, -⟩ := List.lookup_eq_some_iff.mp h
  simp

theorem IsConsistent.lookup_eq_some_iff {es : List (κ × α)} (h : IsConsistent es) {k : κ} {a : α} :
    es.lookup k = some a ↔ (k, a) ∈ es := by
  refine ⟨mem_of_lookup_eq_some, fun ha => ?_⟩
  cases found : es.lookup k with
  | none => simpa using List.lookup_eq_none_iff.mp found _ ha
  | some b => exact congrArg some (h _ (mem_of_lookup_eq_some found) _ ha rfl)

/-- Consistent entries are found in any order. -/
theorem IsConsistent.lookup_perm {es fs : List (κ × α)} (h : IsConsistent es) (p : fs.Perm es) (k : κ) :
    fs.lookup k = es.lookup k := by
  refine Option.ext fun a => ?_
  rw [h.lookup_eq_some_iff, (h.perm p).lookup_eq_some_iff]
  exact p.mem_iff

end Lists

/-! ## Setters -/

/-- How values are set under the keys that their names stand for. -/
structure Setter (σ ε β κ α : Type) where
  key : β → Except ε κ
  value : β → α
  put : σ → κ → α → σ
  find? : σ → κ → Option α
  find?_put_self : ∀ s k a, find? (put s k a) k = some a
  find?_put_of_ne : ∀ s k a l, l ≠ k → find? (put s k a) l = find? s l

namespace Setter

variable {σ ε β κ α γ : Type}

/-- Set one value. -/
def set (f : Setter σ ε β κ α) (s : σ) (b : β) : Except ε σ := (f.key b).map fun k => f.put s k (f.value b)

/-- Set values one after the other. -/
def setAll (f : Setter σ ε β κ α) (s : σ) (bs : List β) : Except ε σ := bs.foldlM f.set s

/-- The keys that are valid, with what is set under them. -/
def entries (f : Setter σ ε β κ α) (bs : List β) : List (κ × α) :=
  bs.filterMap fun b => (f.key b).toOption.map (·, f.value b)

/-- Whether all keys are valid. -/
def IsValid (f : Setter σ ε β κ α) (bs : List β) : Prop := ∀ b ∈ bs, ∃ k, f.key b = .ok k

/-- Whether setting values in any order fails, or always leaves what is seen alike. -/
def IsOrderFree (f : Setter σ ε β κ α) (see : κ → Option α → γ) (s : σ) (bs : List β) : Prop :=
  (∀ cs, cs.Perm bs → ∃ e, f.setAll s cs = .error e) ∨
    ∃ seen : κ → γ, ∀ cs, cs.Perm bs → ∃ t, f.setAll s cs = .ok t ∧ ∀ k, see k (f.find? t k) = seen k

variable {f : Setter σ ε β κ α} {s : σ} {bs cs : List β} {b : β} {k : κ} {a : α}

theorem IsValid.perm (h : f.IsValid bs) (p : cs.Perm bs) : f.IsValid cs := fun b hb => h b (p.mem_iff.mp hb)

theorem not_isValid : ¬ f.IsValid bs ↔ ∃ b ∈ bs, ∃ e, f.key b = .error e := by
  simp only [IsValid, not_forall, exists_prop]
  refine exists_congr fun b => and_congr_right fun _ => ?_
  cases f.key b <;> simp

theorem mem_entries : (k, a) ∈ f.entries bs ↔ ∃ b ∈ bs, f.key b = .ok k ∧ f.value b = a := by
  simp only [entries, List.mem_filterMap]
  refine exists_congr fun b => and_congr_right fun _ => ?_
  cases f.key b <;> simp [Except.toOption]

/-- Valid keys get no two values if values of equal keys are equal. -/
theorem IsValid.isConsistent_iff (h : f.IsValid bs) :
    IsConsistent (f.entries bs) ↔ ∀ b ∈ bs, ∀ c ∈ bs, f.key b = f.key c → f.value b = f.value c := by
  constructor
  · intro consistent b hb c hc same
    obtain ⟨k, hk⟩ := h b hb
    exact consistent _ (mem_entries.mpr ⟨b, hb, hk, rfl⟩) _ (mem_entries.mpr ⟨c, hc, same ▸ hk, rfl⟩) rfl
  · rintro equal ⟨k, a⟩ ha ⟨l, a'⟩ ha' (rfl : k = l)
    obtain ⟨b, hb, hk, rfl⟩ := mem_entries.mp ha
    obtain ⟨c, hc, hl, rfl⟩ := mem_entries.mp ha'
    exact equal b hb c hc (hk.trans hl.symm)

theorem entries_append (bs cs : List β) : f.entries (bs ++ cs) = f.entries bs ++ f.entries cs := List.filterMap_append

theorem entries_singleton (hb : f.key b = .ok k) : f.entries [b] = [(k, f.value b)] := by
  simp [entries, hb, Except.toOption]

theorem entries_perm (p : cs.Perm bs) : (f.entries cs).Perm (f.entries bs) := p.filterMap _

/-- An invalid key fails. -/
theorem exists_setAll_error (h : ¬ f.IsValid bs) (s : σ) : ∃ e, f.setAll s bs = .error e := by
  induction bs generalizing s with
  | nil => exact absurd (fun b hb => by cases hb) h
  | cons b bs ih =>
    rw [setAll, List.foldlM_cons, set]
    cases hb : f.key b with
    | error e => exact ⟨e, rfl⟩
    | ok l =>
      refine ih (fun valid => h fun c hc => ?_) (f.put s l (f.value b))
      rcases List.mem_cons.mp hc with rfl | hc
      · exact ⟨l, hb⟩
      · exact valid c hc

variable [BEq κ] [LawfulBEq κ]

/-- **Valid keys** hold what was set last under them. -/
theorem exists_setAll (h : f.IsValid bs) (s : σ) :
    ∃ t, f.setAll s bs = .ok t ∧ ∀ k, f.find? t k = ((f.entries bs).reverse.lookup k).or (f.find? s k) := by
  induction bs generalizing s with
  | nil => exact ⟨s, rfl, fun k => rfl⟩
  | cons b bs ih =>
    obtain ⟨l, hl⟩ := h b List.mem_cons_self
    obtain ⟨t, set, found⟩ := ih (fun c hc => h c (List.mem_cons_of_mem b hc)) (f.put s l (f.value b))
    refine ⟨t, ?_, fun k => ?_⟩
    · rw [setAll, List.foldlM_cons, Setter.set, hl]
      exact set
    · rw [found, ← List.singleton_append, entries_append, entries_singleton hl, List.reverse_append,
        List.lookup_append, Option.or_assoc]
      congr 1
      by_cases same : k = l
      · subst same
        simp [f.find?_put_self]
      · have other : (k == l) = false := by simpa using same
        simp [f.find?_put_of_ne _ _ _ _ same, List.lookup_cons, other]

/-- The value that comes last is found. -/
theorem find?_last {t : σ} (h : f.setAll s (cs ++ [b]) = .ok t) (hb : f.key b = .ok k) : f.find? t k = some (f.value b) := by
  have valid : f.IsValid (cs ++ [b]) := by
    refine Classical.byContradiction fun invalid => ?_
    obtain ⟨e, he⟩ := exists_setAll_error invalid s
    rw [h] at he
    cases he
  obtain ⟨t', set, found⟩ := exists_setAll valid s
  rw [h] at set
  cases set
  rw [found, entries_append, entries_singleton hb]
  simp

/-- Where one key gets two values, one of two orders leaves something else. -/
theorem isConsistent_of_seen (see : κ → Option α → γ) (inj : ∀ k a b, see k (some a) = see k (some b) → a = b)
    {seen : κ → γ}
    (h : ∀ cs, cs.Perm bs → ∃ t, f.setAll s cs = .ok t ∧ ∀ k, see k (f.find? t k) = seen k) :
    IsConsistent (f.entries bs) := by
  have last : ∀ e ∈ f.entries bs, see e.1 (some e.2) = seen e.1 := by
    rintro ⟨k, a⟩ he
    obtain ⟨b, hb, hk, rfl⟩ := mem_entries.mp he
    obtain ⟨cs, p⟩ := exists_perm_concat hb
    obtain ⟨t, set, same⟩ := h _ p
    rw [← same, find?_last set hk]
  intro e he g hg same
  refine inj e.1 e.2 g.2 ?_
  rw [last e he, same, last g hg]

/-- **Any order.** Setting values does not depend on their order exactly if a key is invalid, or no key gets two
values. -/
theorem isOrderFree_iff {see : κ → Option α → γ} (inj : ∀ k a b, see k (some a) = see k (some b) → a = b) (s : σ)
    (bs : List β) :
    f.IsOrderFree see s bs ↔ (∃ b ∈ bs, ∃ e, f.key b = .error e) ∨ IsConsistent (f.entries bs) := by
  rw [← not_isValid]
  constructor
  · rintro (fails | ⟨seen, h⟩)
    · refine Or.inl fun valid => ?_
      obtain ⟨e, he⟩ := fails bs (.refl bs)
      obtain ⟨t, set, -⟩ := exists_setAll valid s
      rw [he] at set
      cases set
    · exact Or.inr (isConsistent_of_seen see inj h)
  · intro h
    by_cases valid : f.IsValid bs
    · have consistent := h.resolve_left (not_not_intro valid)
      refine Or.inr ⟨fun k => see k (((f.entries bs).lookup k).or (f.find? s k)), fun cs p => ?_⟩
      obtain ⟨t, set, found⟩ := exists_setAll (valid.perm p) s
      refine ⟨t, set, fun k => ?_⟩
      have reversed : (f.entries cs).reverse.Perm (f.entries bs) := (List.reverse_perm _).trans (entries_perm p)
      rw [found, consistent.lookup_perm reversed]
    · exact Or.inl fun cs p => exists_setAll_error (fun valid' => valid (valid'.perm p.symm)) s

end Setter

end FlowDoc.Config
