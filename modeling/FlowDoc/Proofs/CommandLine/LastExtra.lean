import FlowDoc.CommandLine.Extra
import FlowDoc.Proofs.Config.LastValue
import Mathlib.Data.List.Induction

/-!
# The last setting among the arguments

The settings among the arguments are kept by their names, and carried out by the paths that the names stand for in any
order of the names. Of one name the last setting counts. Of two names for one path either can count: every order does
what the settings do in their turn exactly if a path is invalid, or names that are kept give no path two values
(**`Extra.assignments_alike_iff`**).
-/

namespace FlowDoc.Config

/-! ## Keeping by name -/

namespace Entries

variable {α : Type} {key : String} {a : α} {e : String × α}

theorem mem_put_self (es : Entries α) (key : String) (a : α) : (key, a) ∈ es.put key a := by
  induction es with
  | nil => exact List.mem_cons_self
  | cons b es ih =>
    rw [put]
    split
    · exact List.mem_cons_self
    · exact List.mem_cons_of_mem b ih

/-- Under other keys there is what there was. -/
theorem mem_put_of_ne {es : Entries α} (h : e ∈ es) (other : e.1 ≠ key) : e ∈ es.put key a := by
  induction es with
  | nil => cases h
  | cons b es ih =>
    rw [put]
    split
    · rename_i same
      rcases List.mem_cons.mp h with rfl | h
      · exact absurd same other
      · exact List.mem_cons_of_mem _ h
    · rcases List.mem_cons.mp h with rfl | h
      · exact List.mem_cons_self
      · exact List.mem_cons_of_mem b (ih h)

theorem mem_of_mem_put {es : Entries α} (h : e ∈ es.put key a) : e = (key, a) ∨ e ∈ es := by
  induction es with
  | nil => exact Or.inl (List.mem_singleton.mp h)
  | cons b es ih =>
    rw [put] at h
    split at h
    · exact (List.mem_cons.mp h).imp_right (List.mem_cons_of_mem b)
    · rcases List.mem_cons.mp h with rfl | h
      · exact Or.inr List.mem_cons_self
      · exact (ih h).imp_right (List.mem_cons_of_mem b)

end Entries

/-! ## Keeping by path -/

namespace Assignments

theorem lookup_set_self (as : Assignments) (path : KeyPath) (v : Value) : (as.set path v).lookup path = some v := by
  induction as with
  | nil => simp [set]
  | cons b as ih =>
    obtain ⟨p, w⟩ := b
    rw [set]
    by_cases same : p = path
    · simp [same]
    · have other : (path == p) = false := by simpa using Ne.symm same
      simp [same, List.lookup_cons, other, ih]

theorem lookup_set_of_ne (as : Assignments) {path other : KeyPath} (v : Value) (h : other ≠ path) :
    (as.set path v).lookup other = as.lookup other := by
  have away : (other == path) = false := by simpa using h
  induction as with
  | nil => simp [set, List.lookup_cons, away]
  | cons b as ih =>
    obtain ⟨p, w⟩ := b
    rw [set]
    by_cases same : p = path
    · subst same
      simp [List.lookup_cons, away]
    · simp [same, List.lookup_cons, ih]

/-- Whether assignments set the same value at every path, or neither can be had. -/
def Alike (as bs : Except PathError Assignments) : Prop :=
  (∃ a b, as = .ok a ∧ bs = .ok b ∧ ∀ path : KeyPath, a.lookup path = b.lookup path) ∨
    ∃ e f, as = .error e ∧ bs = .error f

end Assignments

end FlowDoc.Config

namespace FlowDoc.CommandLine

open Config

namespace Extra

/-- A setting sets the value at the path that its name stands for. -/
def setter : Setter Assignments PathError (String × String) KeyPath Value where
  key e := KeyPath.ofString (path e.1)
  value e := value e.2
  put as p v := as.set p v
  find? as p := as.lookup p
  find?_put_self := Assignments.lookup_set_self
  find?_put_of_ne as _ v _ h := as.lookup_set_of_ne v h

/-- The assignments that settings are, one after the other. -/
def inTurn (extras : List Extra) : Except PathError Assignments :=
  extras.foldlM (fun (as : Assignments) e => as.setAt (path e.name) (value e.raw)) []

/-- A setting as an entry. -/
def entry (e : Extra) : String × String := (e.name, e.raw)

theorem inTurn_eq (extras : List Extra) : inTurn extras = setter.setAll [] (extras.map entry) := by
  rw [Setter.setAll, List.foldlM_map]
  rfl

/-! ## The last setting of a name -/

theorem overrides_concat (extras : List Extra) (e : Extra) :
    overrides (extras ++ [e]) = (overrides extras).put e.name e.raw := by
  rw [overrides, List.foldl_append]
  rfl

/-- What is kept are settings. -/
theorem overrides_subset (extras : List Extra) : overrides extras ⊆ extras.map entry := by
  induction extras using List.reverseRecOn with
  | nil => exact List.Subset.refl _
  | append_singleton extras e ih =>
    intro kept h
    rw [overrides_concat] at h
    rw [List.map_append, List.mem_append]
    rcases Entries.mem_of_mem_put h with rfl | h
    · exact Or.inr List.mem_cons_self
    · exact Or.inl (ih h)

/-- Of every name something is kept. -/
theorem exists_mem_overrides {extras : List Extra} {e : Extra} (h : e ∈ extras) :
    ∃ raw, (e.name, raw) ∈ overrides extras := by
  induction extras using List.reverseRecOn with
  | nil => cases h
  | append_singleton extras last ih =>
    rw [overrides_concat]
    by_cases same : e.name = last.name
    · exact ⟨last.raw, same ▸ Entries.mem_put_self _ _ _⟩
    · rcases List.mem_append.mp h with h | h
      · obtain ⟨raw, kept⟩ := ih h
        exact ⟨raw, Entries.mem_put_of_ne kept same⟩
      · exact absurd (congrArg name (List.mem_singleton.mp h)) same

/-- The names that are kept have paths exactly if all names do. -/
theorem isValid_overrides (extras : List Extra) :
    setter.IsValid (overrides extras) ↔ setter.IsValid (extras.map entry) := by
  constructor
  · rintro valid _ h
    obtain ⟨e, he, rfl⟩ := List.mem_map.mp h
    obtain ⟨raw, kept⟩ := exists_mem_overrides he
    exact valid (e.name, raw) kept
  · exact fun valid e he => valid e (overrides_subset extras he)

/-- The last setting of a path is the last one of its name. -/
theorem mem_overrides_of_last {extras : List Extra} {p : KeyPath} {v : Value}
    (h : (setter.entries (extras.map entry)).reverse.lookup p = some v) : (p, v) ∈ setter.entries (overrides extras) := by
  induction extras using List.reverseRecOn with
  | nil => cases h
  | append_singleton extras e ih =>
    rw [overrides_concat, Setter.mem_entries]
    rw [List.map_append, Setter.entries_append, List.reverse_append, List.lookup_append] at h
    have earlier (h : (setter.entries (extras.map entry)).reverse.lookup p = some v)
        (other : setter.key e.entry ≠ .ok p) :
        ∃ b ∈ (overrides extras).put e.name e.raw, setter.key b = .ok p ∧ setter.value b = v := by
      obtain ⟨b, kept, hp, hv⟩ := Setter.mem_entries.mp (ih h)
      refine ⟨b, Entries.mem_put_of_ne kept fun same => other ?_, hp, hv⟩
      rw [← hp]
      exact congrArg (fun n => KeyPath.ofString (path n)) same.symm
    cases he : setter.key e.entry with
    | error err => exact earlier (by simpa [Setter.entries, he, Except.toOption] using h) (by simp [he])
    | ok q =>
      rw [List.map_singleton, Setter.entries_singleton he] at h
      by_cases same : p = q
      · subst same
        obtain rfl : setter.value e.entry = v := by simpa using h
        exact ⟨_, Entries.mem_put_self _ _ _, he, rfl⟩
      · have away : (p == q) = false := by simpa using same
        refine earlier (by simpa [List.lookup_cons, away] using h) fun other => same ?_
        exact Except.ok.inj (other.symm.trans he)

/-! ## Any order of the names -/

/-- Settings that are carried out in the order of their names set what they set in their turn if no path gets two
values. -/
theorem alike_of_isConsistent {extras : List Extra} (valid : setter.IsValid (extras.map entry))
    (consistent : IsConsistent (setter.entries (overrides extras))) {order : Entries String}
    (p : order.Perm (overrides extras)) : Assignments.Alike (assignments order) (inTurn extras) := by
  obtain ⟨as, set, found⟩ := Setter.exists_setAll (((isValid_overrides extras).mpr valid).perm p) []
  obtain ⟨bs, set', found'⟩ := Setter.exists_setAll valid []
  refine Or.inl ⟨as, bs, set, (inTurn_eq extras).trans set', fun path => ?_⟩
  have reversed : (setter.entries order).reverse.Perm (setter.entries (overrides extras)) :=
    (List.reverse_perm _).trans (Setter.entries_perm p)
  have seen : as.lookup path = (setter.entries (overrides extras)).lookup path := by
    rw [← consistent.lookup_perm reversed]
    exact (found path).trans (Option.or_none ..)
  have seen' : bs.lookup path = (setter.entries (extras.map entry)).reverse.lookup path :=
    (found' path).trans (Option.or_none ..)
  rw [seen, seen']
  refine Option.ext fun v => ?_
  rw [consistent.lookup_eq_some_iff]
  refine ⟨fun kept => ?_, mem_overrides_of_last⟩
  -- What is kept for the path is among the settings, so one of them is the last, and that one is kept too.
  obtain ⟨b, hb, hp, hv⟩ := Setter.mem_entries.mp kept
  have given : (path, v) ∈ setter.entries (extras.map entry) :=
    Setter.mem_entries.mpr ⟨b, overrides_subset extras hb, hp, hv⟩
  cases last : (setter.entries (extras.map entry)).reverse.lookup path with
  | none => simpa using List.lookup_eq_none_iff.mp last _ (List.mem_reverse.mpr given)
  | some w => exact congrArg some (consistent _ (mem_overrides_of_last last) _ kept rfl)

/-- Names in whose every order the settings set what they set in their turn give no path two values. -/
theorem isConsistent_of_alike {extras : List Extra} (valid : setter.IsValid (extras.map entry))
    (h : ∀ order, order.Perm (overrides extras) → Assignments.Alike (assignments order) (inTurn extras)) :
    IsConsistent (setter.entries (overrides extras)) := by
  obtain ⟨bs, set, -⟩ := Setter.exists_setAll valid []
  rw [← inTurn_eq] at set
  have seen (order : Entries String) (p : order.Perm (overrides extras)) :
      ∃ as, setter.setAll [] order = .ok as ∧ ∀ path, setter.find? as path = bs.lookup path := by
    rcases h order p with ⟨as, bs', assigned, turned, same⟩ | ⟨_, _, -, failed⟩
    · obtain rfl : bs = bs' := Except.ok.inj (set.symm.trans turned)
      exact ⟨as, assigned, same⟩
    · cases set.symm.trans failed
  exact Setter.isConsistent_of_seen (fun _ v => v) (fun _ _ _ => Option.some.inj) seen

/-- **The last setting.** Whatever the order of the names, the settings among the arguments set what they set one after
the other exactly if a path is invalid, or the last settings of names for one path have one value. -/
theorem assignments_alike_iff (args : List String) :
    (∀ order, order.Perm (overrides (split args).extras) →
      Assignments.Alike (assignments order) (inTurn (split args).extras)) ↔
      (∃ e ∈ (split args).extras, ∃ err, KeyPath.ofString (path e.name) = .error err) ∨
        ∀ e ∈ overrides (split args).extras, ∀ f ∈ overrides (split args).extras,
          KeyPath.ofString (path e.1) = KeyPath.ofString (path f.1) → value e.2 = value f.2 := by
  generalize (split args).extras = extras
  have paths : (∃ e ∈ extras, ∃ err, KeyPath.ofString (path e.name) = .error err) ↔
      ¬ setter.IsValid (extras.map entry) := by
    rw [Setter.not_isValid]
    simp only [List.mem_map, exists_exists_and_eq_and]
    rfl
  rw [paths]
  by_cases valid : setter.IsValid (extras.map entry)
  · rw [or_iff_right (not_not_intro valid)]
    have consistent := ((isValid_overrides extras).mpr valid).isConsistent_iff
    exact ⟨fun h => consistent.mp (isConsistent_of_alike valid h),
      fun h order p => alike_of_isConsistent valid (consistent.mpr h) p⟩
  · refine iff_of_true (fun order p => Or.inr ?_) (Or.inl valid)
    have invalid : ¬ setter.IsValid order := fun h => valid ((isValid_overrides extras).mp (h.perm p.symm))
    obtain ⟨err, failed⟩ := Setter.exists_setAll_error invalid []
    obtain ⟨err', failed'⟩ := Setter.exists_setAll_error valid []
    exact ⟨err, err', failed, (inTurn_eq extras).trans failed'⟩

/-- An alias and the path that it stands for: in one order the first setting takes back the second. -/
theorem alias_takes_back :
    path "indent" = path "output.indent" ∧
      inTurn (split ["--extra-indent", "4", "--extra-output.indent", "8"]).extras =
        .ok [(⟨"output", [.key "indent"]⟩, .int 8)] ∧
      (∃ order, order.Perm (overrides (split ["--extra-indent", "4", "--extra-output.indent", "8"]).extras) ∧
        assignments order = .ok [(⟨"output", [.key "indent"]⟩, .int 4)]) ∧
      ¬ ∀ order, order.Perm (overrides (split ["--extra-indent", "4", "--extra-output.indent", "8"]).extras) →
        Assignments.Alike (assignments order)
          (inTurn (split ["--extra-indent", "4", "--extra-output.indent", "8"]).extras) := by
  have turned : inTurn (split ["--extra-indent", "4", "--extra-output.indent", "8"]).extras =
      .ok [(⟨"output", [.key "indent"]⟩, .int 8)] := by rfl
  have kept : overrides (split ["--extra-indent", "4", "--extra-output.indent", "8"]).extras =
      [("indent", "4"), ("output.indent", "8")] := by decide
  have order : [("output.indent", "8"), ("indent", "4")].Perm
      (overrides (split ["--extra-indent", "4", "--extra-output.indent", "8"]).extras) :=
    kept ▸ List.Perm.swap _ _ _
  have assigned : assignments [("output.indent", "8"), ("indent", "4")] =
      .ok [(⟨"output", [.key "indent"]⟩, .int 4)] := by rfl
  refine ⟨by decide, turned, ⟨_, order, assigned⟩, fun h => ?_⟩
  have alike := h _ order
  rw [turned, assigned] at alike
  rcases alike with ⟨as, bs, ⟨⟩, ⟨⟩, same⟩ | ⟨_, _, ⟨⟩, -⟩
  cases same ⟨"output", [.key "indent"]⟩

end Extra

end FlowDoc.CommandLine
