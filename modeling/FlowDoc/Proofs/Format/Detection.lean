import FlowDoc.Format.Registry
import Mathlib.Data.List.Induction
import Mathlib.Data.List.Nodup
import Mathlib.Data.List.Pairwise
import Mathlib.Data.List.Perm.Basic

/-!
# Finding the format of a file

A registry holds the format that was last registered under each name, in no particular order. The format of a file is
the first in that order that lists the extension of the file. So one is found whatever the order is, if a format lists
the extension, and it is the same one in every order exactly if no second format lists it (**`detect?_orderFree_iff`**).
-/

namespace FlowDoc

/-- Whether a format lists the extension of a file. -/
def Format.lists (path : String) (f : Format) : Bool := (Format.extension? path).any fun e => f.extensions.contains e

namespace Registry

variable {f g : Format} {r : Registry} {path name : String}

/-! ## What is registered -/

/-- Formats that are registered one after the other. -/
def registered (history : List Format) : Registry := history.foldl (fun r f => register f r) []

theorem registered_concat (history : List Format) (f : Format) :
    registered (history ++ [f]) = register f (registered history) := by
  rw [registered, List.foldl_append]
  rfl

theorem map_name_register (f : Format) (r : Registry) :
    (register f r).map Format.name =
      if f.name ∈ r.map Format.name then r.map Format.name else r.map Format.name ++ [f.name] := by
  induction r with
  | nil => rfl
  | cons g r ih =>
    by_cases same : g.name = f.name
    · simp [register, same]
    · by_cases known : f.name ∈ r.map Format.name
      · simp [register, same, ih, known]
      · simp [register, same, ih, known, Ne.symm same]

/-- Registering a format keeps the names distinct. -/
theorem nodup_register (h : (r.map Format.name).Nodup) (f : Format) : ((register f r).map Format.name).Nodup := by
  rw [map_name_register]
  split
  · exact h
  · rename_i fresh
    exact List.nodup_append_comm.mpr (List.nodup_cons.mpr ⟨fresh, h⟩)

/-- A format takes the place of the one with its name. -/
theorem mem_register (h : (r.map Format.name).Nodup) : g ∈ register f r ↔ g = f ∨ g ∈ r ∧ g.name ≠ f.name := by
  induction r with
  | nil => simp [register]
  | cons e r ih =>
    obtain ⟨single, h⟩ := List.nodup_cons.mp h
    by_cases same : e.name = f.name
    · -- No later format has the name, so all of them stay.
      have others : g ∈ r → g.name ≠ f.name := fun later eq =>
        single (List.mem_map.mpr ⟨g, later, eq.trans same.symm⟩)
      rw [register, if_pos same, List.mem_cons, List.mem_cons]
      refine or_congr_right ⟨fun later => ⟨Or.inr later, others later⟩, ?_⟩
      rintro ⟨rfl | later, other⟩
      · exact absurd same other
      · exact later
    · rw [register, if_neg same, List.mem_cons, List.mem_cons, ih h]
      constructor
      · rintro (rfl | rfl | ⟨later, other⟩)
        · exact Or.inr ⟨Or.inl rfl, same⟩
        · exact Or.inl rfl
        · exact Or.inr ⟨Or.inr later, other⟩
      · rintro (rfl | ⟨rfl | later, other⟩)
        · exact Or.inr (Or.inl rfl)
        · exact Or.inl rfl
        · exact Or.inr (Or.inr ⟨later, other⟩)

theorem nodup_registered (history : List Format) : ((registered history).map Format.name).Nodup := by
  induction history using List.reverseRecOn with
  | nil => exact List.nodup_nil
  | append_singleton history f ih =>
    rw [registered_concat]
    exact nodup_register ih f

/-- **What is registered** is the last format of each name. -/
theorem mem_registered_iff {history : List Format} :
    f ∈ registered history ↔ history.reverse.find? (·.name == f.name) = some f := by
  induction history using List.reverseRecOn with
  | nil => exact iff_of_false nofun nofun
  | append_singleton history last ih =>
    rw [registered_concat, mem_register (nodup_registered history), ih, List.reverse_append, List.reverse_singleton,
      List.singleton_append, List.find?_cons]
    by_cases same : last.name = f.name
    · simp [same, eq_comm]
    · have other : f ≠ last := fun eq => same (congrArg Format.name eq.symm)
      have away : (last.name == f.name) = false := by simpa using same
      rw [away]
      exact ⟨fun h => (h.resolve_left other).1, fun h => Or.inr ⟨h, Ne.symm same⟩⟩

/-- Registered formats are known by their names. -/
theorem eq_of_name_eq {history : List Format} (hf : f ∈ registered history) (hg : g ∈ registered history)
    (h : f.name = g.name) : f = g :=
  List.inj_on_of_nodup_map (nodup_registered history) hf hg h

/-! ## The first that lists the extension -/

theorem detect?_eq (r : Registry) (path : String) : r.detect? path = (r.find? (Format.lists path)).map Format.name := by
  unfold detect? Format.lists
  cases Format.extension? path with
  | none =>
    have nothing : r.find? (fun _ => false) = none := List.find?_eq_none.mpr fun _ _ => Bool.false_ne_true
    exact (congrArg (Option.map Format.name) nothing).symm
  | some ending => rfl

theorem detect?_eq_none_iff : r.detect? path = none ↔ ∀ f ∈ r, f.lists path = false := by
  rw [detect?_eq, Option.map_eq_none_iff, List.find?_eq_none]
  simp only [Bool.not_eq_true]

theorem exists_of_detect? (h : r.detect? path = some name) : ∃ f ∈ r, f.name = name ∧ f.lists path = true := by
  rw [detect?_eq, Option.map_eq_some_iff] at h
  obtain ⟨f, found, rfl⟩ := h
  exact ⟨f, List.mem_of_find?_eq_some found, rfl, List.find?_some found⟩

/-- Every format that lists the extension is found in some order. -/
theorem exists_perm_detect? (hf : f ∈ r) (lists : f.lists path = true) :
    ∃ order : Registry, order.Perm r ∧ order.detect? path = some f.name := by
  obtain ⟨before, after, rfl⟩ := List.append_of_mem hf
  refine ⟨f :: (before ++ after), List.perm_middle.symm, ?_⟩
  rw [detect?_eq, List.find?_cons, lists]
  rfl

/-- All orders find the same format if only one of them lists the extension. -/
theorem detect?_perm {order : Registry} (p : order.Perm r)
    (single : ∀ f ∈ r, ∀ g ∈ r, f.lists path = true → g.lists path = true → f.name = g.name) :
    order.detect? path = r.detect? path := by
  cases found : r.detect? path with
  | none =>
    rw [detect?_eq_none_iff] at found ⊢
    exact fun f hf => found f (p.subset hf)
  | some name =>
    obtain ⟨f, hf, rfl, lists⟩ := exists_of_detect? found
    cases found' : order.detect? path with
    | none => exact absurd (detect?_eq_none_iff.mp found' f (p.symm.subset hf)) (by simp [lists])
    | some name' =>
      obtain ⟨g, hg, rfl, lists'⟩ := exists_of_detect? found'
      exact congrArg some (single g (p.subset hg) f hf lists' lists)

/-! ## Any order -/

/-- **Finding the format of a file.** Registered is the last format of each name. In every order of the formats none is
found exactly if the file has no extension or no format lists it, and what is found lists it. All orders find the same
exactly if no two formats list it. -/
theorem detect?_orderFree_iff (history : List Format) (path : String) :
    (∀ f, f ∈ registered history ↔ history.reverse.find? (·.name == f.name) = some f) ∧
      (∀ order : Registry, order.Perm (registered history) →
        (order.detect? path = none ↔
          Format.extension? path = none ∨ ∀ f ∈ registered history, f.lists path = false) ∧
        ∀ name, order.detect? path = some name → ∃ f ∈ registered history, f.name = name ∧ f.lists path = true) ∧
      ((∀ order order' : Registry, order.Perm (registered history) → order'.Perm (registered history) →
        order.detect? path = order'.detect? path) ↔
        ∀ f ∈ registered history, ∀ g ∈ registered history, f.lists path = true → g.lists path = true → f = g) := by
  refine ⟨fun _ => mem_registered_iff, fun order p => ⟨?_, fun name found => ?_⟩, fun h f hf g hg lf lg => ?_,
    fun h => ?_⟩
  · rw [detect?_eq_none_iff]
    refine ⟨fun h => Or.inr fun f hf => h f (p.symm.subset hf), ?_⟩
    rintro (none | h) f hf
    · rw [Format.lists, none]
      rfl
    · exact h f (p.subset hf)
  · obtain ⟨f, hf, named, lists⟩ := exists_of_detect? found
    exact ⟨f, p.subset hf, named, lists⟩
  · obtain ⟨order, p, found⟩ := exists_perm_detect? hf lf
    obtain ⟨order', p', found'⟩ := exists_perm_detect? hg lg
    exact eq_of_name_eq hf hg (Option.some.inj (found.symm.trans ((h _ _ p p').trans found')))
  · have single : ∀ f ∈ registered history, ∀ g ∈ registered history, f.lists path = true → g.lists path = true →
        f.name = g.name := fun f hf g hg lf lg => congrArg Format.name (h f hf g hg lf lg)
    exact fun order order' p p' => (detect?_perm p single).trans (detect?_perm p' single).symm

/-- Two formats for one extension: each order finds its own. -/
theorem shared_extension_found_by_order :
    ¬ ∀ (history : List Format) (path : String) (order order' : Registry),
      order.Perm (registered history) → order'.Perm (registered history) →
        order.detect? path = order'.detect? path := by
  intro h
  have found := h [{ name := "notes", extensions := ["txt"] }, { name := "plain", extensions := ["txt"] }] "a.txt" _ _
    (List.Perm.refl _) (List.Perm.swap _ _ _)
  revert found
  decide

/-- Formats that share no extension are found in every order. -/
theorem detect?_perm_of_disjoint (apart : r.Pairwise fun f g => f.extensions.Disjoint g.extensions) {order : Registry}
    (p : order.Perm r) (path : String) : order.detect? path = r.detect? path := by
  have : Std.Symm fun f g : Format => f.extensions.Disjoint g.extensions := ⟨fun _ _ h _ hg hf => h hf hg⟩
  refine detect?_perm p fun f hf g hg lf lg => ?_
  by_contra other
  obtain ⟨ending, present, lf⟩ := Option.any_eq_true _ _ |>.mp lf
  obtain ⟨ending', present', lg⟩ := Option.any_eq_true _ _ |>.mp lg
  obtain rfl : ending = ending' := Option.some.inj (present.symm.trans present')
  have disjoint := apart.forall hf hg fun same => other (congrArg Format.name same)
  exact disjoint (List.contains_iff_mem.mp lf) (List.contains_iff_mem.mp lg)

/-- The order of the built-in formats does not matter. -/
theorem detect?_builtIn_perm (x : Markdown.Extensions) (o : Render.Options) (indent : Nat) {order : Registry}
    (p : order.Perm (builtIn x o indent)) (path : String) :
    order.detect? path = (builtIn x o indent).detect? path := by
  have formats : builtIn x o indent = [Format.markdown x, Format.xaml o indent, Format.json o, Format.events o] := rfl
  refine detect?_perm_of_disjoint ?_ p path
  rw [formats]
  simp [Format.markdown, Format.xaml, Format.json, Format.events]

end Registry

end FlowDoc
