import FlowDoc.Proofs.Uri.Percent
import FlowDoc.Uri.Reference

/-!
# Paths that are read

A path that is read on from the root stays at the root (`head?_readPath`), and nothing forbidden comes into it
(`IsClean.readPath`): segments are encoded, and a path is only ever cut at a slash.
-/

namespace FlowDoc.Uri

/-! ## Clean texts -/

/-- A text with nothing in it that a reference must not hold. -/
structure IsClean (cs : List Char) : Prop where
  allowed : ∀ c ∈ cs, isForbidden c = false
  escapes : validEscapes cs = true

instance (cs : List Char) : Decidable (IsClean cs) :=
  decidable_of_iff ((cs.all (!isForbidden ·) && validEscapes cs) = true) <| by
    rw [Bool.and_eq_true, List.all_eq_true]
    exact ⟨fun h => ⟨fun c hc => by simpa using h.1 c hc, h.2⟩,
      fun h => ⟨fun c hc => by simp [h.allowed c hc], h.escapes⟩⟩

variable {cs ds path part : List Char} {c : Char} {kind : SchemeKind} {slash : Bool}

namespace IsClean

theorem nil : IsClean [] := ⟨List.forall_mem_nil _, rfl⟩

theorem append (first : IsClean cs) (second : IsClean ds) : IsClean (cs ++ ds) :=
  ⟨List.forall_mem_append.mpr ⟨first.allowed, second.allowed⟩, by
    rw [validEscapes_append first.escapes]
    exact second.escapes⟩

theorem cons (allowed : isForbidden c = false) (sign : c ≠ '%') (h : IsClean cs) : IsClean (c :: cs) :=
  ⟨List.forall_mem_cons.mpr ⟨allowed, h.allowed⟩, by
    rw [validEscapes_cons_of_ne sign]
    exact h.escapes⟩

/-- What stands on both sides of a character that belongs to no escape. -/
theorem cut (h : IsClean (cs ++ c :: ds)) (digit : isHexDigit c = false) (sign : c ≠ '%') :
    IsClean cs ∧ IsClean ds := by
  obtain ⟨before, after⟩ := List.forall_mem_append.mp h.allowed
  obtain ⟨first, second⟩ := validEscapes_cut h.escapes digit sign
  exact ⟨⟨before, first⟩, ⟨(List.forall_mem_cons.mp after).2, second⟩⟩

theorem of_cons (h : IsClean (c :: cs)) (digit : isHexDigit c = false) (sign : c ≠ '%') : IsClean cs :=
  (cut (List.nil_append (c :: cs) ▸ h : IsClean ([] ++ c :: cs)) digit sign).2

/-- A text cut before such a character, or not at all. -/
theorem split (h : IsClean (cs ++ ds)) (mark : ∀ c ∈ ds.head?, isHexDigit c = false ∧ c ≠ '%') :
    IsClean cs ∧ IsClean ds := by
  cases ds with
  | nil => exact ⟨by simpa using h, nil⟩
  | cons c ds =>
    obtain ⟨digit, sign⟩ := mark c rfl
    obtain ⟨first, second⟩ := h.cut digit sign
    exact ⟨first, second.cons (h.allowed c (by simp)) sign⟩

theorem encode {escapes : Char → Bool} (h : IsClean cs) (percent : escapes '%' = false)
    (digits : ∀ c, isHexDigit c = true → escapes c = false) : IsClean (encode escapes cs) where
  allowed c hc := by
    rcases mem_encode hc with rfl | digit | ⟨mem, -, -⟩
    · decide
    · exact forall_isHexDigit (P := fun c => isForbidden c = false) (by decide) digit
    · exact h.allowed c mem
  escapes := validEscapes_encode percent digits h.escapes

theorem encode_inPath (h : IsClean cs) : IsClean (Uri.encode inPath cs) :=
  h.encode (by decide) fun c => forall_isHexDigit (P := fun c => inPath c = false) (by decide)

/-- The parts between slashes. -/
theorem splitOn_slash (h : IsClean cs) (mem : part ∈ cs.splitOn '/') : IsClean part := by
  have whole : IsClean (['/'].intercalate (cs.splitOn '/')) := by rwa [List.intercalate_splitOn]
  -- part by part: each slash between two of them is a place to cut
  generalize cs.splitOn '/' = parts at whole mem
  induction parts with
  | nil => cases mem
  | cons p ps ih =>
    cases ps with
    | nil => simpa [List.mem_singleton.mp mem] using whole
    | cons q ps =>
      rw [List.intercalate_cons_cons, List.append_assoc] at whole
      obtain ⟨first, rest⟩ := whole.cut (by decide) (by decide)
      rcases List.mem_cons.mp mem with rfl | mem
      · exact first
      · exact ih rest mem

/-- A backslash is forbidden, so the segments of a clean text are the parts between slashes. -/
theorem segments_eq (h : IsClean cs) (kind : SchemeKind) : segments kind cs = cs.splitOn '/' := by
  have plain : '\\' ∉ cs := fun mem => absurd (h.allowed _ mem) (by decide)
  -- of a clean text the induction needs no more than this
  clear h
  rw [segments, List.splitOn_eq_splitOnP]
  induction cs with
  | nil => rfl
  | cons c cs ih =>
    rw [List.mem_cons, not_or] at plain
    have same : kind.isSlash c = (c == '/') := by simp [SchemeKind.isSlash, Ne.symm plain.1]
    rw [List.splitOnP_cons_eq_if_modifyHead, List.splitOnP_cons_eq_if_modifyHead, ih plain.2, same]

theorem segment (h : IsClean cs) (mem : part ∈ segments kind cs) : IsClean part :=
  h.splitOn_slash (h.segments_eq kind ▸ mem)

end IsClean

/-! ## Cutting a path -/

/-- What is kept of a path up to its last slash. -/
theorem uptoLastSlash_cases (path : List Char) :
    (uptoLastSlash path = [] ∧ '/' ∉ path) ∨
      ∃ front last, path = front ++ '/' :: last ∧ uptoLastSlash path = front ++ ['/'] := by
  have whole : path.reverse.takeWhile (· != '/') ++ path.reverse.dropWhile (· != '/') = path.reverse :=
    List.takeWhile_append_dropWhile
  rw [uptoLastSlash]
  cases kept : path.reverse.dropWhile (· != '/') with
  | nil =>
    refine Or.inl ⟨rfl, fun mem => ?_⟩
    rw [List.dropWhile_eq_nil_iff] at kept
    exact absurd (kept '/' (List.mem_reverse.mpr mem)) (by decide)
  | cons c front =>
    have mark := List.head?_dropWhile_not (· != '/') path.reverse
    rw [kept] at whole mark
    obtain rfl : c = '/' := by simpa using mark
    refine Or.inr ⟨front.reverse, (path.reverse.takeWhile (· != '/')).reverse, ?_, List.reverse_cons⟩
    simpa using (congrArg List.reverse whole).symm

theorem endsWithSlash_cases (h : endsWithSlash path = true) : ∃ front, path = front ++ ['/'] := by
  rw [endsWithSlash, beq_iff_eq, List.getLast?_eq_some_iff] at h
  exact h

/-! ## Paths at the root -/

theorem head?_append_slash (h : (cs ++ '/' :: ds).head? = some '/') : (cs ++ ['/']).head? = some '/' := by
  cases cs with
  | nil => rfl
  | cons c cs => exact h

theorem head?_append (h : path.head? = some '/') (cs : List Char) : (path ++ cs).head? = some '/' := by
  rw [List.head?_append, h]
  rfl

theorem head?_dropSegment (h : path.head? = some '/') : (dropSegment kind path).head? = some '/' := by
  rw [dropSegment]
  split
  · exact h
  · rcases uptoLastSlash_cases path with ⟨-, slashless⟩ | ⟨front, last, whole, kept⟩
    · exact absurd (List.mem_of_mem_head? h) slashless
    · rw [kept]
      rw [whole] at h
      exact head?_append_slash h

theorem head?_closeSegment (h : path.head? = some '/') : (closeSegment path).head? = some '/' := by
  rw [closeSegment]
  split
  · exact h
  · exact head?_append h _

theorem head?_goUp (h : path.head? = some '/') : (goUp kind path slash).head? = some '/' := by
  have root : (if endsWithSlash path && finalSlashDrops path then path.dropLast else path).head? = some '/' := by
    split
    · rename_i drops
      have more : 1 < path.length := by
        -- the slash at the end is not the one at the root
        refine Nat.lt_of_not_le fun short => ?_
        have empty : path.dropLast = [] := List.eq_nil_of_length_eq_zero (by rw [List.length_dropLast]; omega)
        simp [finalSlashDrops, empty, uptoLastSlash] at drops
      rw [List.head?_dropLast, if_pos more, h]
    · exact h
  rw [goUp]
  split
  · exact head?_closeSegment (head?_dropSegment root)
  · exact head?_dropSegment root

theorem head?_addSegment (h : path.head? = some '/') : (addSegment kind path part slash).head? = some '/' := by
  rw [addSegment]
  have root : (if kind = .file && !part.isEmpty && isNormalizedDrive (path.drop 1) then path ++ ['/']
      else path).head? = some '/' := by
    split
    · exact head?_append h _
    · exact h
  generalize (if kind = .file && !part.isEmpty && isNormalizedDrive (path.drop 1) then path ++ ['/'] else path) = path
    at root ⊢
  split
  · exact head?_goUp root
  · split
    · exact head?_closeSegment root
    · rw [List.append_assoc]
      exact head?_append root _

theorem head?_addSegments (h : path.head? = some '/') (segments : List (List Char)) :
    (addSegments kind path segments).head? = some '/' := by
  fun_induction addSegments kind path segments with
  | case1 => exact h
  | case2 => exact head?_addSegment h
  | case3 path s rest _ ih => exact ih (head?_addSegment h)

/-- A path that is read on from the root stays at the root; that of a file is at the root in any case. -/
theorem head?_readPath (h : kind ≠ .file → path.head? = some '/') : (readPath kind path cs).head? = some '/' := by
  rw [readPath]
  split
  · rfl
  · rename_i other
    exact head?_addSegments (h other) _

/-! ## Clean paths -/

namespace IsClean

theorem dropSegment (h : IsClean path) : IsClean (dropSegment kind path) := by
  rw [Uri.dropSegment]
  split
  · exact h
  · rcases uptoLastSlash_cases path with ⟨kept, -⟩ | ⟨front, last, whole, kept⟩
    · rw [kept]
      exact nil
    · rw [kept]
      rw [whole] at h
      exact (h.cut (by decide) (by decide)).1.append (by decide)

theorem closeSegment (h : IsClean path) : IsClean (closeSegment path) := by
  rw [Uri.closeSegment]
  split
  · exact h
  · exact h.append (by decide)

theorem goUp (h : IsClean path) : IsClean (goUp kind path slash) := by
  have front : IsClean (if endsWithSlash path && finalSlashDrops path then path.dropLast else path) := by
    split
    · rename_i ends
      obtain ⟨front, rfl⟩ := endsWithSlash_cases (Bool.and_eq_true _ _ ▸ ends).1
      rw [List.dropLast_concat]
      exact (h.cut (by decide) (by decide)).1
    · exact h
  rw [Uri.goUp]
  split
  · exact front.dropSegment.closeSegment
  · exact front.dropSegment

theorem drive {a : Char} (h : a.isAlpha = true) : IsClean [a, ':'] := by
  obtain ⟨allowed, sign⟩ := forall_isAlpha (P := fun c => isForbidden c = false ∧ c ≠ '%') (by decide) h
  exact (show IsClean [':'] by decide).cons allowed sign

theorem addSegment (h : IsClean path) (clean : IsClean part) : IsClean (addSegment kind path part slash) := by
  rw [Uri.addSegment]
  have front : IsClean (if kind = .file && !part.isEmpty && isNormalizedDrive (path.drop 1) then path ++ ['/']
      else path) := by
    split
    · exact h.append (by decide)
    · exact h
  generalize (if kind = .file && !part.isEmpty && isNormalizedDrive (path.drop 1) then path ++ ['/'] else path) = path
    at front ⊢
  split
  · exact front.goUp
  · split
    · exact front.closeSegment
    · refine (front.append ?_).append ?_
      · split
        · rename_i first
          obtain ⟨-, letter⟩ := Bool.and_eq_true _ _ ▸ first
          rw [isDriveLetter.eq_def] at letter
          split at letter
          · exact drive (Bool.and_eq_true _ _ ▸ letter).1
          · cases letter
        · exact clean
      · split
        · decide
        · exact nil

theorem addSegments (h : IsClean path) {segments : List (List Char)} (clean : ∀ s ∈ segments, IsClean s) :
    IsClean (addSegments kind path segments) := by
  fun_induction Uri.addSegments kind path segments with
  | case1 => exact h
  | case2 path s => exact h.addSegment (clean s (by simp)).encode_inPath
  | case3 path s rest _ ih =>
    exact ih (h.addSegment (clean s (by simp)).encode_inPath) fun t mem => clean t (List.mem_cons_of_mem s mem)

theorem dropWhile_slash (h : IsClean cs) : IsClean (cs.dropWhile (· == '/')) := by
  induction cs with
  | nil => exact nil
  | cons c cs ih =>
    rw [List.dropWhile_cons]
    split
    · rename_i mark
      rw [beq_iff_eq] at mark
      subst mark
      exact ih (h.of_cons (by decide) (by decide))
    · exact h

theorem readPath (h : IsClean path) (clean : IsClean cs) : IsClean (readPath kind path cs) := by
  have read : IsClean (Uri.addSegments kind path (segments kind cs)) := h.addSegments fun _ mem => clean.segment mem
  rw [Uri.readPath]
  split
  · exact (read.dropWhile_slash).cons (by decide) (by decide)
  · exact read

end IsClean

end FlowDoc.Uri
