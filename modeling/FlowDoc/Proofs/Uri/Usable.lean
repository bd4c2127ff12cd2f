import FlowDoc.Proofs.Uri.Clean
import FlowDoc.Proofs.Uri.Escapes
import FlowDoc.Uri.Domain

/-!
# Targets that are written

The target that is written for a link is usable (`IsUsable`: it would be written again as it is) exactly if it is a
fragment or nothing forbidden is in it (`navigate_isUsable_iff`). Only what is joined to a base can fail this: the base
is not held to the form of references, and the host of a reference is decoded and mapped to ASCII. On a base whose text
is clean up to its path, every reference is written in usable form, unless it has a host and an escape or a character
beyond ASCII. All this is so however domains are mapped (`Domains`).
-/

namespace FlowDoc.Uri

section

variable [Domains]

/-- A target that is a fragment or a well-formed reference, and is written as it is. -/
def IsUsable (base? : Option Address) (target : String) : Prop :=
  (target.toList.head? = some '#' ∨ isWellFormed target = true) ∧ navigate base? target = target

variable {base? : Option Address} {base a : Address} {s : String}

/-! ## Well-formed texts -/

theorem IsClean.of_isWellFormed (h : isWellFormed s = true) : IsClean s.toList := by
  rw [isWellFormed, Bool.and_eq_true, Bool.and_eq_true, Bool.and_eq_true, Bool.not_eq_true', Bool.not_eq_true'] at h
  obtain ⟨⟨⟨-, allowed⟩, escapes⟩, -⟩ := h
  exact ⟨fun c hc => by simpa using List.any_eq_false.mp allowed c hc, hasWholeEscapes_eq s ▸ escapes⟩

theorem isWellFormed_of_parse (h : IsClean s.toList) (read : parse s = .ok a) : isWellFormed s = true := by
  have nonempty : s.isEmpty = false := by
    rw [Bool.eq_false_iff]
    intro empty
    rw [String.isEmpty_iff.mp empty] at read
    cases read
  have allowed : s.toList.any isForbidden = false := List.any_eq_false.mpr fun c hc => by simp [h.allowed c hc]
  rw [isWellFormed, nonempty, allowed, hasWholeEscapes_eq, h.escapes, read]
  rfl

/-- A base that is accepted can be read again, and others can be relative to it. -/
theorem isSound_of_parseBase {t : String} (h : parseBase t = .ok base) : base.IsSound ∧ base.isOpaque = false := by
  rw [parseBase] at h
  split at h
  · cases h
  · rename_i b read
    split at h
    · cases h
    · rename_i path
      cases h
      have alone : ∀ b ∈ (none : Option Address), b.IsSound := fun b hb => by cases hb
      exact ⟨isSound_of_read alone read, Bool.not_eq_true _ ▸ path⟩

/-! ## What is written -/

theorem navigate_of_fragment (h : s.toList.head? = some '#') : navigate base? s = s := by
  rw [navigate, if_pos (by simp [h])]

theorem navigate_of_wellFormed (h : isWellFormed s = true) : navigate base? s = resolve base? s := by
  by_cases fragment : s.toList.head? = some '#'
  · rw [navigate_of_fragment fragment, resolve.eq_def, if_pos (by simp [fragment])]
  · rw [navigate, if_neg (by simpa using fragment), if_pos h]

/-- An address of its own is written as it is. -/
theorem resolve_of_parse (h : parse s = .ok a) : resolve base? s = s := by
  rw [resolve.eq_def]
  split
  · rfl
  · rw [h]

/-- A text is kept, or it is an address that the text names relative to the base. -/
theorem resolve_cases (base? : Option Address) (s : String) :
    resolve base? s = s ∨
      ∃ base a, base? = some base ∧ s.toList.head? ≠ some '#' ∧ parse s = .error .relativeWithoutBase ∧
        base.join s = .ok a ∧ resolve base? s = a.toString := by
  rw [resolve.eq_def]
  split
  · exact Or.inl rfl
  · rename_i fragment
    split
    · rename_i base relative
      split
      · rename_i a joined
        exact Or.inr ⟨base, a, rfl, by simpa using fragment, relative, joined, rfl⟩
      · exact Or.inl rfl
    · exact Or.inl rfl

/-- What is written for a text: a fragment, the text, or an address that it is joined to. -/
theorem navigate_cases (base? : Option Address) (s : String) :
    (navigate base? s).toList.head? = some '#' ∨
      isWellFormed s = true ∧ (navigate base? s = s ∨
        ∃ base a, base? = some base ∧ s.toList.head? ≠ some '#' ∧ parse s = .error .relativeWithoutBase ∧
          base.join s = .ok a ∧ navigate base? s = a.toString) := by
  cases formed : isWellFormed s with
  | true =>
    rw [navigate_of_wellFormed formed]
    exact Or.inr ⟨rfl, resolve_cases base? s⟩
  | false =>
    by_cases fragment : s.toList.head? = some '#'
    · rw [navigate_of_fragment fragment]
      exact Or.inl fragment
    · rw [navigate, if_neg (by simpa using fragment), if_neg (by simp [formed])]
      exact Or.inl rfl

theorem IsUsable.of_fragment (h : s.toList.head? = some '#') : IsUsable base? s := ⟨Or.inl h, navigate_of_fragment h⟩

/-- A clean address that is written is written as it is. -/
theorem IsUsable.of_isClean (sound : a.IsSound) (clean : IsClean a.toChars) : IsUsable base? a.toString := by
  have text : a.toString.toList = a.toChars := String.toList_ofList
  obtain ⟨b, read⟩ := sound.exists_parse clean
  have formed := isWellFormed_of_parse (text ▸ clean) read
  exact ⟨Or.inr formed, by rw [navigate_of_wellFormed formed, resolve_of_parse read]⟩

/-! ## Usable targets -/

/-- A reference is read relative to its base. -/
theorem joined_of_join (notOpaque : base.isOpaque = false) (relative : parse s = .error .relativeWithoutBase)
    (notFragment : (significant s).head? ≠ some '#')
    (h : base.join s = .ok a) : Joined base (significant s) a := by
  rw [Address.join, read.eq_def] at h
  dsimp only at h
  rw [parse_eq_relative_iff.mp relative] at h
  dsimp only at h
  rw [if_neg (by simpa using notFragment), if_neg (by simp [notOpaque])] at h
  split at h
  · rename_i file
    exact joined_of_readFile (eq_file_of_ofName file) h
  · rename_i notFile
    exact joined_of_readRelative notFile h

/-- Only an address that a reference is joined to can fail to be usable. -/
theorem isUsable_navigate (accepted : ∀ base ∈ base?, ∃ text, parseBase text = .ok base)
    (clean : ∀ base a, base? = some base → isWellFormed s = true → s.toList.head? ≠ some '#' →
      parse s = .error .relativeWithoutBase → base.join s = .ok a → navigate base? s = a.toString →
      IsClean a.toChars) : IsUsable base? (navigate base? s) := by
  rcases navigate_cases base? s with
    fragment | ⟨formed, kept | ⟨base, a, given, notFragment, relative, joined, written⟩⟩
  · exact .of_fragment fragment
  · rw [kept]
    exact ⟨Or.inr formed, kept⟩
  · obtain ⟨text, read⟩ := accepted base given
    have sound : a.IsSound := isSound_of_read (fun b hb => by cases hb; exact (isSound_of_parseBase read).1) joined
    rw [written]
    exact .of_isClean sound (clean base a given formed notFragment relative joined written)

/-- What is written for a link is usable exactly if it is a fragment or clean. On a base whose text is clean up to its
path, it is so for every reference that has no host of its own, or neither an escape nor a character beyond ASCII. -/
theorem navigate_isUsable_iff (accepted : ∀ base ∈ base?, ∃ text, parseBase text = .ok base) (s : String) :
    (IsUsable base? (navigate base? s) ↔
      (navigate base? s).toList.head? = some '#' ∨ IsClean (navigate base? s).toList) ∧
    ((∀ base ∈ base?, IsClean base.bare.toChars ∧
        ((∀ more, s.toList ≠ '/' :: '/' :: more) ∨ ∀ c ∈ s.toList, c ≠ '%' ∧ c.toNat < 0x80)) →
      IsUsable base? (navigate base? s)) := by
  constructor
  · constructor
    · exact fun usable => usable.1.imp id .of_isWellFormed
    · rintro (fragment | clean)
      · exact .of_fragment fragment
      · refine isUsable_navigate accepted fun base a _ _ _ _ _ written => ?_
        rwa [written, Address.toString, String.toList_ofList] at clean
  · intro harmless
    refine isUsable_navigate accepted fun base a given formed notFragment relative joined _ => ?_
    obtain ⟨text, read⟩ := accepted base given
    obtain ⟨cleanBase, harmless⟩ := harmless base given
    obtain ⟨sound, notOpaque⟩ := isSound_of_parseBase read
    have clean : IsClean s.toList := .of_isWellFormed formed
    have whole : significant s = s.toList := by
      rw [← String.ofList_toList (s := s), significant_of_allowed clean.allowed, String.toList_ofList]
    have reference := joined_of_join notOpaque relative (whole ▸ notFragment) joined
    rw [whole] at reference
    refine reference.isClean (.of_bare sound notOpaque cleanBase) clean ?_ notFragment harmless
    intro empty
    rw [String.toList_eq_nil_iff.mp empty] at formed
    simp [isWellFormed] at formed

end

/-- On a base with a clean text. -/
theorem isUsable_navigate_sibling :
    ∃ base, parseBase "http://h/a/b" = .ok base ∧ navigate (some base) "c" = "http://h/a/c" ∧
      IsUsable (some base) (navigate (some base) "c") := by
  let base : Address := { scheme := "http", authority := some { host := "h" }, path := "/a/b".toList }
  have accepted : parseBase "http://h/a/b" = .ok base := by decide
  refine ⟨base, accepted, ?_, (navigate_isUsable_iff (fun b hb => ?_) "c").2 fun b hb => ?_⟩
  · rw [navigate, isWellFormed, hasWholeEscapes_eq]
    decide
  · cases hb
    exact ⟨"http://h/a/b", accepted⟩
  · cases hb
    exact ⟨by decide, Or.inl (by simp)⟩

/-- A base is accepted with a bar in its path, and the bar is written; written again, the target is refused for it. -/
theorem navigate_keeps_bar :
    ∃ base, parseBase "http://h/a|b/" = .ok base ∧ navigate (some base) "c" = "http://h/a|b/c" ∧
      isWellFormed "http://h/a|b/c" = false ∧ navigate (some base) "http://h/a|b/c" = "#" := by
  refine ⟨{ scheme := "http", authority := some { host := "h" }, path := "/a|b/".toList }, by decide, ?_, by decide,
    by decide⟩
  rw [navigate, isWellFormed, hasWholeEscapes_eq]
  decide

/-- An escape in a host is decoded, and what it stands for is written, on a clean base too. -/
example : ∃ base, parseBase "http://h/" = .ok base ∧ navigate (some base) "//a%22b/" = "http://a\"b/" := by
  refine ⟨{ scheme := "http", authority := some { host := "h" }, path := ['/'] }, by decide, ?_⟩
  rw [navigate, isWellFormed, hasWholeEscapes_eq]
  decide

end FlowDoc.Uri
