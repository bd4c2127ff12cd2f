import FlowDoc.Uri.Percent
import Mathlib

/-!
# Escapes in addresses

Encoding leaves a character as it is or writes escapes for it (`mem_encode`). Escapes stay whole where a text is encoded
(`validEscapes_encode`) and where it is cut at a character that is part of none (`validEscapes_cut`).
-/

namespace FlowDoc.Uri

variable {escapes : Char → Bool} {c : Char} {cs ds : List Char}

/-! ## Hexadecimal digits -/

theorem hexValue?_digitChar : ∀ n : Nat, n < 16 → hexValue? (Nat.digitChar n) = some n := by decide

theorem isHexDigit_digitChar {n : Nat} (h : n < 16) : isHexDigit (Nat.digitChar n) = true := by
  rw [isHexDigit, hexValue?_digitChar n h]
  rfl

theorem isHexDigit_toUpper_digitChar : ∀ n : Nat, n < 16 → isHexDigit (Nat.digitChar n).toUpper = true := by decide

/-- A byte has two digits. -/
theorem exists_hexByte (b : UInt8) : ∃ x y, hexByte b = [x, y] ∧ isHexDigit x = true ∧ isHexDigit y = true := by
  have size := b.toNat_lt_size
  exact ⟨_, _, rfl, isHexDigit_toUpper_digitChar _ (Nat.div_lt_of_lt_mul size),
    isHexDigit_toUpper_digitChar _ (Nat.mod_lt _ (by decide))⟩

theorem mem_hexByte {b : UInt8} (h : c ∈ hexByte b) : isHexDigit c = true := by
  obtain ⟨x, y, eq, hx, hy⟩ := exists_hexByte b
  rw [eq] at h
  simp only [List.mem_cons, List.not_mem_nil, or_false] at h
  rcases h with rfl | rfl
  · exact hx
  · exact hy

/-! ## Encoding -/

/-- What is in an encoded text: percent signs, digits, and characters that are not escaped. -/
theorem mem_encode (h : c ∈ encode escapes cs) :
    c = '%' ∨ isHexDigit c = true ∨ c ∈ cs ∧ escapes c = false ∧ c.toNat < 0x80 := by
  obtain ⟨d, hd, hc⟩ := List.mem_flatMap.mp h
  rw [encodeChar] at hc
  split at hc
  · obtain ⟨b, -, hb⟩ := List.mem_flatMap.mp hc
    rcases List.mem_cons.mp hb with rfl | hb
    · exact Or.inl rfl
    · exact Or.inr (Or.inl (mem_hexByte hb))
  · rename_i kept
    obtain rfl := List.mem_singleton.mp hc
    simp only [Bool.or_eq_true, decide_eq_true_eq, not_or, Nat.not_le, Bool.not_eq_true] at kept
    exact Or.inr (Or.inr ⟨hd, kept.2, kept.1⟩)

theorem encodeChar_ne_nil (escapes : Char → Bool) (c : Char) : encodeChar escapes c ≠ [] := by
  rw [encodeChar]
  split
  · cases bytes : String.utf8EncodeChar c with
    | nil =>
      have size := String.length_utf8EncodeChar c
      rw [bytes] at size
      exact absurd size.symm (Nat.ne_of_gt c.utf8Size_pos)
    | cons b bs => simp
  · exact List.cons_ne_nil _ _

theorem encode_eq_nil_iff : encode escapes cs = [] ↔ cs = [] := by
  cases cs with
  | nil => simp [encode]
  | cons c cs => simp [encode, encodeChar_ne_nil]

/-! ## Valid escapes -/

theorem validEscapes_cons_of_ne (h : c ≠ '%') (cs : List Char) : validEscapes (c :: cs) = validEscapes cs := by
  rw [validEscapes]
  · simp [h]
  · intro a b rest percent
    exact absurd percent h

theorem validEscapes_escape {x y : Char} (hx : isHexDigit x = true) (hy : isHexDigit y = true) (cs : List Char) :
    validEscapes ('%' :: x :: y :: cs) = validEscapes cs := by
  rw [validEscapes, hx, hy]
  rfl

theorem validEscapes_append (h : validEscapes cs = true) (ds : List Char) :
    validEscapes (cs ++ ds) = validEscapes ds := by
  fun_induction validEscapes cs with
  | case1 => rfl
  | case2 a b rest ih =>
    simp only [Bool.and_eq_true] at h
    obtain ⟨⟨ha, hb⟩, rest⟩ := h
    rw [List.cons_append, List.cons_append, List.cons_append, validEscapes_escape ha hb, ih rest]
  | case3 c rest _ ih =>
    simp only [Bool.and_eq_true, bne_iff_ne] at h
    rw [List.cons_append, validEscapes_cons_of_ne h.1, ih h.2]

/-- A text cut at a character that is part of no escape. -/
theorem validEscapes_cut (h : validEscapes (cs ++ c :: ds) = true) (hc : isHexDigit c = false) (hp : c ≠ '%') :
    validEscapes cs = true ∧ validEscapes ds = true := by
  suffices valid : validEscapes cs = true by
    rw [validEscapes_append valid, validEscapes_cons_of_ne hp] at h
    exact ⟨valid, h⟩
  fun_induction validEscapes cs with
  | case1 => rfl
  | case2 a b rest ih =>
    rw [List.cons_append, List.cons_append, List.cons_append, validEscapes] at h
    simp only [Bool.and_eq_true] at h ⊢
    exact ⟨h.1, ih h.2⟩
  | case3 d rest short ih =>
    by_cases percent : d = '%'
    · -- the escape would need the character at the cut
      subst percent
      rcases rest with _ | ⟨x, _ | ⟨y, rest⟩⟩
      · cases ds <;> simp [validEscapes, hc] at h
      · simp [validEscapes, hc] at h
      · exact (short x y rest rfl rfl).elim
    · rw [List.cons_append, validEscapes_cons_of_ne percent] at h
      simp [percent, ih h]

/-! ### Encoded escapes -/

theorem toNat_lt_of_isHexDigit (h : isHexDigit c = true) : c.toNat < 0x80 := by
  have value : c.toNat = c.val.toNat := rfl
  have bounds : ('9' : Char).val.toNat = 57 ∧ ('f' : Char).val.toNat = 102 ∧ ('F' : Char).val.toNat = 70 := by decide
  unfold isHexDigit hexValue? at h
  split at h
  · rename_i digit
    simp only [Char.isDigit, Bool.and_eq_true, decide_eq_true_eq, UInt32.le_iff_toNat_le] at digit
    omega
  · split at h
    · rename_i lower
      simp only [Bool.and_eq_true, decide_eq_true_eq, Char.le_def, UInt32.le_iff_toNat_le] at lower
      omega
    · split at h
      · rename_i upper
        simp only [Bool.and_eq_true, decide_eq_true_eq, Char.le_def, UInt32.le_iff_toNat_le] at upper
        omega
      · cases h

/-- What holds of the hexadecimal digits one by one. -/
theorem forall_isHexDigit {P : Char → Prop} (h : ∀ n < 0x80, isHexDigit (Char.ofNat n) = true → P (Char.ofNat n))
    (digit : isHexDigit c = true) : P c :=
  forall_ascii (P := fun c => isHexDigit c = true → P c) h (toNat_lt_of_isHexDigit digit) digit

/-- What holds of the letters one by one. -/
theorem forall_isAlpha {P : Char → Prop} (h : ∀ n < 0x80, (Char.ofNat n).isAlpha = true → P (Char.ofNat n))
    (letter : c.isAlpha = true) : P c := by
  have bounds : ('Z' : Char).val.toNat = 90 ∧ ('z' : Char).val.toNat = 122 := by decide
  have value : c.toNat = c.val.toNat := rfl
  refine forall_ascii (P := fun c => c.isAlpha = true → P c) h ?_ letter
  simp only [Char.isAlpha, Char.isUpper, Char.isLower, Bool.or_eq_true, Bool.and_eq_true, decide_eq_true_eq,
    UInt32.le_iff_toNat_le, ge_iff_le] at letter
  omega

theorem encodeChar_of_kept (ascii : c.toNat < 0x80) (kept : escapes c = false) : encodeChar escapes c = [c] := by
  rw [encodeChar, kept, Bool.or_false, if_neg]
  simpa using ascii

theorem encode_of_kept (h : ∀ c ∈ cs, c.toNat < 0x80 ∧ escapes c = false) : encode escapes cs = cs := by
  induction cs with
  | nil => rfl
  | cons c cs ih =>
    obtain ⟨⟨ascii, kept⟩, h⟩ := List.forall_mem_cons.mp h
    rw [encode, List.flatMap_cons, encodeChar_of_kept ascii kept]
    exact congrArg (c :: ·) (ih h)

/-- What is written for one character that begins no escape has whole escapes. -/
theorem validEscapes_encodeChar (h : c ≠ '%') : validEscapes (encodeChar escapes c) = true := by
  rw [encodeChar]
  split
  · induction String.utf8EncodeChar c with
    | nil => rfl
    | cons b bs ih =>
      obtain ⟨x, y, eq, hx, hy⟩ := exists_hexByte b
      rw [List.flatMap_cons, eq]
      exact (validEscapes_escape hx hy _).trans ih
  · exact validEscapes_cons_of_ne h []

/-- Escapes are whole in what is encoded, as long as escapes themselves are not encoded. -/
theorem validEscapes_encode (percent : escapes '%' = false) (digits : ∀ c, isHexDigit c = true → escapes c = false)
    (h : validEscapes cs = true) : validEscapes (encode escapes cs) = true := by
  have kept {c : Char} (hc : isHexDigit c = true) : encodeChar escapes c = [c] :=
    encodeChar_of_kept (toNat_lt_of_isHexDigit hc) (digits c hc)
  have sign : encodeChar escapes '%' = ['%'] := encodeChar_of_kept (by decide) percent
  fun_induction validEscapes cs with
  | case1 => rfl
  | case2 a b rest ih =>
    simp only [Bool.and_eq_true] at h
    obtain ⟨⟨ha, hb⟩, rest⟩ := h
    simp only [encode, List.flatMap_cons, sign, kept ha, kept hb]
    exact (validEscapes_escape ha hb _).trans (ih rest)
  | case3 c rest _ ih =>
    simp only [Bool.and_eq_true, bne_iff_ne] at h
    rw [encode, List.flatMap_cons, validEscapes_append (validEscapes_encodeChar h.1)]
    exact ih h.2

end FlowDoc.Uri
