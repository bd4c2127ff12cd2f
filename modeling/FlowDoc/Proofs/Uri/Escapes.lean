import FlowDoc.Proofs.Uri.Percent

/-!
# Whole escapes

The scan for whole escapes passes a byte that begins none, or an escape in one go. No turn of it fails, and whatever a
turn passes has two digits behind each of its signs (`scanTurn?_cases`), since the digits of an escape are no signs. So
from any position on the scan comes to an answer, after no more turns than there are bytes left and one
(`exists_scanEscapes?`), and on a text this is whether two digits directly follow each sign
(**`scanEscapes?_toUTF8`**). A character beyond ASCII has no byte that could be a sign or a digit, so the characters of
a text give the answer of its bytes (`hasWholeEscapes_eq`).
-/

namespace FlowDoc.Uri

variable {bytes : ByteArray} {b : UInt8} {bs : List UInt8} {c x y : Char} {cs : List Char} {s : String}
  {i next : Nat} {valid : Bool}

/-! ## Digits as bytes -/

theorem isHexByte_iff : isHexByte b = true ↔ ∃ x, isHexDigit x = true ∧ x.toUInt8 = b := by
  constructor
  · have values : ∀ n < 256, isHexByte (UInt8.ofNat n) = true →
        isHexDigit (Char.ofNat n) = true ∧ (Char.ofNat n).toUInt8 = UInt8.ofNat n := by decide +kernel
    intro digit
    have value := values b.toNat b.toNat_lt
    rw [UInt8.ofNat_toNat] at value
    exact ⟨_, value digit⟩
  · rintro ⟨x, digit, rfl⟩
    exact forall_isHexDigit (P := fun x => isHexByte x.toUInt8 = true) (by decide) digit

/-- No digit is a sign. -/
theorem toUInt8_ne_percent (digit : isHexDigit x = true) : x.toUInt8 ≠ '%'.toUInt8 :=
  forall_isHexDigit (P := fun x => x.toUInt8 ≠ '%'.toUInt8) (by decide) digit

theorem ne_percent (digit : isHexDigit x = true) : x ≠ '%' := fun sign =>
  toUInt8_ne_percent digit (congrArg Char.toUInt8 sign)

/-- Two hexadecimal digits, which are ASCII, stand directly behind a position. -/
def DigitsFollow (bytes : ByteArray) (i : Nat) : Prop :=
  ∃ x y, isHexDigit x = true ∧ isHexDigit y = true ∧
    bytes[i + 1]? = some x.toUInt8 ∧ bytes[i + 2]? = some y.toUInt8

/-- What follows a position lies in the text. -/
theorem DigitsFollow.lt_size (h : DigitsFollow bytes i) : i + 2 < bytes.size := by
  obtain ⟨x, y, -, -, -, second⟩ := h
  exact (getElem?_eq_some_iff.mp second).1

/-! ## One turn -/

/-- The part of two bytes behind a position is there, with digits alone, exactly if two digits follow. -/
theorem any_slice?_iff :
    (slice? bytes (i + 1) (i + 3)).any (·.data.all isHexByte) = true ↔ DigitsFollow bytes i := by
  rw [slice?]
  split
  · rename_i fits
    have first : bytes[i + 1]? = some bytes[i + 1] := getElem?_pos bytes (i + 1) (by omega)
    have second : bytes[i + 2]? = some bytes[i + 2] := getElem?_pos bytes (i + 2) (by omega)
    have size : (bytes.extract (i + 1) (i + 3)).data.size = 2 := by
      rw [ByteArray.size_data, ByteArray.size_extract]
      omega
    have part : (bytes.extract (i + 1) (i + 3)).data = #[bytes[i + 1], bytes[i + 2]] := by
      refine Array.ext size fun k hk _ => ?_
      rw [size] at hk
      interval_cases k <;> simp [ByteArray.getElem_eq_getElem_data]
    rw [Option.any_some, part, DigitsFollow, first, second]
    simp only [List.all_toArray, List.all_cons, List.all_nil, Bool.and_true, Bool.and_eq_true, isHexByte_iff,
      Option.some.injEq]
    constructor
    · rintro ⟨⟨x, hx, eqx⟩, y, hy, eqy⟩
      exact ⟨x, y, hx, hy, eqx.symm, eqy.symm⟩
    · rintro ⟨x, y, hx, hy, eqx, eqy⟩
      exact ⟨⟨x, hx, eqx.symm⟩, y, hy, eqy.symm⟩
  · rename_i short
    constructor
    · nofun
    · intro follow
      have := follow.lt_size
      omega

theorem scanTurn?_of_le (h : bytes.size ≤ i) : scanTurn? bytes i = some (.over true) := by
  rw [scanTurn?, if_neg (Nat.not_lt.mpr h)]
  rfl

theorem scanTurn?_of_ne (read : bytes[i]? = some b) (other : b ≠ '%'.toUInt8) :
    scanTurn? bytes i = some (.goOn (i + 1)) := by
  have inside := (getElem?_eq_some_iff.mp read).1
  rw [scanTurn?, if_pos inside, read, Option.bind_eq_bind, Option.bind_some, if_neg (by simpa using other)]
  rfl

theorem scanTurn?_of_sign (read : bytes[i]? = some '%'.toUInt8) :
    scanTurn? bytes i =
      some (if (slice? bytes (i + 1) (i + 3)).any (·.data.all isHexByte) then .goOn (i + 3) else .over false) := by
  have inside := (getElem?_eq_some_iff.mp read).1
  rw [scanTurn?, if_pos inside, read, Option.bind_eq_bind, Option.bind_some, if_pos (beq_self_eq_true _)]
  rfl

/-- **What a turn comes to.** The scan ends behind the text, or at a sign without digits, or it goes on within the text,
and each sign it passes has its digits. -/
theorem scanTurn?_cases (bytes : ByteArray) (i : Nat) :
    bytes.size ≤ i ∧ scanTurn? bytes i = some (.over true) ∨
    bytes[i]? = some '%'.toUInt8 ∧ ¬ DigitsFollow bytes i ∧ scanTurn? bytes i = some (.over false) ∨
    ∃ next, scanTurn? bytes i = some (.goOn next) ∧ i < next ∧ next ≤ bytes.size ∧
      ∀ k, i ≤ k → k < next → bytes[k]? = some '%'.toUInt8 → DigitsFollow bytes k := by
  rcases Nat.lt_or_ge i bytes.size with inside | behind
  · have read : bytes[i]? = some bytes[i] := getElem?_pos bytes i inside
    by_cases sign : bytes[i] = '%'.toUInt8
    · rw [sign] at read
      have turn := scanTurn?_of_sign read
      by_cases follow : DigitsFollow bytes i
      · rw [if_pos (any_slice?_iff.mpr follow)] at turn
        refine Or.inr (Or.inr ⟨i + 3, turn, by omega, follow.lt_size, ?_⟩)
        intro k first last hk
        obtain ⟨x, y, hx, hy, eqx, eqy⟩ := id follow
        -- the two bytes that are passed with a sign are digits
        obtain rfl | rfl | rfl : k = i ∨ k = i + 1 ∨ k = i + 2 := by omega
        · exact follow
        · exact absurd (Option.some.inj (eqx.symm.trans hk)) (toUInt8_ne_percent hx)
        · exact absurd (Option.some.inj (eqy.symm.trans hk)) (toUInt8_ne_percent hy)
      · rw [if_neg (any_slice?_iff.not.mpr follow)] at turn
        exact Or.inr (Or.inl ⟨read, follow, turn⟩)
    · refine Or.inr (Or.inr ⟨i + 1, scanTurn?_of_ne read sign, by omega, inside, ?_⟩)
      intro k first last hk
      obtain rfl : k = i := by omega
      exact absurd (Option.some.inj (read.symm.trans hk)) sign
  · exact Or.inl ⟨behind, scanTurn?_of_le behind⟩

/-! ## The scan -/

theorem scanEscapes?_of_over (h : scanTurn? bytes i = some (.over valid)) : scanEscapes? bytes i = some valid := by
  rw [scanEscapes?]
  split <;> simp_all

theorem scanEscapes?_of_goOn (h : scanTurn? bytes i = some (.goOn next)) :
    scanEscapes? bytes i = scanEscapes? bytes next := by
  rw [scanEscapes?]
  split <;> simp_all

/-- What a number of turns come to, from a position on. There is nothing if one of them fails. -/
def turns? (bytes : ByteArray) : (n : Nat) → (i : Nat) → Option ScanTurn
  | 0, i => some (.goOn i)
  | n + 1, i => do
    match ← scanTurn? bytes i with
    | .over valid => return .over valid
    | .goOn next => turns? bytes n next

theorem turns?_of_over (h : scanTurn? bytes i = some (.over valid)) (n : Nat) :
    turns? bytes (n + 1) i = some (.over valid) := by
  rw [turns?, h]
  rfl

theorem turns?_of_goOn (h : scanTurn? bytes i = some (.goOn next)) (n : Nat) :
    turns? bytes (n + 1) i = turns? bytes n next := by
  rw [turns?, h]
  rfl

/-- **From any position on, the scan comes to an answer:** whether two digits follow each sign from there on. -/
theorem exists_scanEscapes? (bytes : ByteArray) (i : Nat) :
    ∃ valid, scanEscapes? bytes i = some valid ∧
      (∃ n ≤ bytes.size - i + 1, turns? bytes n i = some (.over valid)) ∧
      (valid = true ↔ ∀ k, i ≤ k → bytes[k]? = some '%'.toUInt8 → DigitsFollow bytes k) := by
  -- on what is left of the text: each turn leaves less
  induction left : bytes.size - i using Nat.strong_induction_on generalizing i with
  | _ m ih =>
    rcases scanTurn?_cases bytes i with ⟨behind, turn⟩ | ⟨sign, alone, turn⟩ | ⟨next, turn, later, fits, passed⟩
    · refine ⟨true, scanEscapes?_of_over turn, ⟨1, by omega, turns?_of_over turn 0⟩, iff_of_true rfl ?_⟩
      intro k first hk
      have := (getElem?_eq_some_iff.mp hk).1
      omega
    · refine ⟨false, scanEscapes?_of_over turn, ⟨1, by omega, turns?_of_over turn 0⟩, iff_of_false nofun ?_⟩
      exact fun h => alone (h i le_rfl sign)
    · obtain ⟨valid, scanned, ⟨n, few, ended⟩, answer⟩ := ih (bytes.size - next) (by omega) next rfl
      refine ⟨valid, (scanEscapes?_of_goOn turn).trans scanned,
        ⟨n + 1, by omega, (turns?_of_goOn turn n).trans ended⟩, answer.trans ⟨?_, fun h k first => h k (by omega)⟩⟩
      intro h k first hk
      rcases Nat.lt_or_ge k next with before | after
      · exact passed k first before hk
      · exact h k after hk

/-- Two digits directly follow each sign of a text. -/
def IsWhole (bytes : ByteArray) : Prop := ∀ i, bytes[i]? = some '%'.toUInt8 → DigitsFollow bytes i

/-- The scan of a whole text. -/
theorem exists_scanEscapes?_start (bytes : ByteArray) :
    ∃ valid, scanEscapes? bytes 0 = some valid ∧
      (∃ n ≤ bytes.size + 1, turns? bytes n 0 = some (.over valid)) ∧ (valid = true ↔ IsWhole bytes) := by
  obtain ⟨valid, scanned, ended, answer⟩ := exists_scanEscapes? bytes 0
  exact ⟨valid, scanned, ended, answer.trans ⟨fun h i => h i i.zero_le, fun h i _ => h i⟩⟩

theorem hasWholeEscapes_of_scanEscapes? (h : scanEscapes? s.toUTF8 0 = some valid) : hasWholeEscapes s = valid := by
  rw [hasWholeEscapes, h]
  cases valid <;> rfl

theorem hasWholeEscapes_iff : hasWholeEscapes s = true ↔ IsWhole s.toUTF8 := by
  obtain ⟨valid, scanned, -, answer⟩ := exists_scanEscapes?_start s.toUTF8
  rwa [hasWholeEscapes_of_scanEscapes? scanned]

/-- **The scan of a text comes to an answer: whether two digits directly follow each sign among its bytes.** It takes no
more turns than the text has bytes and one, and none of them fails. -/
theorem scanEscapes?_toUTF8 (s : String) :
    scanEscapes? s.toUTF8 0 = some (hasWholeEscapes s) ∧
      (∃ n ≤ s.toUTF8.size + 1, turns? s.toUTF8 n 0 = some (.over (hasWholeEscapes s))) ∧
      (hasWholeEscapes s = true ↔ ∀ i, s.toUTF8[i]? = some '%'.toUInt8 → DigitsFollow s.toUTF8 i) := by
  obtain ⟨valid, scanned, ended, answer⟩ := exists_scanEscapes?_start s.toUTF8
  rw [hasWholeEscapes_of_scanEscapes? scanned]
  exact ⟨scanned, ended, answer⟩

/-! ## Bytes of characters -/

theorem getElem?_toByteArray (bs : List UInt8) (i : Nat) : bs.toByteArray[i]? = bs[i]? := by
  simp [ByteArray.getElem_eq_getElem_data, getElem?_def, ← ByteArray.size_data, List.data_toByteArray]

theorem isWhole_cons :
    IsWhole (b :: bs).toByteArray ↔
      (b = '%'.toUInt8 → DigitsFollow (b :: bs).toByteArray 0) ∧ IsWhole bs.toByteArray := by
  rw [IsWhole, ← Nat.and_forall_add_one]
  simp only [IsWhole, DigitsFollow, getElem?_toByteArray, List.getElem?_cons_zero, List.getElem?_cons_succ,
    Option.some.injEq]

theorem isWhole_append (h : ∀ b ∈ bs, b ≠ '%'.toUInt8) (more : List UInt8) :
    IsWhole (bs ++ more).toByteArray ↔ IsWhole more.toByteArray := by
  induction bs with
  | nil => rfl
  | cons b bs ih =>
    obtain ⟨other, h⟩ := List.forall_mem_cons.mp h
    rw [List.cons_append, isWhole_cons, ih h]
    exact and_iff_right fun sign => absurd sign other

/-- The bytes of characters. -/
def utf8 (cs : List Char) : List UInt8 := cs.flatMap String.utf8EncodeChar

theorem toUTF8_eq (s : String) : s.toUTF8 = (utf8 s.toList).toByteArray := by
  rw [String.toUTF8_eq_toByteArray, ← String.ofList_toList (s := s), String.toByteArray_ofList, String.toList_ofList]
  rfl

theorem utf8_cons (c : Char) (cs : List Char) : utf8 (c :: cs) = String.utf8EncodeChar c ++ utf8 cs :=
  List.flatMap_cons

theorem utf8EncodeChar_of_lt (ascii : c.toNat < 0x80) : String.utf8EncodeChar c = [c.toUInt8] := by
  have bound : c.val ≤ 127 := UInt32.le_iff_toNat_le.mpr (Nat.le_of_lt_succ ascii)
  exact String.utf8EncodeChar_eq_singleton (Char.utf8Size_eq_one_iff.mpr bound)

theorem le_of_mem_utf8EncodeChar (beyond : 0x80 ≤ c.toNat) (h : b ∈ String.utf8EncodeChar c) : 0x80 ≤ b.toNat := by
  have value : c.val.toNat = c.toNat := rfl
  simp only [String.utf8EncodeChar, value] at h
  split_ifs at h
  · omega
  all_goals
    simp only [List.mem_cons, List.not_mem_nil, or_false] at h
    rcases h with rfl | rfl | rfl | rfl
    all_goals
      rw [UInt8.toNat_ofNat']
      omega

theorem utf8_cons_of_lt (ascii : c.toNat < 0x80) (cs : List Char) : utf8 (c :: cs) = c.toUInt8 :: utf8 cs := by
  rw [utf8_cons, utf8EncodeChar_of_lt ascii]
  rfl

theorem toNat_toUInt8 (ascii : c.toNat < 0x80) : c.toUInt8.toNat = c.toNat := by
  rw [Char.toUInt8, UInt32.toNat_toUInt8]
  exact Nat.mod_eq_of_lt (Nat.lt_trans ascii (by decide))

/-- The byte of a digit stands for the digit. -/
theorem exists_of_utf8_eq_cons (digit : isHexDigit x = true) (h : utf8 cs = x.toUInt8 :: bs) :
    ∃ rest, cs = x :: rest ∧ utf8 rest = bs := by
  have small := toNat_lt_of_isHexDigit digit
  cases cs with
  | nil => cases h
  | cons c cs =>
    rcases Nat.lt_or_ge c.toNat 0x80 with ascii | beyond
    · rw [utf8_cons_of_lt ascii, List.cons.injEq] at h
      have same : c.toNat = x.toNat := by rw [← toNat_toUInt8 ascii, h.1, toNat_toUInt8 small]
      exact ⟨cs, by rw [Char.toNat_inj.mp same], h.2⟩
    · -- the first byte is one of the character, all of which are beyond the digits
      obtain ⟨first, others, parts⟩ := List.exists_cons_of_ne_nil (String.utf8EncodeChar_ne_nil (c := c))
      have := le_of_mem_utf8EncodeChar beyond (parts ▸ List.mem_cons_self : first ∈ String.utf8EncodeChar c)
      rw [utf8_cons, parts, List.cons_append, List.cons.injEq] at h
      rw [h.1, toNat_toUInt8 small] at this
      omega

theorem digitsFollow_utf8_iff :
    DigitsFollow (b :: utf8 cs).toByteArray 0 ↔
      ∃ x y rest, cs = x :: y :: rest ∧ isHexDigit x = true ∧ isHexDigit y = true := by
  simp only [DigitsFollow, getElem?_toByteArray, List.getElem?_cons_succ]
  constructor
  · rintro ⟨x, y, hx, hy, first, second⟩
    obtain ⟨bs, bytes⟩ := List.head?_eq_some_iff.mp (List.head?_eq_getElem?.trans first)
    obtain ⟨cs, rfl, rfl⟩ := exists_of_utf8_eq_cons hx bytes
    rw [bytes, List.getElem?_cons_succ] at second
    obtain ⟨bs, bytes⟩ := List.head?_eq_some_iff.mp (List.head?_eq_getElem?.trans second)
    obtain ⟨cs, rfl, -⟩ := exists_of_utf8_eq_cons hy bytes
    exact ⟨x, y, cs, rfl, hx, hy⟩
  · rintro ⟨x, y, rest, rfl, hx, hy⟩
    refine ⟨x, y, hx, hy, ?_⟩
    rw [utf8_cons_of_lt (toNat_lt_of_isHexDigit hx), utf8_cons_of_lt (toNat_lt_of_isHexDigit hy)]
    exact ⟨rfl, rfl⟩

/-- A character that is no sign has none among its bytes. -/
theorem isWhole_utf8_cons_of_ne (other : c ≠ '%') :
    IsWhole (utf8 (c :: cs)).toByteArray ↔ IsWhole (utf8 cs).toByteArray := by
  rw [utf8_cons]
  refine isWhole_append (fun b hb sign => ?_) _
  rcases Nat.lt_or_ge c.toNat 0x80 with ascii | beyond
  · rw [utf8EncodeChar_of_lt ascii, List.mem_singleton] at hb
    have same : c.toNat = ('%' : Char).toNat := by
      rw [← toNat_toUInt8 ascii, ← hb, sign]
      rfl
    exact other (Char.toNat_inj.mp same)
  · have := le_of_mem_utf8EncodeChar beyond hb
    rw [sign] at this
    exact absurd this (by decide)

theorem isWhole_utf8_sign :
    IsWhole (utf8 ('%' :: cs)).toByteArray ↔
      (∃ x y rest, cs = x :: y :: rest ∧ isHexDigit x = true ∧ isHexDigit y = true) ∧
        IsWhole (utf8 cs).toByteArray := by
  rw [utf8_cons_of_lt (by decide), isWhole_cons, digitsFollow_utf8_iff]
  simp

theorem isWhole_utf8_iff : IsWhole (utf8 cs).toByteArray ↔ validEscapes cs = true := by
  fun_induction validEscapes cs with
  | case1 => exact iff_of_true (fun i h => by rw [getElem?_toByteArray] at h; cases h) rfl
  | case2 a b rest ih =>
    rw [isWhole_utf8_sign, Bool.and_eq_true, Bool.and_eq_true, ← ih]
    constructor
    · rintro ⟨⟨x, y, more, eq, hx, hy⟩, whole⟩
      obtain ⟨rfl, rfl, rfl⟩ : a = x ∧ b = y ∧ rest = more := by simpa using eq
      rw [isWhole_utf8_cons_of_ne (ne_percent hx), isWhole_utf8_cons_of_ne (ne_percent hy)] at whole
      exact ⟨⟨hx, hy⟩, whole⟩
    · rintro ⟨⟨ha, hb⟩, whole⟩
      rw [isWhole_utf8_cons_of_ne (ne_percent ha), isWhole_utf8_cons_of_ne (ne_percent hb)]
      exact ⟨⟨a, b, rest, rfl, ha, hb⟩, whole⟩
  | case3 c rest short ih =>
    by_cases sign : c = '%'
    · subst sign
      rw [isWhole_utf8_sign]
      refine iff_of_false ?_ (by simp)
      rintro ⟨⟨x, y, more, rfl, -, -⟩, -⟩
      exact short x y more rfl rfl
    · rw [isWhole_utf8_cons_of_ne sign, ih]
      simp [sign]

/-- **The bytes of a text say what its characters say.** -/
theorem hasWholeEscapes_eq (s : String) : hasWholeEscapes s = validEscapes s.toList := by
  rw [Bool.eq_iff_iff, hasWholeEscapes_iff, toUTF8_eq, isWhole_utf8_iff]

/-- A sign right behind an escape, where the text ends too soon, and one behind bytes beyond ASCII. -/
example : hasWholeEscapes "%41%4" = false ∧ hasWholeEscapes "é%C3%A9" = true := by
  rw [hasWholeEscapes_eq, hasWholeEscapes_eq]
  decide

end FlowDoc.Uri
