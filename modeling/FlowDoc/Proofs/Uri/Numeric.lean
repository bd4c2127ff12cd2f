import FlowDoc.Proofs.Text.Lines
import FlowDoc.Proofs.Uri.Percent
import FlowDoc.Proofs.Xml.Legal
import FlowDoc.Uri.Host

/-!
# Numeric hosts

The text of an IPv4 address is read as this address (`ipv4?_ipv4Text`), and the text of the eight groups of an IPv6
address as these groups (`exists_ipv6Text`). What is read is small enough for this: an IPv4 address has 32 bits
(`lt_of_ipv4?`), and each group of an IPv6 address has 16 (`IsGroups.of_ipv6?`).
-/

namespace FlowDoc.Uri

/-- What is in joined parts is in a part or between two. -/
theorem mem_of_mem_intercalate {separator : List Char} {parts : List (List Char)} {c : Char}
    (h : c ∈ separator.intercalate parts) : c ∈ separator ∨ ∃ part ∈ parts, c ∈ part := by
  induction parts with
  | nil => simp at h
  | cons part parts ih =>
    cases parts with
    | nil => exact Or.inr ⟨part, List.mem_singleton_self part, by simpa using h⟩
    | cons next parts =>
      rw [List.intercalate_cons_cons, List.mem_append, List.mem_append] at h
      rcases h with (h | h) | h
      · exact Or.inr ⟨part, List.mem_cons_self, h⟩
      · exact Or.inl h
      · exact (ih h).imp id fun ⟨p, mem, h⟩ => ⟨p, List.mem_cons_of_mem part mem, h⟩

/-! ## Numbers -/

theorem digitsValue?_concat (base : Nat) (cs : List Char) (c : Char) :
    digitsValue? base (cs ++ [c]) =
      (digitsValue? base cs).bind fun n =>
        (hexValue? c).bind fun d => if d < base then some (base * n + d) else none := by
  simp [digitsValue?, List.foldlM_append]

section

variable {base : Nat} (hb : 1 < base) (hx : base ≤ 16)
include hb hx

/-- Induction over the digits of a number, the last one first. -/
theorem toDigits_induction {P : Nat → List Char → Prop} (digit : ∀ d < base, P d [d.digitChar])
    (more : ∀ n d, d < base → 0 < n → P n (Nat.toDigits base n) →
      P (base * n + d) (Nat.toDigits base n ++ [d.digitChar])) (n : Nat) : P n (Nat.toDigits base n) := by
  induction n using Nat.strongRecOn with
  | ind n ih =>
    by_cases small : n < base
    · rw [Nat.toDigits_of_lt_base small]
      exact digit n small
    · rw [Nat.toDigits_of_base_le hb (by omega)]
      have step := more (n / base) (n % base) (Nat.mod_lt n (by omega)) (Nat.div_pos (by omega) (by omega))
        (ih (n / base) (Nat.div_lt_self (by omega) hb))
      rwa [Nat.div_add_mod] at step

/-- The digits of a number have its value. -/
theorem digitsValue?_toDigits (n : Nat) : digitsValue? base (Nat.toDigits base n) = some n := by
  have value {d : Nat} (h : d < base) : hexValue? d.digitChar = some d := hexValue?_digitChar d (by omega)
  induction n using toDigits_induction hb hx with
  | digit d h => simp [digitsValue?, value h, h]
  | more n d h _ ih => simp [digitsValue?_concat, ih, value h, h]

theorem isHexDigit_of_mem_toDigits {n : Nat} {c : Char} : c ∈ Nat.toDigits base n → isHexDigit c = true := by
  induction n using toDigits_induction hb hx with
  | digit d h =>
    rw [List.mem_singleton]
    rintro rfl
    exact isHexDigit_digitChar (by omega)
  | more n d h _ ih =>
    rw [List.mem_append, List.mem_singleton]
    rintro (mem | rfl)
    · exact ih mem
    · exact isHexDigit_digitChar (by omega)

end

/-- A number that is not zero begins with another digit. -/
theorem head?_toDigits {n : Nat} (h : 0 < n) : (Nat.toDigits 10 n).head? ≠ some '0' := by
  induction n using toDigits_induction (show 1 < 10 by decide) (by decide) with
  | digit d small => simpa using Nat.ne_of_gt h
  | more n d _ pos ih =>
    rw [List.head?_append]
    cases front : Nat.toDigits 10 n with
    | nil => exact absurd front Nat.toDigits_ne_nil
    | cons c cs => simpa [front] using ih pos

theorem not_mem_toDigits {base : Nat} (hb : 1 < base) (hx : base ≤ 16) (n : Nat) {c : Char}
    (h : isHexDigit c = false) : c ∉ Nat.toDigits base n := fun mem => by
  rw [isHexDigit_of_mem_toDigits hb hx mem] at h
  cases h

/-- A number spelt with few digits is small. -/
theorem lt_of_digitsValue? {base : Nat} {cs : List Char} {n : Nat} (h : digitsValue? base cs = some n) :
    n < base ^ cs.length := by
  induction cs using List.reverseRecOn generalizing n with
  | nil =>
    cases h
    simp
  | append_singleton cs c ih =>
    rw [digitsValue?_concat] at h
    obtain ⟨m, front, h⟩ := Option.bind_eq_some_iff.mp h
    obtain ⟨d, -, h⟩ := Option.bind_eq_some_iff.mp h
    split at h
    · rename_i small
      cases h
      rw [List.length_append, List.length_singleton, Nat.pow_succ']
      calc base * m + d < base * m + base := by omega
        _ = base * (m + 1) := by rw [Nat.mul_succ]
        _ ≤ base * base ^ cs.length := Nat.mul_le_mul_left base (ih front)
    · cases h

/-! ## IPv4 -/

/-- A label of decimal digits is read as its number. -/
theorem ipv4Number?_toDigits (n : Nat) : ipv4Number? (Nat.toDigits 10 n) = some n := by
  have value : digitsValue? 10 (Nat.toDigits 10 n) = some n := digitsValue?_toDigits (by decide) (by decide) n
  cases hd : Nat.toDigits 10 n with
  | nil => exact absurd hd Nat.toDigits_ne_nil
  | cons c cs =>
    rw [hd] at value
    by_cases zero : c = '0'
    · subst zero
      rcases Nat.eq_zero_or_pos n with rfl | pos
      · rw [Nat.toDigits_zero] at hd
        cases hd
        rfl
      · exact absurd (by rw [hd]; rfl) (head?_toDigits pos)
    · rw [ipv4Number?]
      · exact value
      · intro empty
        cases empty
      · rintro x rest same
        cases same
        exact zero rfl

theorem mapM_ipv4Number?_toDigits (ns : List Nat) : (ns.map (Nat.toDigits 10)).mapM ipv4Number? = some ns := by
  induction ns with
  | nil => rfl
  | cons n ns ih => simp [ipv4Number?_toDigits, ih]

/-- The labels of numbers with points between them. -/
theorem labels_intercalate {ns : List Nat} (nonempty : ns ≠ []) :
    labels (['.'].intercalate (ns.map (Nat.toDigits 10))) = ns.map (Nat.toDigits 10) := by
  have split : (['.'].intercalate (ns.map (Nat.toDigits 10))).splitOn '.' = ns.map (Nat.toDigits 10) := by
    refine List.splitOn_intercalate '.' (fun l hl => ?_) (by simpa using nonempty)
    obtain ⟨n, -, rfl⟩ := List.mem_map.mp hl
    exact not_mem_toDigits (by decide) (by decide) n (by decide)
  rw [labels, split, if_neg]
  simp [List.getLast?_eq_some_iff, Nat.toDigits_ne_nil]

theorem toList_ipv4Text (n : Nat) :
    (ipv4Text n).toList = ['.'].intercalate
      ([n / 256 / 256 / 256, n / 256 / 256 % 256, n / 256 % 256, n % 256].map (Nat.toDigits 10)) := by
  rw [← show ".".toList = ['.'] from rfl, ← Text.toList_intercalate_ofList, List.map_map]
  rfl

/-- The text of an address of 32 bits is read as this address. -/
theorem ipv4?_ipv4Text {n : Nat} (h : n < 2 ^ 32) : ipv4? (ipv4Text n).toList = some n := by
  rw [ipv4?, toList_ipv4Text, labels_intercalate (List.cons_ne_nil _ _), mapM_ipv4Number?_toDigits]
  simp
  omega

/-- Bytes from place `i` on add less than a byte before them counts. -/
theorem total_le {bytes : List Nat} (small : ∀ n ∈ bytes, n ≤ 255) {i : Nat} (fits : i + bytes.length ≤ 4)
    (total : Nat) :
    (bytes.zipIdx i).foldl (fun total (n, i) => total + n * 256 ^ (3 - i)) total + 256 ^ (4 - i - bytes.length) ≤
      total + 256 ^ (4 - i) := by
  -- what the bytes before add is in `total`, and the first of the rest is at place `i`
  induction bytes generalizing i total with
  | nil => simp
  | cons n bytes ih =>
    rw [List.length_cons] at fits
    obtain ⟨byte, small⟩ := List.forall_mem_cons.mp small
    have rest := ih small (i := i + 1) (by omega) (total + n * 256 ^ (3 - i))
    rw [List.zipIdx_cons, List.foldl_cons, List.length_cons,
      show 4 - i - (bytes.length + 1) = 4 - (i + 1) - bytes.length by omega]
    calc _ ≤ total + n * 256 ^ (3 - i) + 256 ^ (4 - (i + 1)) := rest
      _ = total + (n + 1) * 256 ^ (3 - i) := by rw [show 4 - (i + 1) = 3 - i by omega, Nat.succ_mul, Nat.add_assoc]
      _ ≤ total + 256 * 256 ^ (3 - i) := Nat.add_le_add_left (Nat.mul_le_mul_right _ (Nat.succ_le_succ byte)) total
      _ = total + 256 ^ (4 - i) := by rw [show 4 - i = 3 - i + 1 by omega, Nat.pow_succ']

/-- Up to three bytes and a number that fills the rest. -/
theorem total_lt {bytes : List Nat} (length : bytes.length ≤ 3) (small : ∀ n ∈ bytes, n ≤ 255) {last : Nat}
    (final : last < 256 ^ (4 - bytes.length)) :
    bytes.zipIdx.foldl (fun total (n, i) => total + n * 256 ^ (3 - i)) last < 2 ^ 32 := by
  have total := total_le small (i := 0) (by omega) last
  rw [Nat.sub_zero] at total
  omega

/-- An address that is read has 32 bits. -/
theorem lt_of_ipv4? {domain : List Char} {n : Nat} (h : ipv4? domain = some n) : n < 2 ^ 32 := by
  obtain ⟨numbers, -, h⟩ := Option.bind_eq_some_iff.mp h
  obtain ⟨last, -, h⟩ := Option.bind_eq_some_iff.mp h
  dsimp only at h
  split at h
  · cases h
  · rename_i fits
    simp only [Bool.or_eq_true, decide_eq_true_eq, List.any_eq_true, not_or, Nat.not_lt, Nat.not_le, not_exists,
      not_and] at fits
    obtain ⟨⟨length, bytes⟩, final⟩ := fits
    cases h
    exact total_lt length bytes final

/-! ## IPv6 -/

/-- Eight groups of 16 bits. -/
structure IsGroups (groups : List Nat) : Prop where
  length : groups.length = 8
  small : ∀ g ∈ groups, g < 0x10000

/-- The text of groups, colons between them. -/
def groupsText (groups : List Nat) : List Char := [':'].intercalate (groups.map (Nat.toDigits 16))

/-! ### Groups that are read -/

theorem small_of_embeddedIpv4? {cs : List Char} {groups : List Nat} (h : embeddedIpv4? cs = some groups) :
    ∀ g ∈ groups, g < 0x10000 := by
  obtain ⟨bytes, read, h⟩ := Option.bind_eq_some_iff.mp h
  have small {b : Nat} (mem : b ∈ bytes) : b ≤ 255 := by
    obtain ⟨part, -, found⟩ := Xml.exists_of_mapM read b mem
    dsimp only at found
    split at found
    · cases found
    · obtain ⟨n, -, found⟩ := Option.bind_eq_some_iff.mp found
      split at found
      · cases found
      · rename_i fits
        cases found
        simp only [Bool.or_eq_true, decide_eq_true_eq, not_or, Nat.not_lt] at fits
        exact fits.1
  split at h
  · rename_i a b c d
    cases h
    have ha := small (b := a) (by simp)
    have hb := small (b := b) (by simp)
    have hc := small (b := c) (by simp)
    have hd := small (b := d) (by simp)
    rw [List.forall_mem_cons, List.forall_mem_singleton]
    omega
  · cases h

theorem small_of_ipv6Groups? {final : Bool} {parts : List (List Char)} {groups : List Nat}
    (h : ipv6Groups? final parts = some groups) : ∀ g ∈ groups, g < 0x10000 := by
  induction parts generalizing groups with
  | nil =>
    cases h
    exact List.forall_mem_nil _
  | cons p ps ih =>
    rw [ipv6Groups?] at h
    split at h
    · exact small_of_embeddedIpv4? h
    · dsimp only at h
      split at h
      · cases h
      · rename_i fits
        simp only [Bool.or_eq_true, decide_eq_true_eq, not_or, Nat.not_lt] at fits
        obtain ⟨n, read, h⟩ := Option.bind_eq_some_iff.mp h
        obtain ⟨rest, more, same⟩ := Option.bind_eq_some_iff.mp h
        cases same
        refine List.forall_mem_cons.mpr ⟨?_, ih more⟩
        calc n < 16 ^ p.length := lt_of_digitsValue? read
          _ ≤ 16 ^ 4 := Nat.pow_le_pow_right (by decide) fits.2

theorem small_of_sideGroups? {final : Bool} {side : List Char} {groups : List Nat}
    (h : sideGroups? final side = some groups) : ∀ g ∈ groups, g < 0x10000 := by
  rw [sideGroups?] at h
  split at h
  · cases h
    exact List.forall_mem_nil _
  · exact small_of_ipv6Groups? h

theorem IsGroups.of_ipv6? {cs : List Char} {groups : List Nat} (h : ipv6? cs = some groups) : IsGroups groups := by
  rw [ipv6?] at h
  split at h
  · obtain ⟨l, left, h⟩ := Option.bind_eq_some_iff.mp h
    obtain ⟨r, right, h⟩ := Option.bind_eq_some_iff.mp h
    split at h
    · cases h
    · cases h
      refine ⟨by simp; omega, ?_⟩
      rw [List.forall_mem_append, List.forall_mem_append]
      exact ⟨⟨small_of_sideGroups? left, fun g mem => by rw [List.eq_of_mem_replicate mem]; decide⟩,
        small_of_sideGroups? right⟩
  · obtain ⟨read, all, h⟩ := Option.bind_eq_some_iff.mp h
    split at h
    · cases h
      exact ⟨‹_›, small_of_ipv6Groups? all⟩
    · cases h

/-! ### Groups that are written -/

variable {groups : List Nat}

theorem ipv6Groups?_toDigits (final : Bool) (small : ∀ g ∈ groups, g < 0x10000) :
    ipv6Groups? final (groups.map (Nat.toDigits 16)) = some groups := by
  induction groups with
  | nil => rfl
  | cons g gs ih =>
    obtain ⟨fits, small⟩ := List.forall_mem_cons.mp small
    have length : (Nat.toDigits 16 g).length ≤ 4 := (Nat.length_toDigits_le_iff (by decide) (by decide)).mpr fits
    have point : '.' ∉ Nat.toDigits 16 g := not_mem_toDigits (by decide) (by decide) g (by decide)
    rw [List.map_cons, ipv6Groups?, if_neg (by simp [point]), if_neg (by simp [Nat.toDigits_ne_nil, length]),
      digitsValue?_toDigits (by decide) (by decide), ih small]
    rfl

theorem splitOn_groupsText (nonempty : groups ≠ []) :
    (groupsText groups).splitOn ':' = groups.map (Nat.toDigits 16) := by
  refine List.splitOn_intercalate ':' (fun l hl => ?_) (by simpa using nonempty)
  obtain ⟨g, -, rfl⟩ := List.mem_map.mp hl
  exact not_mem_toDigits (by decide) (by decide) g (by decide)

theorem groupsText_cons_cons (g h : Nat) (gs : List Nat) :
    groupsText (g :: h :: gs) = Nat.toDigits 16 g ++ ':' :: groupsText (h :: gs) := by
  simp [groupsText, List.intercalate_cons_cons]

theorem groupsText_singleton (g : Nat) : groupsText [g] = Nat.toDigits 16 g := by simp [groupsText]

/-- The text of groups begins with a digit. -/
theorem exists_groupsText (g : Nat) (gs : List Nat) : ∃ c cs, groupsText (g :: gs) = c :: cs ∧ c ≠ ':' := by
  cases digits : Nat.toDigits 16 g with
  | nil => exact absurd digits Nat.toDigits_ne_nil
  | cons c cs =>
    have other : c ≠ ':' := by
      rintro rfl
      exact not_mem_toDigits (show 1 < 16 by decide) (by decide) g (by decide) (digits ▸ List.mem_cons_self)
    cases gs with
    | nil => exact ⟨c, cs, by rw [groupsText_singleton, digits], other⟩
    | cons h gs => exact ⟨c, _, by rw [groupsText_cons_cons, digits, List.cons_append], other⟩

theorem sideGroups?_groupsText (final : Bool) (small : ∀ g ∈ groups, g < 0x10000) :
    sideGroups? final (groupsText groups) = some groups := by
  cases groups with
  | nil => rfl
  | cons g gs =>
    obtain ⟨c, cs, begins, -⟩ := exists_groupsText g gs
    rw [sideGroups?, if_neg (by simp [begins]), splitOn_groupsText (List.cons_ne_nil g gs),
      ipv6Groups?_toDigits final small]

/-! ### The pair of colons -/

theorem splitAtPair_cons {c : Char} {cs : List Char} (h : c ≠ ':' ∨ cs.head? ≠ some ':') :
    splitAtPair (c :: cs) = (splitAtPair cs).map fun (l, r) => (c :: l, r) := by
  rw [splitAtPair]
  rintro rest rfl rfl
  simp at h

theorem splitAtPair_append {part : List Char} (h : ':' ∉ part) (cs : List Char) :
    splitAtPair (part ++ cs) = (splitAtPair cs).map fun (l, r) => (part ++ l, r) := by
  induction part with
  | nil => simp
  | cons c part ih =>
    rw [List.mem_cons, not_or] at h
    rw [List.cons_append, splitAtPair_cons (Or.inl (Ne.symm h.1)), ih h.2, Option.map_map]
    rfl

/-- No two colons are next to each other in the text of groups. -/
theorem splitAtPair_groupsText (groups : List Nat) (cs : List Char) :
    splitAtPair (groupsText groups ++ cs) = (splitAtPair cs).map fun (l, r) => (groupsText groups ++ l, r) := by
  induction groups with
  | nil => simp [groupsText]
  | cons g gs ih =>
    have digits : ':' ∉ Nat.toDigits 16 g := not_mem_toDigits (by decide) (by decide) g (by decide)
    cases gs with
    | nil => rw [groupsText_singleton, splitAtPair_append digits]
    | cons h gs =>
      obtain ⟨c, rest, begins, other⟩ := exists_groupsText h gs
      rw [groupsText_cons_cons, List.append_assoc, splitAtPair_append digits, List.cons_append,
        splitAtPair_cons (Or.inr (by simpa [begins] using other)), ih, Option.map_map, Option.map_map]
      simp [Function.comp_def]

/-! ### Runs of zeros -/

theorem zeroRun_le_length (groups : List Nat) : zeroRun groups ≤ groups.length :=
  (List.takeWhile_sublist _).length_le

theorem take_zeroRun (groups : List Nat) : groups.take (zeroRun groups) = List.replicate (zeroRun groups) 0 := by
  rw [zeroRun, ← List.prefix_iff_eq_take.mp (List.takeWhile_prefix _), List.eq_replicate_iff]
  exact ⟨rfl, fun g mem => by simpa using List.mem_takeWhile_imp mem⟩

/-- The longest run lies within the groups and is one of zeros. -/
theorem longestZeroRun_spec (i : Nat) (groups : List Nat) :
    ∃ k n, longestZeroRun i groups = (i + k, n) ∧ k + n ≤ groups.length ∧
      (groups.drop k).take n = List.replicate n 0 := by
  induction groups generalizing i with
  | nil => exact ⟨0, 0, rfl, Nat.le_refl 0, rfl⟩
  | cons g gs ih =>
    obtain ⟨k, n, found, fits, zeros⟩ := ih (i + 1)
    by_cases longer : n ≤ zeroRun (g :: gs)
    · refine ⟨0, zeroRun (g :: gs), ?_, ?_, take_zeroRun _⟩
      · simp [longestZeroRun, found, longer]
      · simpa using zeroRun_le_length (g :: gs)
    · refine ⟨k + 1, n, ?_, ?_, zeros⟩
      · simp [longestZeroRun, found, longer]
        omega
      · simp
        omega

/-- Groups around a run of zeros. -/
theorem eq_around_zeros {k n : Nat} (zeros : (groups.drop k).take n = List.replicate n 0) :
    groups = groups.take k ++ List.replicate n 0 ++ groups.drop (k + n) := by
  rw [← zeros, List.append_assoc, ← List.drop_drop, List.take_append_drop, List.take_append_drop]

/-! ### Addresses in brackets -/

theorem mem_groupsText {c : Char} (h : c ∈ groupsText groups) : isHexDigit c = true ∨ c = ':' := by
  rcases mem_of_mem_intercalate h with colon | ⟨part, mem, digit⟩
  · exact Or.inr (List.mem_singleton.mp colon)
  · obtain ⟨g, -, rfl⟩ := List.mem_map.mp mem
    exact Or.inl (isHexDigit_of_mem_toDigits (by decide) (by decide) digit)

theorem toList_intercalate_toDigits (groups : List Nat) :
    (":".intercalate (groups.map fun g => String.ofList (Nat.toDigits 16 g))).toList = groupsText groups := by
  rw [groupsText, ← show ":".toList = [':'] from rfl, ← Text.toList_intercalate_ofList, List.map_map]
  rfl

/-- What stands between the brackets of an address: its groups, or those around a run of zeros. -/
theorem toList_ipv6Text (groups : List Nat) :
    ∃ inner, (ipv6Text groups).toList = '[' :: inner ++ [']'] ∧
      (inner = groupsText groups ∨ ∃ k n, 2 ≤ n ∧ k + n ≤ groups.length ∧
        (groups.drop k).take n = List.replicate n 0 ∧
        inner = groupsText (groups.take k) ++ ':' :: ':' :: groupsText (groups.drop (k + n))) := by
  obtain ⟨k, n, found, fits, zeros⟩ := longestZeroRun_spec 0 groups
  rw [Nat.zero_add] at found
  rw [ipv6Text, found]
  dsimp only
  split
  · refine ⟨groupsText groups, ?_, Or.inl rfl⟩
    rw [String.toList_append, String.toList_append, toList_intercalate_toDigits]
    rfl
  · refine ⟨_, ?_, Or.inr ⟨k, n, by omega, fits, zeros, rfl⟩⟩
    simp only [String.toList_append, toList_intercalate_toDigits]
    simp

/-- The text of eight groups is read as these groups. -/
theorem exists_ipv6Text (h : IsGroups groups) :
    ∃ inner, (ipv6Text groups).toList = '[' :: inner ++ [']'] ∧ ipv6? inner = some groups ∧
      ∀ c ∈ inner, isHexDigit c = true ∨ c = ':' := by
  obtain ⟨inner, text, shape⟩ := toList_ipv6Text groups
  refine ⟨inner, text, ?_⟩
  rcases shape with rfl | ⟨k, n, two, fits, zeros, rfl⟩
  · have single : splitAtPair (groupsText groups) = none := by
      simpa [splitAtPair] using splitAtPair_groupsText groups []
    have nonempty : groups ≠ [] := List.ne_nil_of_length_pos (by rw [h.length]; decide)
    refine ⟨?_, fun c => mem_groupsText⟩
    rw [ipv6?, single, splitOn_groupsText nonempty, ipv6Groups?_toDigits true h.small]
    simp [h.length]
  · have pair := splitAtPair_groupsText (groups.take k) (':' :: ':' :: groupsText (groups.drop (k + n)))
    have left : sideGroups? false (groupsText (groups.take k)) = some (groups.take k) :=
      sideGroups?_groupsText false fun g mem => h.small g (List.mem_of_mem_take mem)
    have right : sideGroups? true (groupsText (groups.drop (k + n))) = some (groups.drop (k + n)) :=
      sideGroups?_groupsText true fun g mem => h.small g (List.mem_of_mem_drop mem)
    have size := h.length
    constructor
    · rw [ipv6?, pair, splitAtPair, Option.map_some]
      dsimp only
      rw [List.append_nil, left, right]
      simp only [Option.bind_eq_bind, Option.bind_some, List.length_take, List.length_drop]
      rw [if_neg (by omega)]
      congr 1
      -- as many zeros are filled in as were left out
      rw [eq_comm, show 8 - min k groups.length - (groups.length - (k + n)) = n by omega]
      exact eq_around_zeros zeros
    · simp only [List.mem_append, List.mem_cons]
      rintro c (mem | rfl | rfl | mem)
      · exact mem_groupsText mem
      · exact Or.inr rfl
      · exact Or.inr rfl
      · exact mem_groupsText mem

end FlowDoc.Uri
