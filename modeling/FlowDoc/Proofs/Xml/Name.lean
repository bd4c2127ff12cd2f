import FlowDoc.Proofs.Xml.Nesting

/-!
# Reading names

A name of the grammar, with a prefix or without, is read back up to the first character that no name goes on with
(**`Spells.read`**).
-/

namespace FlowDoc.Xml

/-- Whether no name goes on with a text. -/
def StopsName (rest : List Char) : Prop := ∀ c ∈ rest.head?, isNameChar c = false ∧ c ≠ ':'

theorem stopsName_nil : StopsName [] := by simp [StopsName]

theorem stopsName_cons {c : Char} (h : isNameChar c = false ∧ c ≠ ':') (rest : List Char) : StopsName (c :: rest) := by
  simpa [StopsName] using h

/-- A span ends where what follows does not go on with it. -/
theorem span_append {p : Char → Bool} {cs rest : List Char} (inside : ∀ c ∈ cs, p c = true)
    (stop : ∀ c ∈ rest.head?, p c = false) :
    (cs ++ rest).takeWhile p = cs ∧ (cs ++ rest).dropWhile p = rest := by
  rw [List.takeWhile_append_of_pos inside, List.dropWhile_append_of_pos inside]
  cases rest with
  | nil => simp
  | cons c rest =>
    have other : p c = false := stop c rfl
    simp [other]

/-- The characters of a name, and what comes after them. -/
theorem span_plainName {s : String} (h : isPlainName s = true) {rest : List Char}
    (stop : ∀ c ∈ rest.head?, isNameChar c = false) :
    (s.toList ++ rest).takeWhile isNameChar = s.toList ∧ (s.toList ++ rest).dropWhile isNameChar = rest :=
  span_append (List.all_eq_true.mp (Bool.and_eq_true_iff.mp h).2) stop

theorem readQName?_plain {s : String} (h : isPlainName s = true) {rest : List Char} (stop : StopsName rest) :
    readQName? (s.toList ++ rest) = some (⟨"", s⟩, rest) := by
  obtain ⟨taken, left⟩ := span_plainName h fun c hc => (stop c hc).1
  have start : isName s.toList = true := (Bool.and_eq_true_iff.mp h).1
  unfold readQName?
  rw [taken, left]
  cases rest with
  | nil => simp [start]
  | cons c rest =>
    have colon : c ≠ ':' := (stop c rfl).2
    split
    · next same => exact absurd (List.cons.inj same).1 colon
    · simp [start]

theorem readQName?_prefixed {pre s : String} (hp : isPlainName pre = true) (hs : isPlainName s = true)
    {rest : List Char} (stop : StopsName rest) :
    readQName? ((pre ++ ":" ++ s).toList ++ rest) = some (⟨pre, s⟩, rest) := by
  have colon : ∀ c ∈ (':' :: (s.toList ++ rest)).head?, isNameChar c = false := by
    intro c hc
    obtain rfl : c = ':' := by simpa [eq_comm] using hc
    decide
  obtain ⟨taken, left⟩ := span_plainName hp colon
  obtain ⟨taken', left'⟩ := span_plainName hs fun c hc => (stop c hc).1
  have start : isName pre.toList = true := (Bool.and_eq_true_iff.mp hp).1
  have start' : isName s.toList = true := (Bool.and_eq_true_iff.mp hs).1
  have last : (rest.head? != some ':') = true := by
    rw [bne_iff_ne]
    exact fun same => (stop ':' same).2 rfl
  have chars : (pre ++ ":" ++ s).toList ++ rest = pre.toList ++ ':' :: (s.toList ++ rest) := by simp
  rw [readQName?, chars, taken, left]
  simp only [taken', left', start', start, last, Bool.or_true, Bool.and_self, if_true, String.ofList_toList]

/-! ## Spelled names -/

/-- Whether a text spells a name, with its prefix if there is one. -/
inductive Spells : String → QName → Prop
  | plain {name : String} : isPlainName name = true → Spells name ⟨"", name⟩
  | prefixed {pre name : String} : isPlainName pre = true → isPlainName name = true →
      Spells (pre ++ ":" ++ name) ⟨pre, name⟩

theorem IsQualified.spells {s : String} (h : IsQualified s) : ∃ q, Spells s q := by
  cases h with
  | plain h => exact ⟨_, .plain h⟩
  | prefixed hp hs => exact ⟨_, .prefixed hp hs⟩

namespace Spells

variable {s : String} {q : QName}

/-- **Reading a name.** -/
theorem read (h : Spells s q) {rest : List Char} (stop : StopsName rest) :
    readQName? (s.toList ++ rest) = some (q, rest) := by
  cases h with
  | plain h => exact readQName?_plain h stop
  | prefixed hp hs => exact readQName?_prefixed hp hs stop

/-- A name is spelled in one way. -/
theorem injective {t : String} (h : Spells s q) (h' : Spells t q) (pre : q.pre ≠ "") : s = t := by
  cases h with
  | plain => exact absurd rfl pre
  | prefixed =>
    cases h' with
    | plain => exact absurd rfl pre
    | prefixed => rfl

/-- A spelled name begins as names do. -/
theorem start (h : Spells s q) : ∃ c cs, s.toList = c :: cs ∧ isNameStart c = true := by
  have first : ∀ {t : String}, isPlainName t = true → ∃ c cs, t.toList = c :: cs ∧ isNameStart c = true := by
    intro t ht
    have named : isName t.toList = true := (Bool.and_eq_true_iff.mp ht).1
    cases ht' : t.toList with
    | nil => rw [ht'] at named; cases named
    | cons c cs => rw [ht'] at named; exact ⟨c, cs, rfl, by simpa [isName] using named⟩
  cases h with
  | plain hs => exact first hs
  | @prefixed pre name hp hs =>
    obtain ⟨c, cs, chars, hc⟩ := first hp
    exact ⟨c, cs ++ ':' :: name.toList, by simp [chars], hc⟩

end Spells

end FlowDoc.Xml
