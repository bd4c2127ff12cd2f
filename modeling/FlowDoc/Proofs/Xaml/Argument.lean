import FlowDoc.Xaml.Markup
import FlowDoc.Xml.Token
import Mathlib.Data.List.DropRight

/-!
# Reading the texts of arguments back

How a reader takes the value of an argument in a markup extension (`readValue`): an extension behind a brace, a text in
quotes up to the next quote, or a text up to the next mark without the white space around it. In both kinds of text a
backslash stands for the character after it (`readUntil`).

In the text of an argument the quotes are written behind a backslash, a backslash as it is. Where there is one, reading
takes more than it gives and never makes up for it (`not_read_behind`). So a text is read back exactly if it has no
backslash and, where it stands without quotes, no white space around it and no double quote in front
(**`readValue_text`**).
-/

namespace FlowDoc.Xaml

open Text (isMarkupSpace)
open Xml (skipSpaces)

/-! ## Readers -/

mutual

/-- What the value of an attribute says. -/
inductive Meaning
  | text (s : String)
  | extension (name : String) (arguments : List Argument)

/-- An argument of an extension, by its place or by its name. What is read has one value. -/
inductive Argument
  | mk (name : Option String) (values : List Meaning)

end

/-- Read up to where the text stops. A backslash stands for the character after it, wherever that is. -/
def readUntil (stops : List Char → Bool) : List Char → Option (List Char × List Char)
  | [] => none
  | '\\' :: c :: cs => (readUntil stops cs).map fun (text, rest) => (c :: text, rest)
  | c :: cs =>
    if stops (c :: cs) then some ([], c :: cs) else (readUntil stops cs).map fun (text, rest) => (c :: text, rest)

def isQuote (c : Char) : Bool := c == '\'' || c == '"'

/-- Whether a character ends an argument without quotes. -/
def isStop (c : Char) : Bool := c == ',' || c == '}' || c == '='

/-- Whether an argument without quotes ends here, perhaps before white space. -/
def endsBare (cs : List Char) : Bool := (skipSpaces cs).head?.any isStop

/-- Read the value of an argument, with a reader for what follows an opening brace. -/
def readValue (inner : List Char → Option (Meaning × List Char)) (cs : List Char) : Option (Meaning × List Char) :=
  match skipSpaces cs with
  | '{' :: rest => (inner rest).map fun (m, rest) => (m, skipSpaces rest)
  | c :: rest =>
    if isQuote c then
      (readUntil (·.head? == some c) rest).map fun (text, rest) => (.text (String.ofList text), skipSpaces rest.tail)
    else (readUntil endsBare (c :: rest)).map fun (text, rest) => (.text (String.ofList text), skipSpaces rest)
  | [] => none

/-! ## Escaped texts -/

/-- A text with some characters behind a backslash. -/
def escapeMarks (mark : Char → Bool) (cs : List Char) : List Char :=
  cs.flatMap fun c => if mark c then ['\\', c] else [c]

section Escapes

variable {stops : List Char → Bool} {mark : Char → Bool} {d : Char} {rest : List Char}

theorem escapeMarks_cons (c : Char) (cs : List Char) :
    escapeMarks mark (c :: cs) = (if mark c then ['\\', c] else [c]) ++ escapeMarks mark cs := rfl

theorem escapeMarks_of_not {cs : List Char} (h : ∀ c ∈ cs, mark c = false) : escapeMarks mark cs = cs := by
  induction cs with
  | nil => rfl
  | cons c cs ih =>
    obtain ⟨first, later⟩ := List.forall_mem_cons.mp h
    rw [escapeMarks_cons, first, ih later]
    rfl

theorem readUntil_backslash (c : Char) (cs : List Char) :
    readUntil stops ('\\' :: c :: cs) = (readUntil stops cs).map fun (text, rest) => (c :: text, rest) := by
  rw [readUntil]

theorem readUntil_cons {c : Char} (h : c ≠ '\\') (cs : List Char) :
    readUntil stops (c :: cs) =
      if stops (c :: cs) then some ([], c :: cs)
      else (readUntil stops cs).map fun (text, rest) => (c :: text, rest) := by
  rw [readUntil]
  intro c' cs' same
  exact absurd same h

/-- What is read from an escaped character on. -/
theorem readUntil_mark {c : Char} (hc : mark c = true) (cs : List Char) :
    readUntil stops (escapeMarks mark (c :: cs) ++ d :: rest) =
      (readUntil stops (escapeMarks mark cs ++ d :: rest)).map fun (text, rest) => (c :: text, rest) := by
  rw [escapeMarks_cons, if_pos hc]
  exact readUntil_backslash c _

/-- What is read from a plain character on. -/
theorem readUntil_plain {c : Char} (hc : ¬mark c = true) (plain : c ≠ '\\') (cs : List Char) :
    readUntil stops (escapeMarks mark (c :: cs) ++ d :: rest) =
      if stops (c :: (escapeMarks mark cs ++ d :: rest)) then some ([], c :: (escapeMarks mark cs ++ d :: rest))
      else (readUntil stops (escapeMarks mark cs ++ d :: rest)).map fun (text, rest) => (c :: text, rest) := by
  rw [escapeMarks_cons, if_neg hc]
  exact readUntil_cons plain _

/-- A text without backslashes is read up to the stop after it, if nothing stops in it. -/
theorem readUntil_escape (hd : stops (d :: rest) = true) (noEscape : d ≠ '\\') : ∀ {cs : List Char}, '\\' ∉ cs →
    (∀ u c v, cs = u ++ c :: v → mark c = false → stops (c :: (escapeMarks mark v ++ d :: rest)) = false) →
      readUntil stops (escapeMarks mark cs ++ d :: rest) = some (cs, d :: rest)
  | [], _, _ => by
    show readUntil stops (d :: rest) = _
    rw [readUntil_cons noEscape, if_pos hd]
  | c :: cs, free, through => by
    have plain : c ≠ '\\' := fun e => free (e ▸ List.mem_cons_self)
    have later := readUntil_escape hd noEscape (fun mem => free (List.mem_cons_of_mem _ mem))
      (fun u x v split => through (c :: u) x v (congrArg (c :: ·) split))
    by_cases hc : mark c = true
    · rw [readUntil_mark hc, later]
      rfl
    · rw [readUntil_plain hc plain, through [] c cs rfl (Bool.eq_false_iff.mpr hc), later]
      rfl

/-- A text with a first character was read to that character. -/
theorem read_cons {o : Option (List Char × List Char)} {c x : Char} {t r : List Char}
    (h : (o.map fun (text, rest) => (c :: text, rest)) = some (x :: t, r)) : x = c ∧ o = some (t, r) := by
  obtain ⟨⟨text, left⟩, found, same⟩ := Option.map_eq_some_iff.mp h
  cases same
  exact ⟨rfl, found⟩

/-- What is read from a backslash of the text on, which is written as it is: it takes the stop after the text, or the
backslash before a mark, which then ends the text, or a plain character. -/
theorem readUntil_raw (noMark : mark '\\' = false) (marks : ∀ c cs, mark c = true → stops (c :: cs) = true)
    {cs t r : List Char} (read : readUntil stops (escapeMarks mark ('\\' :: cs) ++ d :: rest) = some (t, r)) :
    (cs = [] ∧ t.head? = some d) ∨ (cs ≠ [] ∧ t = ['\\']) ∨
      ∃ y cs' t', cs = y :: cs' ∧ mark y = false ∧ t = y :: t' ∧
        readUntil stops (escapeMarks mark cs' ++ d :: rest) = some (t', r) := by
  rw [escapeMarks_cons, noMark] at read
  cases cs with
  | nil =>
    obtain ⟨⟨text, left⟩, -, same⟩ := Option.map_eq_some_iff.mp ((readUntil_backslash d rest).symm.trans read)
    cases same
    exact .inl ⟨rfl, rfl⟩
  | cons y cs =>
    rw [escapeMarks_cons] at read
    by_cases hy : mark y = true
    · have plain : y ≠ '\\' := fun e => by rw [e, noMark] at hy; cases hy
      rw [if_pos hy] at read
      obtain ⟨⟨text, left⟩, ended, same⟩ := Option.map_eq_some_iff.mp
        ((readUntil_backslash '\\' (y :: (escapeMarks mark cs ++ d :: rest))).symm.trans read)
      rw [readUntil_cons plain, if_pos (marks y _ hy)] at ended
      cases ended
      cases same
      exact .inr (.inl ⟨List.cons_ne_nil _ _, rfl⟩)
    · rw [if_neg hy] at read
      obtain ⟨⟨text, left⟩, later, same⟩ := Option.map_eq_some_iff.mp
        ((readUntil_backslash y (escapeMarks mark cs ++ d :: rest)).symm.trans read)
      cases same
      exact .inr (.inr ⟨y, cs, text, rfl, Bool.eq_false_iff.mpr hy, rfl, later⟩)

/-- What reading a text gives is never the text with more in front of it. Reading consumes what it gives, and where a
backslash lets it consume more than it gives, it only falls further behind. -/
theorem not_read_behind (noEscape : d ≠ '\\') (noMark : mark '\\' = false)
    (marks : ∀ c cs, mark c = true → stops (c :: cs) = true) : ∀ (n : Nat) {cs w t r : List Char}, cs.length ≤ n →
      (∀ c ∈ cs, c = d → mark c = true) → (∀ c ∈ w, c ≠ d ∧ mark c = false) → w ≠ [] →
        readUntil stops (escapeMarks mark cs ++ d :: rest) = some (t, r) → ¬w ++ cs <+: t
  | n, [], x :: w, t, r, _, _, ahead, _, read => by
    rintro ⟨more, rfl⟩
    have other := (ahead x List.mem_cons_self).1
    have read : readUntil stops (d :: rest) = some (x :: (w ++ [] ++ more), r) := read
    rw [readUntil_cons noEscape] at read
    split at read
    · cases read
    · exact other (read_cons read).1
  | n + 1, c :: cs, x :: w, t, r, short, inside, ahead, _, read => by
    rintro ⟨more, rfl⟩
    obtain ⟨⟨other, unmarked⟩, later⟩ := List.forall_mem_cons.mp ahead
    have read : readUntil stops (escapeMarks mark (c :: cs) ++ d :: rest) = some (x :: (w ++ c :: cs ++ more), r) := read
    by_cases hc : mark c = true
    · rw [readUntil_mark hc] at read
      rw [(read_cons read).1, hc] at unmarked
      cases unmarked
    by_cases escape : c = '\\'
    · subst escape
      rcases readUntil_raw noMark marks read with ⟨-, taken⟩ | ⟨-, ended⟩ | ⟨y, cs', t', rfl, -, same, left⟩
      · exact other (Option.some.inj taken)
      · simpa using congrArg List.length ended
      · obtain ⟨rfl, rfl⟩ := List.cons.inj same
        refine not_read_behind noEscape noMark marks n (w := w ++ ['\\', x]) ?_
          (List.forall_mem_cons.mp (List.forall_mem_cons.mp inside).2).2 ?_ (by simp) left ⟨more, by simp⟩
        · simp only [List.length_cons] at short
          omega
        · have backslash : '\\' ≠ d ∧ mark '\\' = false := ⟨noEscape.symm, noMark⟩
          simpa [or_imp, forall_and, backslash, other, unmarked] using later
    · rw [readUntil_plain hc escape] at read
      split at read
      · cases read
      · obtain ⟨rfl, left⟩ := read_cons read
        refine not_read_behind noEscape noMark marks n (w := w ++ [x]) (Nat.le_of_succ_le_succ short)
          (List.forall_mem_cons.mp inside).2 ?_ (by simp) left ⟨more, by simp⟩
        exact List.forall_mem_append.mpr ⟨later, List.forall_mem_singleton.mpr ⟨other, unmarked⟩⟩

/-- A text that reading gives whole, perhaps with more behind it, has no backslash, and nothing stops at its end. -/
theorem of_read (noEscape : d ≠ '\\') (noMark : mark '\\' = false)
    (marks : ∀ c cs, mark c = true → stops (c :: cs) = true) : ∀ {cs t r : List Char},
      (∀ c ∈ cs, c = d → mark c = true) → readUntil stops (escapeMarks mark cs ++ d :: rest) = some (t, r) →
        cs <+: t → '\\' ∉ cs ∧ ∀ c ∈ cs.getLast?, mark c = false → stops (c :: d :: rest) = false
  | [], _, _, _, _, _ => ⟨List.not_mem_nil, fun _ hc => by cases hc⟩
  | c :: cs, t, r, inside, read, whole => by
    obtain ⟨more, rfl⟩ := whole
    have inside' := (List.forall_mem_cons.mp inside).2
    have read : readUntil stops (escapeMarks mark (c :: cs) ++ d :: rest) = some (c :: (cs ++ more), r) := read
    -- what is left to show when the first character is read as itself
    have step (plain : c ≠ '\\') (atEnd : mark c = false → stops (c :: (escapeMarks mark cs ++ d :: rest)) = false)
        (read : readUntil stops (escapeMarks mark cs ++ d :: rest) = some (cs ++ more, r)) :
        '\\' ∉ c :: cs ∧ ∀ x ∈ (c :: cs).getLast?, mark x = false → stops (x :: d :: rest) = false := by
      obtain ⟨free, last⟩ := of_read noEscape noMark marks inside' read ⟨more, rfl⟩
      refine ⟨fun mem => (List.mem_cons.mp mem).elim (fun e => plain e.symm) free, ?_⟩
      cases cs with
      | nil =>
        intro x hx
        obtain rfl : c = x := by simpa using hx
        exact atEnd
      | cons y ys => exact last
    by_cases hc : mark c = true
    · rw [readUntil_mark hc] at read
      exact step (fun e => by rw [e, noMark] at hc; cases hc) (fun h => by rw [hc] at h; cases h) (read_cons read).2
    by_cases escape : c = '\\'
    · subst escape
      rcases readUntil_raw noMark marks read with ⟨-, taken⟩ | ⟨nonempty, ended⟩ | ⟨y, cs', t', rfl, -, same, left⟩
      · exact absurd (Option.some.inj taken).symm noEscape
      · exact absurd (List.append_eq_nil_iff.mp (List.cons.inj ended).2).1 nonempty
      · obtain ⟨rfl, rfl⟩ := List.cons.inj same
        exact absurd ⟨more, by simp⟩ (not_read_behind noEscape noMark marks cs'.length (w := ['\\']) (Nat.le_refl _)
          (List.forall_mem_cons.mp inside').2 (List.forall_mem_singleton.mpr ⟨noEscape.symm, noMark⟩) (by simp) left)
    · rw [readUntil_plain hc escape] at read
      split at read
      · cases read
      · next through => exact step escape (fun _ => Bool.eq_false_iff.mpr through) (read_cons read).2

/-- The same of a text in which nothing is escaped. -/
theorem not_read_behind_plain (noEscape : d ≠ '\\') {cs w t r : List Char} (hcs : d ∉ cs) (hw : d ∉ w) (ahead : w ≠ [])
    (read : readUntil stops (cs ++ d :: rest) = some (t, r)) : ¬w ++ cs <+: t := by
  rw [← @escapeMarks_of_not (fun _ => false) cs fun _ _ => rfl] at read
  exact not_read_behind noEscape rfl (fun _ _ h => by cases h) cs.length (Nat.le_refl _)
    (fun c hc e => absurd (e ▸ hc) hcs) (fun c hc => ⟨fun e => hw (e ▸ hc), rfl⟩) ahead read

theorem of_read_plain (noEscape : d ≠ '\\') {cs t r : List Char} (hcs : d ∉ cs)
    (read : readUntil stops (cs ++ d :: rest) = some (t, r)) (whole : cs <+: t) :
    '\\' ∉ cs ∧ ∀ c ∈ cs.getLast?, stops (c :: d :: rest) = false := by
  rw [← @escapeMarks_of_not (fun _ => false) cs fun _ _ => rfl] at read
  obtain ⟨free, last⟩ := of_read noEscape rfl (fun _ _ h => by cases h) (fun c hc e => absurd (e ▸ hc) hcs) read whole
  exact ⟨free, fun c hc => last c hc rfl⟩

end Escapes

/-! ## Texts as arguments -/

/-- Whether a text is put into quotes as an argument. -/
def isQuoted (s : String) : Bool := s.isEmpty || s.toList.any isExtensionMark

/-- A text that reads back as an argument: without backslashes and, where it has no quotes, without white space around
it and without a double quote in front. -/
structure IsLegibleText (s : String) : Prop where
  noEscape : '\\' ∉ s.toList
  start : isQuoted s = false → ∀ c ∈ s.toList.head?, c ≠ '"' ∧ isMarkupSpace c = false
  last : isQuoted s = false → ∀ c ∈ s.toList.getLast?, isMarkupSpace c = false

section Texts

variable {inner : List Char → Option (Meaning × List Char)} {s : String} {d : Char} {rest : List Char}

/-- What a character is not that ends an argument. -/
theorem of_isStop (h : isStop d = true) :
    isExtensionMark d = true ∧ d ≠ '\\' ∧ isMarkupSpace d = false ∧ d ≠ '{' ∧ isQuote d = false := by
  have known : (d = ',' ∨ d = '}') ∨ d = '=' := by simpa [isStop] using h
  rcases known with (rfl | rfl) | rfl <;> decide

theorem ne_backslash (h : isStop d = true) : d ≠ '\\' := (of_isStop h).2.1

theorem skipSpaces_stop (h : isStop d = true) (rest : List Char) : skipSpaces (d :: rest) = d :: rest := by
  simp [skipSpaces, (of_isStop h).2.2.1]

theorem endsBare_stop (h : isStop d = true) (rest : List Char) : endsBare (d :: rest) = true := by
  rw [endsBare, skipSpaces_stop h]
  exact h

/-- What is read behind an opening quote. -/
theorem readValue_quote {q : Char} (hq : isQuote q = true) (cs : List Char) :
    readValue inner (q :: cs) =
      (readUntil (·.head? == some q) cs).map fun (text, rest) => (.text (String.ofList text), skipSpaces rest.tail) := by
  have known : q = '\'' ∨ q = '"' := by simpa [isQuote] using hq
  rcases known with rfl | rfl <;> rfl

/-- What is read where neither a brace nor a quote stands. -/
theorem readValue_bare {c : Char} (space : isMarkupSpace c = false) (brace : c ≠ '{') (quote : isQuote c = false)
    (cs : List Char) :
    readValue inner (c :: cs) =
      (readUntil endsBare (c :: cs)).map fun (text, rest) => (.text (String.ofList text), skipSpaces rest) := by
  have start : skipSpaces (c :: cs) = c :: cs := by simp [skipSpaces, space]
  rw [readValue, start]
  split
  · next same => exact absurd (List.cons.inj same).1 brace
  · next same =>
    obtain ⟨rfl, rfl⟩ := List.cons.inj same
    rw [quote]
    rfl
  · next same => cases same

theorem readValue_skipSpaces (cs : List Char) : readValue inner (skipSpaces cs) = readValue inner cs := by
  have twice : skipSpaces (skipSpaces cs) = skipSpaces cs := List.dropWhile_idempotent _ _
  rw [readValue, readValue, twice]

theorem toList_quoteArgument (s : String) :
    (quoteArgument s).toList = '\'' :: (escapeMarks (· == '\'') s.toList ++ ['\'']) := by
  have same : (fun c => if c == '\'' then ['\\', '\''] else [c]) = fun c => if c == '\'' then ['\\', c] else [c] := by
    funext c
    by_cases h : c = '\'' <;> simp [h]
  rw [quoteArgument, String.toList_ofList, escapeMarks, same, List.cons_append]

/-- A text in quotes. -/
theorem readValue_quoted (hd : isStop d = true) :
    ('\\' ∉ s.toList → readValue inner ((quoteArgument s).toList ++ d :: rest) = some (.text s, d :: rest)) ∧
      ∀ r, readValue inner ((quoteArgument s).toList ++ d :: rest) = some (.text s, r) → '\\' ∉ s.toList := by
  have marks : ∀ c cs, (c == '\'') = true → ((c :: cs).head? == some '\'') = true := by
    intro c cs h
    simpa using h
  have printed : (quoteArgument s).toList ++ d :: rest =
      '\'' :: (escapeMarks (· == '\'') s.toList ++ '\'' :: d :: rest) := by
    rw [toList_quoteArgument, List.cons_append, List.append_assoc]
    rfl
  rw [printed, readValue_quote rfl]
  refine ⟨fun free => ?_, fun r read => ?_⟩
  · have through : ∀ u c v, s.toList = u ++ c :: v → (c == '\'') = false →
        ((c :: (escapeMarks (· == '\'') v ++ '\'' :: d :: rest)).head? == some '\'') = false := by
      intro u c v _ other
      simpa using other
    rw [readUntil_escape rfl (by decide) free through]
    simp [skipSpaces_stop hd]
  · obtain ⟨⟨text, left⟩, found, same⟩ := Option.map_eq_some_iff.mp read
    simp only [Prod.mk.injEq, Meaning.text.injEq] at same
    obtain ⟨rfl, -⟩ := same
    rw [String.toList_ofList] at found ⊢
    exact (of_read (by decide) rfl marks (fun c _ h => by simp [h]) found (List.prefix_refl _)).1

/-- White space before what is no white space, with more behind it. -/
theorem skipSpaces_append {cs : List Char} {x : Char} (hx : x ∈ cs) (space : isMarkupSpace x = false)
    (ds : List Char) : skipSpaces (cs ++ ds) = skipSpaces cs ++ ds ∧ ∃ c, c ∈ (skipSpaces cs).head? ∧ c ∈ cs := by
  induction cs with
  | nil => cases hx
  | cons c cs ih =>
    cases hc : isMarkupSpace c with
    | false => simp [skipSpaces, hc]
    | true =>
      have later : x ∈ cs := (List.mem_cons.mp hx).resolve_left fun e => by rw [e, hc] at space; cases space
      obtain ⟨skipped, y, hy, mem⟩ := ih later
      refine ⟨?_, y, ?_, List.mem_cons_of_mem _ mem⟩
      · simpa [skipSpaces, hc] using skipped
      · simpa [skipSpaces, hc] using hy

/-- What holds of the characters of a text without quotes. -/
theorem not_mark_of_not_quoted (hs : isQuoted s = false) {c : Char} (hc : c ∈ s.toList) :
    c ≠ '{' ∧ c ≠ '\'' ∧ isStop c = false ∧ ∀ {d}, isStop d = true → c ≠ d := by
  have plain : isExtensionMark c = false := by
    simp only [isQuoted, Bool.or_eq_false_iff, List.any_eq_false] at hs
    exact Bool.eq_false_iff.mpr (hs.2 c hc)
  have apart : ∀ d, isExtensionMark d = true → c ≠ d := by
    rintro d hd rfl
    rw [plain] at hd
    cases hd
  refine ⟨apart _ rfl, apart _ rfl, ?_, fun hd => apart _ (of_isStop hd).1⟩
  simp [isStop, apart ',' rfl, apart '}' rfl, apart '=' rfl]

/-- A text without quotes does not end before its last character, if that is no white space. -/
theorem endsBare_eq_false (hs : isQuoted s = false) (last : ∀ c ∈ s.toList.getLast?, isMarkupSpace c = false)
    {u v : List Char} {c : Char} (split : s.toList = u ++ c :: v) (ds : List Char) :
    endsBare (c :: (v ++ ds)) = false := by
  obtain ⟨x, hx⟩ : ∃ x, x ∈ (c :: v).getLast? := ⟨_, List.getLast?_eq_some_getLast (List.cons_ne_nil c v)⟩
  have atEnd : x ∈ s.toList.getLast? := by rwa [split, List.getLast?_append_cons]
  obtain ⟨skipped, y, hy, mem⟩ := skipSpaces_append (List.mem_of_getLast? hx) (last x atEnd) ds
  have inside : y ∈ s.toList := by rw [split]; exact List.mem_append_right _ mem
  rw [endsBare, ← List.cons_append, skipped, List.head?_append, Option.mem_def.mp hy]
  exact (not_mark_of_not_quoted hs inside).2.2.1

/-- A text without quotes that is legible is read back. -/
theorem readValue_legible (hd : isStop d = true) (hs : isQuoted s = false) (legible : IsLegibleText s) :
    readValue inner (s.toList ++ d :: rest) = some (.text s, d :: rest) := by
  have unmarked : escapeMarks (fun _ => false) s.toList = s.toList := escapeMarks_of_not fun _ _ => rfl
  have read : readUntil endsBare (s.toList ++ d :: rest) = some (s.toList, d :: rest) := by
    have through : ∀ u c v, s.toList = u ++ c :: v → false = false →
        endsBare (c :: (escapeMarks (fun _ => false) v ++ d :: rest)) = false := by
      intro u c v split _
      rw [escapeMarks_of_not fun _ _ => rfl]
      exact endsBare_eq_false hs (legible.last hs) split _
    have whole := readUntil_escape (endsBare_stop hd rest) (ne_backslash hd) legible.noEscape through
    rwa [unmarked] at whole
  cases chars : s.toList with
  | nil =>
    rw [String.toList_eq_nil_iff.mp chars] at hs
    cases hs
  | cons c cs =>
    have mem : c ∈ s.toList := by rw [chars]; exact List.mem_cons_self
    obtain ⟨brace, single, -, -⟩ := not_mark_of_not_quoted hs mem
    obtain ⟨double, space⟩ := legible.start hs c (by rw [chars]; rfl)
    rw [chars] at read
    rw [List.cons_append, readValue_bare space brace (by simp [isQuote, single, double]), ← List.cons_append, read]
    simp [skipSpaces_stop hd, ← chars]

/-- A text that is read back where neither a brace nor a quote stands. -/
theorem read_of_readValue_bare {c : Char} (space : isMarkupSpace c = false) (brace : c ≠ '{') (quote : isQuote c = false)
    {cs r : List Char} (read : readValue inner (c :: cs) = some (.text s, r)) :
    ∃ left, readUntil endsBare (c :: cs) = some (s.toList, left) := by
  rw [readValue_bare space brace quote] at read
  obtain ⟨⟨text, left⟩, found, same⟩ := Option.map_eq_some_iff.mp read
  simp only [Prod.mk.injEq, Meaning.text.injEq] at same
  obtain ⟨rfl, -⟩ := same
  exact ⟨left, by rw [found, String.toList_ofList]⟩

/-- A text without quotes that is read back is legible. -/
theorem isLegibleText_of_read (hd : isStop d = true) (hs : isQuoted s = false) {r : List Char}
    (read : readValue inner (s.toList ++ d :: rest) = some (.text s, r)) : IsLegibleText s := by
  have noEnd : ∀ {cs : List Char}, cs ⊆ s.toList → d ∉ cs := fun sub hc =>
    (not_mark_of_not_quoted hs (sub hc)).2.2.2 hd rfl
  rw [← readValue_skipSpaces] at read
  by_cases letters : ∃ x ∈ s.toList, isMarkupSpace x = false
  · obtain ⟨x, hx, letter⟩ := letters
    obtain ⟨skipped, c, hc, mem⟩ := skipSpaces_append hx letter (d :: rest)
    obtain ⟨brace, single, -, -⟩ := not_mark_of_not_quoted hs mem
    have space : isMarkupSpace c = false := by
      have := List.head?_dropWhile_not isMarkupSpace s.toList
      rw [show (s.toList.dropWhile isMarkupSpace).head? = some c from hc] at this
      simpa using this
    obtain ⟨v, chars⟩ : ∃ v, skipSpaces s.toList = c :: v := by
      cases h : skipSpaces s.toList with
      | nil => rw [h] at hc; cases hc
      | cons c' v => rw [h] at hc; cases hc; exact ⟨v, rfl⟩
    have split : s.toList = s.toList.takeWhile isMarkupSpace ++ c :: v := by
      rw [← chars]
      exact List.takeWhile_append_dropWhile.symm
    have front : s.toList.takeWhile isMarkupSpace ⊆ s.toList := List.IsPrefix.subset ( List.takeWhile_prefix _)
    have back : c :: v ⊆ s.toList := by rw [split]; exact List.subset_append_right _ _
    rw [skipped, chars, List.cons_append] at read
    generalize s.toList.takeWhile isMarkupSpace = lead at split front
    by_cases double : c = '"'
    · -- read in quotes, it lacks at least the quote in front
      subst double
      rw [readValue_quote rfl] at read
      obtain ⟨⟨text, left⟩, found, same⟩ := Option.map_eq_some_iff.mp read
      simp only [Prod.mk.injEq, Meaning.text.injEq] at same
      obtain ⟨rfl, -⟩ := same
      have noLead : d ∉ lead ++ ['"'] := fun hmem =>
        (List.mem_append.mp hmem).elim (noEnd front) (noEnd (fun x hx => back (by simp_all)))
      rw [String.toList_ofList] at split
      refine absurd ⟨[], ?_⟩ (not_read_behind_plain (ne_backslash hd)
        (noEnd (List.subset_of_cons_subset back)) noLead (by simp) found)
      simp [split]
    · obtain ⟨left, found⟩ := read_of_readValue_bare space brace (by simp [isQuote, single, double]) read
      rw [← List.cons_append] at found
      obtain rfl : lead = [] := by
        by_contra ahead
        exact not_read_behind_plain (ne_backslash hd) (noEnd back) (noEnd front) ahead found ⟨[], by simp [split]⟩
      rw [List.nil_append] at split
      rw [← split] at found
      obtain ⟨free, last⟩ := of_read_plain (ne_backslash hd) (noEnd (List.Subset.refl _)) found (List.prefix_refl _)
      refine ⟨free, fun _ x hx => ?_, fun _ x hx => ?_⟩
      · rw [split] at hx
        cases hx
        exact ⟨double, space⟩
      · cases hspace : isMarkupSpace x with
        | false => rfl
        | true =>
          have := last x hx
          rw [endsBare, show skipSpaces (x :: d :: rest) = skipSpaces (d :: rest) by simp [skipSpaces, hspace],
            ← endsBare, endsBare_stop hd] at this
          cases this
  · -- nothing but white space, which is skipped
    have blank : ∀ x ∈ s.toList, isMarkupSpace x = true := fun x hx => by
      cases h : isMarkupSpace x with
      | true => rfl
      | false => exact absurd ⟨x, hx, h⟩ letters
    rw [show skipSpaces (s.toList ++ d :: rest) = skipSpaces (d :: rest) from List.dropWhile_append_of_pos blank,
      skipSpaces_stop hd] at read
    obtain ⟨-, -, space, brace, quote⟩ := of_isStop hd
    obtain ⟨left, found⟩ := read_of_readValue_bare space brace quote read
    rw [readUntil_cons (ne_backslash hd), if_pos (endsBare_stop hd rest)] at found
    have empty : s.toList = [] := (Prod.mk.inj (Option.some.inj found)).1.symm
    rw [String.toList_eq_nil_iff.mp empty] at hs
    cases hs

/-- **Texts as arguments.** A text is read back exactly if it is legible, and then up to its end. -/
theorem readValue_text (hd : isStop d = true) :
    (IsLegibleText s → readValue inner ((extensionArgument s).toList ++ d :: rest) = some (.text s, d :: rest)) ∧
      ∀ r, readValue inner ((extensionArgument s).toList ++ d :: rest) = some (.text s, r) → IsLegibleText s := by
  have printed : extensionArgument s = if isQuoted s then quoteArgument s else s := rfl
  rw [printed]
  cases hs : isQuoted s with
  | true =>
    rw [if_pos rfl]
    obtain ⟨reads, free⟩ := @readValue_quoted inner s d rest hd
    have quoted : ∀ {P : Prop}, isQuoted s = false → P := fun h => by rw [hs] at h; cases h
    exact ⟨fun legible => reads legible.noEscape, fun r read => ⟨free r read, quoted, quoted⟩⟩
  | false =>
    rw [if_neg Bool.false_ne_true]
    exact ⟨readValue_legible hd hs, fun r read => isLegibleText_of_read hd hs read⟩

end Texts

end FlowDoc.Xaml
