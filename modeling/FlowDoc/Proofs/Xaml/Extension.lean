import FlowDoc.Proofs.Xaml.Argument
import FlowDoc.Proofs.Xaml.Tidy
import Mathlib.Data.List.Forall2

/-!
# Reading attribute values back

What a reader makes of the value of an attribute (`readAttribute`): after a pair of braces a literal, after an opening
brace a markup extension with its arguments, else a literal.

A literal is always read back. An extension is read back, with its name and the extensions in it, exactly if all the texts
among its arguments are legible and no member in it has several items or none (**`attributeValue_reads`**). A key of a
resource with a backslash in it is not legible, and is read as another key (`backslash_in_key_not_read`).
-/

namespace FlowDoc.Xaml

open Text (isMarkupSpace)
open Xml (skipSpaces)

/-! ## Readers -/

/-- Read an argument, which may have a name. -/
def readArgument (inner : List Char → Option (Meaning × List Char)) (cs : List Char) : Option (Argument × List Char) :=
  match readValue inner cs with
  | some (.text name, '=' :: rest) => (readValue inner rest).map fun (m, rest) => (.mk (some name) [m], rest)
  | some (m, rest) => some (.mk none [m], rest)
  | none => none

/-- Read arguments up to the closing brace; `fuel` bounds their number. -/
def readArguments (inner : List Char → Option (Meaning × List Char)) :
    (fuel : Nat) → List Char → Option (List Argument × List Char)
  | 0, _ => none
  | fuel + 1, cs =>
    match readArgument inner cs with
    | some (a, ',' :: rest) => (readArguments inner fuel rest).map fun (as, rest) => (a :: as, rest)
    | some (a, '}' :: rest) => some ([a], rest)
    | _ => none

/-- Whether a character belongs to the name of an extension. -/
def isExtensionName (c : Char) : Bool := !isMarkupSpace c && c != '}'

/-- Read an extension from after its opening brace; `fuel` bounds how deep extensions stand in it. -/
def readExtension : (fuel : Nat) → List Char → Option (Meaning × List Char)
  | 0, _ => none
  | fuel + 1, cs =>
    let name := String.ofList (cs.takeWhile isExtensionName)
    match skipSpaces (cs.dropWhile isExtensionName) with
    | '}' :: rest => some (.extension name [], rest)
    | rest =>
      (readArguments (readExtension fuel) rest.length rest).map fun (as, rest) => (.extension name as, rest)

/-- Read the value of an attribute. -/
def readAttribute (s : String) : Option Meaning :=
  match s.toList with
  | '{' :: '}' :: rest => some (.text (String.ofList rest))
  | '{' :: rest =>
    match readExtension s.length rest with
    | some (m, []) => some m
    | _ => none
  | _ => some (.text s)

/-! ## Arguments and extensions -/

mutual

/-- Whether all that is said reads back: every text among the arguments is legible, and every argument has one value. -/
def Meaning.IsLegible : Meaning → Prop
  | .text s => IsLegibleText s
  | .extension _ arguments => ArgumentsLegible arguments

def ArgumentsLegible : List Argument → Prop
  | [] => True
  | a :: as => a.IsLegible ∧ ArgumentsLegible as

def Argument.IsLegible : Argument → Prop
  | .mk _ values => values.length = 1 ∧ MeaningsLegible values

def MeaningsLegible : List Meaning → Prop
  | [] => True
  | m :: ms => m.IsLegible ∧ MeaningsLegible ms

end

@[simp] theorem Argument.isLegible_singleton (name : Option String) (m : Meaning) :
    (Argument.mk name [m]).IsLegible ↔ m.IsLegible := by simp [Argument.IsLegible, MeaningsLegible]

/-- That a reader gives back what is printed, up to its end, exactly if that is legible. -/
structure ReadsBack {α : Type} (read : List Char → Option (α × List Char)) (legible : α → Prop)
    (printed : List Char) (a : α) (rest : List Char) : Prop where
  back : legible a → read (printed ++ rest) = some (a, rest)
  legible_of : ∀ {r}, read (printed ++ rest) = some (a, r) → legible a

/-- What comes after an argument. -/
def EndsArgument (rest : List Char) : Prop := ∃ d ds, rest = d :: ds ∧ (d = ',' ∨ d = '}')

theorem EndsArgument.exists_isStop {rest : List Char} (h : EndsArgument rest) :
    ∃ d ds, rest = d :: ds ∧ isStop d = true ∧ d ≠ '=' := by
  obtain ⟨d, ds, rfl, rfl | rfl⟩ := h
  · exact ⟨_, _, rfl, rfl, by decide⟩
  · exact ⟨_, _, rfl, rfl, by decide⟩

section Arguments

variable {inner : List Char → Option (Meaning × List Char)} {p : List Char} {m : Meaning} {rest : List Char}

theorem readsBack_text (s : String) (h : EndsArgument rest) :
    ReadsBack (readValue inner) Meaning.IsLegible (extensionArgument s).toList (.text s) rest := by
  obtain ⟨d, ds, rfl, hd, -⟩ := h.exists_isStop
  obtain ⟨back, legible⟩ := @readValue_text inner s d ds hd
  exact ⟨back, legible _⟩

/-- An extension as a value, behind its brace. -/
theorem readsBack_brace (h : EndsArgument rest) (hp : ReadsBack inner Meaning.IsLegible p m rest) :
    ReadsBack (readValue inner) Meaning.IsLegible ('{' :: p) m rest := by
  have opened : readValue inner ('{' :: p ++ rest) = (inner (p ++ rest)).map fun (m, rest) => (m, skipSpaces rest) := rfl
  obtain ⟨d, ds, rfl, hd, -⟩ := h.exists_isStop
  refine ⟨fun legible => ?_, fun read => ?_⟩
  · rw [opened, hp.back legible]
    simp [skipSpaces_stop hd]
  · rw [opened] at read
    obtain ⟨⟨m', left⟩, found, same⟩ := Option.map_eq_some_iff.mp read
    cases same
    exact hp.legible_of found

/-- An argument by its place. -/
theorem readsBack_positional (h : EndsArgument rest) (hp : ReadsBack (readValue inner) Meaning.IsLegible p m rest) :
    ReadsBack (readArgument inner) Argument.IsLegible p (.mk none [m]) rest := by
  obtain ⟨d, ds, rfl, -, noName⟩ := h.exists_isStop
  refine ⟨fun legible => ?_, fun read => ?_⟩
  · rw [readArgument, hp.back ((Argument.isLegible_singleton _ _).mp legible)]
    split
    · next same => cases same; exact absurd rfl noName
    · next same => cases same; rfl
    · next same => cases same
  · rw [readArgument] at read
    split at read
    · obtain ⟨⟨m', left⟩, -, same⟩ := Option.map_eq_some_iff.mp read
      cases same
    · next found =>
      cases read
      exact (Argument.isLegible_singleton _ _).mpr (hp.legible_of found)
    · cases read

/-- What a character of a name is not. -/
theorem of_isNameChar {c : Char} (h : Xml.isNameChar c = true) :
    isMarkupSpace c = false ∧ isExtensionMark c = false ∧ c ≠ '\\' ∧ c ≠ '"' ∧ c ≠ '}' := by
  have other : ∀ d, Xml.isNameChar d = false → c ≠ d := by
    rintro d hd rfl
    rw [h] at hd
    cases hd
  refine ⟨?_, ?_, other _ (by decide), other _ (by decide), other _ (by decide)⟩
  · simp [isMarkupSpace, other ' ' (by decide), other '\t' (by decide), other '\n' (by decide), other '\r' (by decide)]
  · simp [isExtensionMark, other ',' (by decide), other '{' (by decide), other '}' (by decide), other '=' (by decide),
      other '\'' (by decide)]

/-- A name is legible as it stands. -/
theorem isLegibleText_name {name : String} (hn : Xml.isPlainName name = true) :
    isQuoted name = false ∧ IsLegibleText name := by
  obtain ⟨start, chars⟩ := isPlainName_iff.mp hn
  have quoted : isQuoted name = false := by
    have nonempty : name.isEmpty = false := by
      cases h : name.isEmpty with
      | false => rfl
      | true =>
        rw [String.isEmpty_iff.mp h] at start
        cases start
    rw [isQuoted, nonempty, Bool.false_or, List.any_eq_false]
    exact fun c hc => Bool.eq_false_iff.mp (of_isNameChar (chars c hc)).2.1
  refine ⟨quoted, fun mem => (of_isNameChar (chars _ mem)).2.2.1 rfl, fun _ c hc => ?_, fun _ c hc => ?_⟩
  · have named := of_isNameChar (chars c (List.mem_of_head? hc))
    exact ⟨named.2.2.2.1, named.1⟩
  · exact (of_isNameChar (chars c (List.mem_of_getLast? hc))).1

/-- A name before its value. -/
theorem readValue_name {name : String} (hn : Xml.isPlainName name = true) (cs : List Char) :
    readValue inner (name.toList ++ '=' :: cs) = some (.text name, '=' :: cs) := by
  obtain ⟨quoted, legible⟩ := isLegibleText_name hn
  exact readValue_legible rfl quoted legible

/-- An argument by its name. -/
theorem readsBack_named {name : String} (hn : Xml.isPlainName name = true)
    (hp : ReadsBack (readValue inner) Meaning.IsLegible p m rest) :
    ReadsBack (readArgument inner) Argument.IsLegible (name.toList ++ '=' :: p) (.mk (some name) [m]) rest := by
  have opened : readArgument inner (name.toList ++ '=' :: p ++ rest) =
      (readValue inner (p ++ rest)).map fun (m, rest) => (.mk (some name) [m], rest) := by
    rw [List.append_assoc, List.cons_append, readArgument, readValue_name hn]
    rfl
  refine ⟨fun legible => ?_, fun read => ?_⟩
  · rw [opened, hp.back ((Argument.isLegible_singleton _ _).mp legible)]
    rfl
  · rw [opened] at read
    obtain ⟨⟨m', left⟩, found, same⟩ := Option.map_eq_some_iff.mp read
    cases same
    exact (Argument.isLegible_singleton _ _).mpr (hp.legible_of found)

/-- What is read as an argument has one value. -/
theorem length_of_readArgument {cs r : List Char} {name : Option String} {values : List Meaning}
    (h : readArgument inner cs = some (.mk name values, r)) : values.length = 1 := by
  rw [readArgument] at h
  split at h
  · obtain ⟨⟨m', left⟩, -, same⟩ := Option.map_eq_some_iff.mp h
    cases same
    rfl
  · cases h; rfl
  · cases h

/-- An argument with more values than one, or none. -/
theorem readsBack_several {name : Option String} {values : List Meaning} (h : values.length ≠ 1) :
    ReadsBack (readArgument inner) Argument.IsLegible p (.mk name values) rest :=
  ⟨fun legible => absurd legible.1 h, fun read => absurd (length_of_readArgument read) h⟩

end Arguments

/-! ## Lists of arguments -/

/-- How a legible argument begins. -/
def StartsArgument (p : List Char) : Prop := ∃ c cs, p = c :: cs ∧ isMarkupSpace c = false ∧ c ≠ '}'

/-- That an argument reads back before whatever may come after it. -/
structure IsArgument (inner : List Char → Option (Meaning × List Char)) (printed : String) (a : Argument) : Prop where
  reads : ∀ rest, EndsArgument rest → ReadsBack (readArgument inner) Argument.IsLegible printed.toList a rest
  starts : a.IsLegible → StartsArgument printed.toList

section Lists

variable {inner : List Char → Option (Meaning × List Char)}

theorem readArgument_skipSpaces (cs : List Char) : readArgument inner (skipSpaces cs) = readArgument inner cs := by
  rw [readArgument, readValue_skipSpaces, readArgument]

theorem readArguments_skipSpaces (fuel : Nat) (cs : List Char) :
    readArguments inner fuel (skipSpaces cs) = readArguments inner fuel cs := by
  cases fuel with
  | zero => rfl
  | succ fuel => rw [readArguments, readArgument_skipSpaces, readArguments]

/-- The characters of arguments up to the closing brace. -/
def argumentChars (ps : List String) (rest : List Char) : List Char := (", ".intercalate ps).toList ++ '}' :: rest

theorem argumentChars_singleton (p : String) (rest : List Char) : argumentChars [p] rest = p.toList ++ '}' :: rest := by
  rw [argumentChars, String.intercalate_singleton]

theorem argumentChars_cons (p q : String) (ps : List String) (rest : List Char) :
    argumentChars (p :: q :: ps) rest = p.toList ++ ',' :: ' ' :: argumentChars (q :: ps) rest := by
  rw [argumentChars, String.intercalate_cons_cons, argumentChars]
  simp

theorem readArguments_space (fuel : Nat) (cs : List Char) :
    readArguments inner fuel (' ' :: cs) = readArguments inner fuel cs := by
  rw [← readArguments_skipSpaces fuel (' ' :: cs), ← readArguments_skipSpaces fuel cs]
  rfl

/-- The first of the arguments that are read. -/
theorem readArguments_eq_cons {fuel : Nat} {cs r : List Char} {a : Argument} {as : List Argument}
    (h : readArguments inner (fuel + 1) cs = some (a :: as, r)) :
    ∃ left, readArgument inner cs = some (a, left) ∧
      ∀ left', left = ',' :: left' → readArguments inner fuel left' = some (as, r) := by
  rw [readArguments] at h
  split at h
  · next a' left' first =>
    obtain ⟨⟨as', left⟩, found, same⟩ := Option.map_eq_some_iff.mp h
    cases same
    refine ⟨_, first, fun left'' e => ?_⟩
    cases e
    exact found
  · next a' left' first =>
    cases h
    exact ⟨_, first, fun left'' e => by cases e⟩
  · cases h

/-- **Lists of arguments** are read back. -/
theorem readArguments_back {ps : List String} {as : List Argument} (h : List.Forall₂ (IsArgument inner) ps as)
    (rest : List Char) (some_ : as ≠ []) : ∀ {fuel : Nat}, as.length ≤ fuel → ArgumentsLegible as →
      readArguments inner fuel (argumentChars ps rest) = some (as, rest) := by
  induction h with
  | nil => exact absurd rfl some_
  | @cons p a ps as hp hps ih =>
    intro fuel enough legible
    obtain ⟨fuel, rfl⟩ : ∃ n, fuel = n + 1 := ⟨fuel - 1, by simp at enough; omega⟩
    cases hps with
    | nil =>
      have read := (hp.reads ('}' :: rest) ⟨_, _, rfl, .inr rfl⟩).back legible.1
      rw [argumentChars_singleton, readArguments, read]
      rfl
    | @cons q b qs bs hq hqs =>
      have read := (hp.reads (',' :: ' ' :: argumentChars (q :: qs) rest) ⟨_, _, rfl, .inl rfl⟩).back legible.1
      have later := @ih (List.cons_ne_nil _ _) fuel (by simp at enough ⊢; omega) legible.2
      rw [argumentChars_cons, readArguments, read]
      simp [readArguments_space, later]

/-- What is read back of a list of arguments is legible. -/
theorem argumentsLegible_of_read {ps : List String} {as : List Argument} (h : List.Forall₂ (IsArgument inner) ps as)
    {rest : List Char} : ∀ {fuel : Nat} {r : List Char},
      readArguments inner fuel (argumentChars ps rest) = some (as, r) → ArgumentsLegible as := by
  induction h with
  | nil => exact fun _ => trivial
  | @cons p a ps as hp hps ih =>
    intro fuel r read
    obtain ⟨fuel, rfl⟩ : ∃ n, fuel = n + 1 := by
      cases fuel with
      | zero => cases read
      | succ n => exact ⟨n, rfl⟩
    obtain ⟨left, first, others⟩ := readArguments_eq_cons read
    cases hps with
    | nil =>
      rw [argumentChars_singleton] at first
      exact ⟨(hp.reads _ ⟨_, _, rfl, .inr rfl⟩).legible_of first, trivial⟩
    | @cons q b qs bs hq hqs =>
      rw [argumentChars_cons] at first
      have here := hp.reads (',' :: ' ' :: argumentChars (q :: qs) rest) ⟨_, _, rfl, .inl rfl⟩
      have legible := here.legible_of first
      have left_eq := (Prod.mk.inj (Option.some.inj (first.symm.trans (here.back legible)))).2
      have later := others _ left_eq
      rw [readArguments_space] at later
      exact ⟨legible, ih later⟩

end Lists

/-! ## Extensions -/

/-- The characters of an extension after its opening brace. -/
def extensionChars (name : String) (ps : List String) : List Char :=
  name.toList ++ (if ps.isEmpty then [] else ' ' :: (", ".intercalate ps).toList) ++ ['}']

theorem toList_braced (name : String) (ps : List String) : (braced name ps).toList = '{' :: extensionChars name ps := by
  cases ps with
  | nil => simp [braced, extensionChars]
  | cons p ps => simp [braced, extensionChars]

/-- A qualified name is read as the name of an extension. -/
theorem isExtensionName_of_mem {name : String} (hn : Xml.IsQualified name) :
    ∀ c ∈ name.toList, isExtensionName c = true := by
  have plain : ∀ {s : String}, Xml.isPlainName s = true → ∀ c ∈ s.toList, isExtensionName c = true := by
    intro s hs c hc
    obtain ⟨space, -, -, -, brace⟩ := of_isNameChar ((isPlainName_iff.mp hs).2 c hc)
    simp [isExtensionName, space, brace]
  cases hn with
  | plain hs => exact plain hs
  | prefixed hp hs =>
    have colon : isExtensionName ':' = true := by decide
    intro c hc
    simp only [String.toList_append, List.mem_append] at hc
    rcases hc with (hc | hc) | hc
    · exact plain hp c hc
    · have : c = ':' := by simpa using hc
      exact this ▸ colon
    · exact plain hs c hc

/-- What is read after the name of an extension. -/
theorem readExtension_name {fuel : Nat} {name : String} (hn : Xml.IsQualified name) {d : Char}
    (hd : isExtensionName d = false) (cs : List Char) :
    readExtension (fuel + 1) (name.toList ++ d :: cs) =
      match skipSpaces (d :: cs) with
      | '}' :: rest => some (.extension name [], rest)
      | rest =>
        (readArguments (readExtension fuel) rest.length rest).map fun (as, rest) => (.extension name as, rest) := by
  have chars := isExtensionName_of_mem hn
  rw [readExtension, List.takeWhile_append_of_pos chars, List.dropWhile_append_of_pos chars]
  simp [hd, String.ofList_toList]

theorem length_le_argumentChars (ps : List String) (rest : List Char) : ps.length ≤ (argumentChars ps rest).length := by
  induction ps with
  | nil => exact Nat.zero_le _
  | cons p ps ih =>
    cases ps with
    | nil =>
      simp only [argumentChars_singleton, List.length_append, List.length_cons, List.length_nil]
      omega
    | cons q ps =>
      simp only [argumentChars_cons, List.length_append, List.length_cons] at ih ⊢
      omega

theorem argumentChars_eq_cons {p : String} {c : Char} {cs : List Char} (h : p.toList = c :: cs) (ps : List String)
    (rest : List Char) : ∃ cs', argumentChars (p :: ps) rest = c :: cs' := by
  cases ps with
  | nil => exact ⟨_, by rw [argumentChars_singleton, h, List.cons_append]⟩
  | cons q ps => exact ⟨_, by rw [argumentChars_cons, h, List.cons_append]⟩

/-- **Extensions** are read back from after their opening brace. -/
theorem readsBack_extension {fuel : Nat} {name : String} (hn : Xml.IsQualified name) {ps : List String}
    {as : List Argument} (h : List.Forall₂ (IsArgument (readExtension fuel)) ps as) (rest : List Char) :
    ReadsBack (readExtension (fuel + 1)) Meaning.IsLegible (extensionChars name ps) (.extension name as) rest := by
  cases h with
  | nil =>
    have printed : extensionChars name [] ++ rest = name.toList ++ '}' :: rest := by simp [extensionChars]
    refine ⟨fun _ => ?_, fun _ => trivial⟩
    rw [printed, readExtension_name hn (by decide)]
    rfl
  | @cons p a ps as hp hps =>
    have printed : extensionChars name (p :: ps) ++ rest = name.toList ++ ' ' :: argumentChars (p :: ps) rest := by
      simp [extensionChars, argumentChars]
    have skipped : skipSpaces (' ' :: argumentChars (p :: ps) rest) = skipSpaces (argumentChars (p :: ps) rest) := rfl
    have arguments := List.Forall₂.cons hp hps
    refine ⟨fun legible => ?_, fun {r} read => ?_⟩
    · obtain ⟨c, cs, first, space, brace⟩ := hp.starts legible.1
      obtain ⟨cs', chars⟩ := argumentChars_eq_cons first ps rest
      have stays : skipSpaces (argumentChars (p :: ps) rest) = argumentChars (p :: ps) rest := by
        simp [chars, skipSpaces, space]
      have enough : (a :: as).length ≤ (argumentChars (p :: ps) rest).length := by
        rw [← arguments.length_eq]
        exact length_le_argumentChars (p :: ps) rest
      rw [printed, readExtension_name hn (by decide), skipped, stays]
      split
      · next same => exact absurd (List.cons.inj (chars.symm.trans same)).1 brace
      · rw [readArguments_back arguments rest (List.cons_ne_nil _ _) enough legible]
        rfl
    · rw [printed, readExtension_name hn (by decide), skipped] at read
      split at read
      · cases read
      · obtain ⟨⟨as', left⟩, found, same⟩ := Option.map_eq_some_iff.mp read
        cases same
        rw [readArguments_skipSpaces] at found
        exact argumentsLegible_of_read arguments found

/-! ## Objects as extensions -/

variable (namespaces : List NamespaceDecl)

mutual

/-- What an object says as an extension. -/
def Object.meaning : Object → Meaning
  | .mk type members =>
    .extension (qualify namespaces type.space (extensionShortName type.name)) (membersArguments members)

def membersArguments : List MemberNode → List Argument
  | [] => []
  | m :: ms => m.arguments ++ membersArguments ms

/-- A directive gives one argument for each item, by its place; any other member gives one by its name. -/
def MemberNode.arguments : MemberNode → List Argument
  | .mk name _ kind _ _ items =>
    if kind == .directive then (nodesMeaning items).map fun m => .mk none [m] else [.mk (some name) (nodesMeaning items)]

def nodesMeaning : List Node → List Meaning
  | [] => []
  | n :: ns => n.meaning :: nodesMeaning ns

def Node.meaning : Node → Meaning
  | .object o => o.meaning
  | .value v => .text v.display

end

/-- How a legible text begins as an argument. -/
theorem startsArgument_text {s : String} (h : IsLegibleText s) : StartsArgument (extensionArgument s).toList := by
  have printed : extensionArgument s = if isQuoted s then quoteArgument s else s := rfl
  rw [printed]
  cases hs : isQuoted s with
  | true =>
    rw [if_pos rfl, toList_quoteArgument]
    exact ⟨_, _, rfl, by decide, by decide⟩
  | false =>
    rw [if_neg Bool.false_ne_true]
    cases chars : s.toList with
    | nil =>
      rw [String.toList_eq_nil_iff.mp chars] at hs
      cases hs
    | cons c cs =>
      have mem : c ∈ s.toList := by rw [chars]; exact List.mem_cons_self
      have brace : c ≠ '}' := (not_mark_of_not_quoted hs mem).2.2.2 rfl
      exact ⟨c, cs, rfl, (h.start hs c (by rw [chars]; rfl)).2, brace⟩

/-- That a value reads back before whatever may come after an argument. -/
structure IsValue (inner : List Char → Option (Meaning × List Char)) (printed : String) (m : Meaning) : Prop where
  reads : ∀ rest, EndsArgument rest → ReadsBack (readValue inner) Meaning.IsLegible printed.toList m rest
  starts : m.IsLegible → StartsArgument printed.toList

section Values

variable {inner : List Char → Option (Meaning × List Char)} {printed : String} {m : Meaning}

theorem IsValue.positional (h : IsValue inner printed m) : IsArgument inner printed (.mk none [m]) where
  reads rest hr := readsBack_positional hr (h.reads rest hr)
  starts legible := h.starts ((Argument.isLegible_singleton _ _).mp legible)

theorem IsValue.named (h : IsValue inner printed m) {name : String} (hn : Xml.isPlainName name = true) :
    IsArgument inner (name ++ "=" ++ printed) (.mk (some name) [m]) := by
  have chars : (name ++ "=" ++ printed).toList = name.toList ++ '=' :: printed.toList := by simp
  refine ⟨fun rest hr => ?_, fun _ => ?_⟩
  · rw [chars]
    exact readsBack_named hn (h.reads rest hr)
  · obtain ⟨start, named⟩ := isPlainName_iff.mp hn
    rw [chars]
    cases hc : name.toList with
    | nil => rw [hc] at start; cases start
    | cons c cs =>
      obtain ⟨space, -, -, -, brace⟩ := of_isNameChar (named c (by rw [hc]; exact List.mem_cons_self))
      exact ⟨c, _, List.cons_append, space, brace⟩

/-- The values of a member, by its name: with more of them than one, or none, they are no argument that is read. -/
theorem isArgument_named {name : String} (hn : Xml.isPlainName name = true) {ps : List String} {ms : List Meaning}
    (h : List.Forall₂ (IsValue inner) ps ms) :
    IsArgument inner (name ++ "=" ++ ", ".intercalate ps) (.mk (some name) ms) := by
  by_cases one : ms.length = 1
  · obtain ⟨m, rfl⟩ := List.length_eq_one_iff.mp one
    obtain ⟨p, rest, hp, hrest, rfl⟩ := List.forall₂_cons_right_iff.mp h
    obtain rfl := List.forall₂_nil_right_iff.mp hrest
    rw [String.intercalate_singleton]
    exact hp.named hn
  · exact ⟨fun _ _ => readsBack_several one, fun legible => absurd legible.1 one⟩

end Values

theorem length_intercalate_append (sep : String) (l m : List String) :
    (sep.intercalate l).length ≤ (sep.intercalate (l ++ m)).length ∧
      (sep.intercalate m).length ≤ (sep.intercalate (l ++ m)).length := by
  by_cases hl : l = []
  · subst hl
    simp
  · by_cases hm : m = []
    · subst hm
      simp
    · rw [String.intercalate_append_of_ne_nil hl hm]
      simp only [String.length_append]
      omega

theorem length_intercalate_lt_braced (name : String) (ps : List String) :
    (", ".intercalate ps).length < (braced name ps).length := by
  have brace : "\x7b".length = 1 := rfl
  cases ps with
  | nil =>
    simp only [braced, String.intercalate_nil, String.length_append, String.length_empty]
    omega
  | cons p ps =>
    simp only [braced, List.isEmpty_cons, Bool.false_eq_true, if_false, String.length_append]
    omega

mutual

/-- **Objects.** What an object is written as in braces reads back as what it says, exactly if that is legible. -/
theorem object_readsBack (hp : HavePrefixes namespaces) : ∀ (o : Object) {fuel : Nat},
    (o.extension namespaces).length ≤ fuel → o.passes MemberNode.isNamedArgument = true →
      ∃ body, (o.extension namespaces).toList = '{' :: body ∧
        ∀ rest, ReadsBack (readExtension fuel) Meaning.IsLegible body (o.meaning namespaces) rest
  | .mk type members, fuel, enough, named => by
    have name := isQualified_qualify hp type.space (isPlainName_extensionShortName type)
    rw [Object.extension] at enough ⊢
    have shorter := length_intercalate_lt_braced (qualify namespaces type.space (extensionShortName type.name))
      (extensionArguments namespaces members)
    obtain ⟨fuel, rfl⟩ : ∃ n, fuel = n + 1 := ⟨fuel - 1, by omega⟩
    have arguments := @members_areArguments hp members fuel (by omega) named
    refine ⟨_, toList_braced _ _, fun rest => ?_⟩
    rw [Object.meaning]
    exact readsBack_extension name arguments rest

theorem members_areArguments (hp : HavePrefixes namespaces) : ∀ (ms : List MemberNode) {fuel : Nat},
    (", ".intercalate (extensionArguments namespaces ms)).length ≤ fuel →
      membersPass MemberNode.isNamedArgument ms = true →
      List.Forall₂ (IsArgument (readExtension fuel)) (extensionArguments namespaces ms) (membersArguments namespaces ms)
  | [], _, _, _ => .nil
  | m :: ms, fuel, enough, named => by
    rw [extensionArguments] at enough ⊢
    rw [membersArguments]
    obtain ⟨here, later⟩ := length_intercalate_append ", " (m.extensionArguments namespaces)
      (extensionArguments namespaces ms)
    obtain ⟨first, others⟩ := Bool.and_eq_true_iff.mp named
    exact List.rel_append (member_areArguments hp m (Nat.le_trans here enough) first)
      (members_areArguments hp ms (Nat.le_trans later enough) others)

theorem member_areArguments (hp : HavePrefixes namespaces) : ∀ (m : MemberNode) {fuel : Nat},
    (", ".intercalate (m.extensionArguments namespaces)).length ≤ fuel → m.passes MemberNode.isNamedArgument = true →
      List.Forall₂ (IsArgument (readExtension fuel)) (m.extensionArguments namespaces) (m.arguments namespaces)
  | .mk name owner kind isContent collection items, fuel, enough, named => by
    rw [MemberNode.extensionArguments] at enough ⊢
    rw [MemberNode.arguments]
    obtain ⟨own, inside⟩ := Bool.and_eq_true_iff.mp named
    by_cases directive : kind = .directive
    · subst directive
      have values := @nodes_areValues hp items fuel enough inside
      exact List.forall₂_map_right_iff.mpr (values.imp fun _ _ h => h.positional)
    · have other : (kind == .directive) = false := beq_eq_false_iff_ne.mpr directive
      simp only [other, Bool.false_eq_true, if_false, String.intercalate_singleton] at enough ⊢
      refine .cons ?_ .nil
      have shorter : (", ".intercalate (nodesExtension namespaces items)).length ≤ fuel := by
        simp only [String.length_append] at enough
        omega
      have plain : Xml.isPlainName name = true :=
        (Bool.or_eq_true_iff.mp own).resolve_left fun same => directive (eq_of_beq same)
      exact isArgument_named plain (nodes_areValues hp items shorter inside)

/-- The items of a member. -/
theorem nodes_areValues (hp : HavePrefixes namespaces) : ∀ (ns : List Node) {fuel : Nat},
    (", ".intercalate (nodesExtension namespaces ns)).length ≤ fuel → nodesPass MemberNode.isNamedArgument ns = true →
      List.Forall₂ (IsValue (readExtension fuel)) (nodesExtension namespaces ns) (nodesMeaning namespaces ns)
  | [], _, _, _ => .nil
  | n :: ns, fuel, enough, named => by
    rw [nodesExtension] at enough ⊢
    rw [nodesMeaning]
    obtain ⟨here, later⟩ := length_intercalate_append ", " [n.extension namespaces] (nodesExtension namespaces ns)
    rw [String.intercalate_singleton] at here
    obtain ⟨first, others⟩ := Bool.and_eq_true_iff.mp named
    exact .cons (node_isValue hp n (Nat.le_trans here enough) first)
      (nodes_areValues hp ns (Nat.le_trans later enough) others)

theorem node_isValue (hp : HavePrefixes namespaces) : ∀ (n : Node) {fuel : Nat},
    (n.extension namespaces).length ≤ fuel → n.passes MemberNode.isNamedArgument = true →
      IsValue (readExtension fuel) (n.extension namespaces) (n.meaning namespaces)
  | .object o, fuel, enough, named => by
    obtain ⟨body, printed, reads⟩ := object_readsBack hp o enough named
    rw [Node.extension, Node.meaning]
    refine ⟨fun rest hr => ?_, fun _ => ?_⟩
    · rw [printed]
      exact readsBack_brace hr (reads rest)
    · rw [printed]
      exact ⟨_, _, rfl, by decide, by decide⟩
  | .value v, fuel, _, _ => by
    rw [Node.extension, Node.meaning]
    exact ⟨fun rest hr => readsBack_text v.display hr, fun legible => startsArgument_text legible⟩

end

/-! ## Attribute values -/

/-- A literal is read back, with or without the braces in front of it. -/
theorem readAttribute_literal (s : String) : readAttribute (literalAttribute s) = some (.text s) := by
  rw [literalAttribute]
  split
  · have chars : ("\x7b\x7d" ++ s).toList = '{' :: '}' :: s.toList := by simp
    rw [readAttribute, chars]
    simp
  · next noBrace =>
    rw [readAttribute]
    split
    · next chars => exact absurd chars (noBrace _)
    · next chars => exact absurd chars (noBrace _)
    · rfl

theorem ne_nil_of_isQualified {name : String} (h : Xml.IsQualified name) : name.toList ≠ [] := by
  cases h with
  | plain hs =>
    intro empty
    have start := (isPlainName_iff.mp hs).1
    rw [empty] at start
    cases start
  | prefixed => simp

/-- An extension does not begin like a literal. -/
theorem extension_ne_braces (hp : HavePrefixes namespaces) : ∀ (o : Object) (rest : List Char),
    (o.extension namespaces).toList ≠ '{' :: '}' :: rest
  | .mk type members, rest => by
    have name := isQualified_qualify hp type.space (isPlainName_extensionShortName type)
    rw [Object.extension, toList_braced, extensionChars]
    generalize qualify namespaces type.space (extensionShortName type.name) = n at name
    intro same
    cases chars : n.toList with
    | nil => exact ne_nil_of_isQualified name chars
    | cons c cs =>
      have first : isExtensionName c = true := isExtensionName_of_mem name c (by rw [chars]; exact List.mem_cons_self)
      rw [chars] at same
      obtain rfl : c = '}' := (List.cons.inj (List.cons.inj same).2).1
      cases first

variable {namespaces}

/-- An extension as a whole value. -/
theorem readAttribute_extension (hp : HavePrefixes namespaces) {o : Object}
    (named : o.passes MemberNode.isNamedArgument = true) :
    readAttribute (o.extension namespaces) = some (o.meaning namespaces) ↔ (o.meaning namespaces).IsLegible := by
  obtain ⟨body, printed, reads⟩ := object_readsBack namespaces hp o (Nat.le_refl _) named
  have whole := reads []
  rw [← List.append_nil body] at printed
  rw [readAttribute]
  split
  · next chars => exact absurd chars (extension_ne_braces namespaces hp o _)
  · next rest' _ chars =>
    obtain rfl := (List.cons.inj (printed.symm.trans chars)).2
    constructor
    · intro read
      split at read
      · next found =>
        cases read
        exact whole.legible_of found
      · cases read
    · intro legible
      rw [whole.back legible]
  · next other => exact absurd printed (other _)

/-- **Attribute values read back.** A member that is written as an attribute has one item. Of a value, what is read is the
literal, whatever it is. Of an extension, what is read is its name with its arguments and the extensions in them, exactly
if the texts among them are legible and each member in it has one item. -/
theorem attributeValue_reads (hp : HavePrefixes namespaces) {m : MemberNode}
    (named : nodesPass MemberNode.isNamedArgument m.items = true) {v : String} (h : m.attributeValue? namespaces = some v) :
    (∃ w, m.items = [.value w] ∧ readAttribute v = some (.text w.display)) ∨
      ∃ o, m.items = [.object o] ∧
        (readAttribute v = some (o.meaning namespaces) ↔ (o.meaning namespaces).IsLegible) := by
  rw [MemberNode.attributeValue?] at h
  split at h
  · next w items =>
    cases h
    exact .inl ⟨w, items, readAttribute_literal w.display⟩
  · next o items =>
    split at h
    · cases h
      rw [items] at named
      exact .inr ⟨o, items, readAttribute_extension hp (Bool.and_eq_true_iff.mp named).1⟩
    · cases h
  · cases h

/-- An extension with one positional argument. -/
def extensionOf (type : ElementType) (argument : Node) : Object :=
  .mk type [.mk "_PositionalParameters" "x" .directive false false [argument]]

theorem isLegible_extensionOf (type : ElementType) (argument : Node) :
    ((extensionOf type argument).meaning namespaces).IsLegible ↔ (argument.meaning namespaces).IsLegible := by
  simp [extensionOf, Object.meaning, membersArguments, MemberNode.arguments, nodesMeaning, Meaning.IsLegible,
    ArgumentsLegible]

/-- A static reference in a reference to a resource, with quotes and a comma in its name. -/
theorem attributeValue_reads_static :
    readAttribute "\x7bStaticResource \x7bx:Static '\\'k\\', l '\x7d\x7d" =
      some (.extension "StaticResource" [.mk none [.extension "x:Static" [.mk none [.text "'k', l "]]]]) := by
  have prefixes : HavePrefixes [⟨"x", languageNamespace⟩] := List.forall_mem_singleton.mpr (.inr (by decide))
  have named : nodesPass MemberNode.isNamedArgument [.object (extensionOf .staticResourceExtension
      (.object (extensionOf .staticExtension (.value (.text "'k', l ")))))] = true := rfl
  have quoted : isQuoted "'k', l " ≠ false := by decide
  have legible : IsLegibleText "'k', l " := ⟨by decide, fun h => absurd h quoted, fun h => absurd h quoted⟩
  obtain ⟨w, items, -⟩ | ⟨o, items, read⟩ := attributeValue_reads prefixes
    (m := .mk "Style" "Paragraph" .property false false _) named rfl
  · cases items
  · cases items
    exact read.mpr ((isLegible_extensionOf _ _).mpr ((isLegible_extensionOf _ _).mpr legible))

/-- The key of a style with a backslash in it, which is taken for an escape. -/
theorem backslash_in_key_not_read :
    (MemberNode.mk "Style" "Paragraph" .property false false
        [.object (extensionOf .staticResourceExtension (.value (.resourceKey ⟨"a\\b"⟩)))]).attributeValue? [] =
        some "\x7bStaticResource a\\b\x7d" ∧
      (extensionOf .staticResourceExtension (.value (.resourceKey ⟨"a\\b"⟩))).meaning [] =
        .extension "StaticResource" [.mk none [.text "a\\b"]] ∧
      readAttribute "\x7bStaticResource a\\b\x7d" = some (.extension "StaticResource" [.mk none [.text "ab"]]) :=
  ⟨rfl, rfl, rfl⟩

end FlowDoc.Xaml
