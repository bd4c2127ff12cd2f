import FlowDoc.Config.Load

/-!
# Fields of text

The fields of the settings that hold texts (`TextField`). A value put into one stays there whatever is set at paths that
lead elsewhere, and is no hindrance to that (`TextField.apply_put`); the settings are read with it as without it, apart
from the field, which is the value as a text (**`TextField.ofValue_put`**). So are those of all layers, where the value
is one assignment among others (`TextField.settings_around`).
-/

namespace FlowDoc.Config

/-! ## Entries -/

namespace Entries

variable {α : Type}

theorem put_put_self (es : Entries α) (key : String) (a b : α) : (es.put key a).put key b = es.put key b := by
  induction es with
  | nil => simp [put]
  | cons e es ih =>
    obtain ⟨k, c⟩ := e
    by_cases same : k = key
    · simp [put, same]
    · simp [put, same, ih]

/-- What is put under a key takes the place of what was there before other keys came. -/
theorem put_put_put (es : Entries α) {key other : String} (ne : other ≠ key) (a b c : α) :
    ((es.put key a).put other b).put key c = (es.put key c).put other b := by
  induction es with
  | nil => simp [put, ne.symm]
  | cons e es ih =>
    obtain ⟨k, d⟩ := e
    by_cases first : k = key
    · subst first
      simp [put, ne.symm]
    · by_cases second : k = other
      · subst second
        simp [put, ne, put_put_self]
      · simp [put, first, second, ih]

end Entries

/-! ## Built-in values -/

/-- The characters of built-in keys. -/
def keyChars : List Char := "abcdefghijklmnopqrstuvwxyz_".toList

def isKey (s : String) : Bool := s.toList.all keyChars.contains

theorem lowerChar_of_mem_keyChars {c : Char} (hc : c ∈ keyChars) (before after : List Char) :
    Text.lowerChar before c after = [c] := by
  have images : (keyChars.all fun c => c != '\u03A3' && c != '\u0130' &&
      (Text.CaseRun.image? Text.lowerRuns c.toNat).isNone) = true := by decide +kernel
  have kept := List.all_eq_true.mp images c hc
  simp only [Bool.and_eq_true, bne_iff_ne, Option.isNone_iff_eq_none] at kept
  simp [Text.lowerChar, kept]

/-- Built-in keys are in lower case. -/
theorem lowerCase_key {key : String} (h : isKey key = true) : Text.lowerCase key = key := by
  have after {cs : List Char} (h : ∀ c ∈ cs, c ∈ keyChars) (before : List Char) : Text.lowerAfter before cs = cs := by
    induction cs generalizing before with
    | nil => rfl
    | cons c cs ih =>
      rw [Text.lowerAfter, lowerChar_of_mem_keyChars (h c List.mem_cons_self),
        ih fun d hd => h d (List.mem_cons_of_mem c hd)]
      rfl
  rw [Text.lowerCase, after fun c hc => List.contains_iff_mem.mp (List.all_eq_true.mp h c hc), String.ofList_toList]

theorem setEntries_builtIn : Value.setEntries (.table []) builtIn = .table builtIn := by
  have areKeys : (builtIn.all fun e => isKey e.1 && e.2.entries.all fun f => isKey f.1) = true := by decide
  have keys : ∀ e ∈ builtIn, Text.lowerCase e.1 = e.1 ∧ ∀ f ∈ e.2.entries, Text.lowerCase f.1 = f.1 := fun e he => by
    have isKeys := List.all_eq_true.mp areKeys e he
    rw [Bool.and_eq_true] at isKeys
    exact ⟨lowerCase_key isKeys.1, fun f hf => lowerCase_key (List.all_eq_true.mp isKeys.2 f hf)⟩
  have paths : ∀ e ∈ builtIn, KeyPath.ofString e.1 = .ok ⟨e.1, []⟩ := by
    simp only [builtIn, List.forall_mem_cons]
    exact ⟨rfl, rfl, rfl, rfl, rfl, List.forall_mem_nil _⟩
  simp only [builtIn, List.forall_mem_cons, Value.entries] at keys paths
  simp [builtIn, Value.setEntries, Value.setEntry, KeyPath.set, Value.assign, Value.insert, Value.insertAll, keys,
    paths, Entries.put, Entries.get?, Value.entries, List.lookup_cons]

/-- Where a file need not be there, and is not, there are the built-in values. -/
theorem base_absent : Layers.base [⟨none, false⟩] = .ok (.table builtIn) := by
  rw [Layers.base, setEntries_builtIn]
  exact congrArg Except.ok setEntries_builtIn

/-! ## Assignments -/

namespace Assignments

variable {as xs ys : Assignments} {p q : KeyPath} {v w : Value} {e : KeyPath × Value}

theorem mem_of_mem_set (h : e ∈ as.set p v) : e = (p, v) ∨ e ∈ as := by
  induction as with
  | nil => exact Or.inl (List.mem_singleton.mp h)
  | cons b as ih =>
    rw [set] at h
    split at h
    · exact (List.mem_cons.mp h).imp_right (List.mem_cons_of_mem b)
    · rcases List.mem_cons.mp h with rfl | h
      · exact Or.inr List.mem_cons_self
      · exact (ih h).imp_right (List.mem_cons_of_mem b)

/-- What is set at a new path comes last. -/
theorem set_of_forall_ne (h : ∀ e ∈ as, e.1 ≠ p) : as.set p v = as ++ [(p, v)] := by
  induction as with
  | nil => rfl
  | cons b as ih =>
    rw [set, if_neg (h b List.mem_cons_self), ih fun e he => h e (List.mem_cons_of_mem b he)]
    rfl

/-- What is set at another path stands before an assignment or after it. -/
theorem exists_set_of_ne (other : p ≠ q) (xs ys : Assignments) (v : Value) :
    ∃ xs' ys' : Assignments, (∀ e ∈ xs' ++ ys', e = (p, v) ∨ e ∈ xs ++ ys) ∧
      ∀ w, Assignments.set p v (xs ++ (q, w) :: ys) = xs' ++ (q, w) :: ys' := by
  induction xs with
  | nil => exact ⟨[], ys.set p v, fun e he => mem_of_mem_set he, fun w => by simp [set, other.symm]⟩
  | cons b xs ih =>
    obtain ⟨r, u⟩ := b
    by_cases same : r = p
    · refine ⟨(p, v) :: xs, ys, fun e he => ?_, fun w => by simp [set, same]⟩
      exact (List.mem_cons.mp he).imp_right (List.mem_cons_of_mem (r, u))
    · obtain ⟨xs', ys', came, carried⟩ := ih
      refine ⟨(r, u) :: xs', ys', fun e he => ?_, fun w => by simp [set, same, carried]⟩
      rcases List.mem_cons.mp he with rfl | he
      · exact Or.inr List.mem_cons_self
      · exact (came e he).imp_right (List.mem_cons_of_mem _)

end Assignments

/-! ## Steps into a table -/

/-- The key under which the first step of a path puts something: the last key of a path is taken in lower case. -/
def entryKey (name : String) (steps : List Step) : String := if steps.isEmpty then Text.lowerCase name else name

/-- A path changes what is under its first key, and that by what is there. -/
theorem Value.exists_assign (v : Value) (name : String) (steps : List Step) :
    ∃ change : Option Value → Value, ∀ t : Value, t.assign v (.key name :: steps) =
      .table (t.entries.put (entryKey name steps) (change (t.entries.get? (entryKey name steps)))) := by
  cases steps with
  | nil =>
    cases v with
    | table inner => exact ⟨fun found => insertAll inner (found.getD (.table [])), fun _ => by
        simp [assign, insert, entryKey]⟩
    | _ => exact ⟨fun _ => _, fun _ => by simp [assign, insert, entryKey]; rfl⟩
  | cons step steps =>
    exact ⟨fun found => assign (found.getD .nil) v (step :: steps), fun _ => by simp [assign, entryKey]⟩

/-! ## Fields -/

/-- A field of the settings that holds a text. -/
inductive TextField
  | style (r : Style.Role)
  | typeName
  | pre
  | clrNamespace
  | assembly
  | baseUri
  | format
  deriving DecidableEq

namespace TextField

variable {k : TextField} {p : KeyPath} {a v t : Value} {x : String}

/-- The section that the field is in. -/
def group : TextField → String
  | style _ => "styles"
  | typeName | pre | clrNamespace | assembly => "resources"
  | baseUri => "render"
  | format => "output"

/-- The key of the field in its section. -/
def key : TextField → String
  | style r => Text.lowerCase r.name
  | typeName => "type_name"
  | pre => "prefix"
  | clrNamespace => "clr_namespace"
  | assembly => "assembly"
  | baseUri => "base_uri"
  | format => "format"

/-- The text in the field, if there is one. -/
def read : TextField → Settings → Option String
  | style r, s => Entries.get? s.styles (Text.lowerCase r.name)
  | typeName, s => s.keyClass.typeName
  | pre, s => s.keyClass.pre
  | clrNamespace, s => s.keyClass.clrNamespace
  | assembly, s => s.keyClass.assembly
  | baseUri, s => s.baseUri
  | format, s => s.format

/-- Settings with a text in the field. -/
def write : TextField → String → Settings → Settings
  | style r, x, s => { s with styles := Entries.put (Text.lowerCase r.name) x s.styles }
  | typeName, x, s => { s with keyClass := { s.keyClass with typeName := x } }
  | pre, x, s => { s with keyClass := { s.keyClass with pre := x } }
  | clrNamespace, x, s => { s with keyClass := { s.keyClass with clrNamespace := x } }
  | assembly, x, s => { s with keyClass := { s.keyClass with assembly := x } }
  | baseUri, x, s => { s with baseUri := some x }
  | format, x, s => { s with format := x }

theorem read_write (k : TextField) (x : String) (s : Settings) : k.read (k.write x s) = some x := by
  cases k with
  | style r => exact Entries.get?_put_self s.styles _ x
  | _ => rfl

/-! ### In a value -/

/-- The section of the field in a value. -/
def section? (k : TextField) (t : Value) : Entries Value := ((t.entries.get? k.group).getD .nil).entries

/-- A value with another value in the field. -/
def put (k : TextField) (a t : Value) : Value :=
  .table (t.entries.put k.group (.table ((k.section? t).put k.key a)))

/-- A value that is no table is put into the field at the path of the field. -/
theorem set_eq_put {name : String} (hn : Text.lowerCase name = k.key) (ha : ∀ inner, a ≠ .table inner) (t : Value) :
    KeyPath.set ⟨k.group, [.key name]⟩ a t = k.put a t := by
  have inserted (target : Value) : Value.insert name a target = .table (target.entries.put k.key a) := by
    rw [← hn]
    cases a with
    | table inner => exact absurd rfl (ha inner)
    | _ => simp [Value.insert]
  rw [KeyPath.set, Value.assign]
  · rw [Value.assign, inserted]
    rfl
  · nofun

/-- Whether a path leads elsewhere. -/
def IsApart (k : TextField) (p : KeyPath) : Prop :=
  entryKey p.root p.steps ≠ k.group ∨ ∃ name rest, p.steps = .key name :: rest ∧ entryKey name rest ≠ k.key

theorem not_isApart {last : String} (h : Text.lowerCase last = k.key) : ¬ k.IsApart ⟨k.group, [.key last]⟩ := by
  rintro (other | ⟨_, _, ⟨⟩, other⟩)
  · exact other rfl
  · exact other h

theorem section?_put_group (k : TextField) (es inner : Entries Value) :
    k.section? (.table (es.put k.group (.table inner))) = inner := by
  rw [section?, Value.entries, Entries.get?_put_self]
  rfl

/-- What is put into the field takes the place of what was put there. -/
theorem put_of_section {inner : Entries Value} (h : k.section? t = inner.put k.key v) (a : Value) :
    k.put a t = .table (t.entries.put k.group (.table (inner.put k.key a))) := by
  rw [put, h, Entries.put_put_self]

/-- Paths into another section. -/
theorem set_put_group (h : entryKey p.root p.steps ≠ k.group) (v t : Value) :
    ∃ t', ∀ a, p.set v (k.put a t) = k.put a t' := by
  obtain ⟨change, changed⟩ := v.exists_assign p.root p.steps
  have set (a : Value) : p.set v (k.put a t) = .table ((k.put a t).entries.put (entryKey p.root p.steps)
      (change (t.entries.get? (entryKey p.root p.steps)))) := by
    rw [KeyPath.set, changed, put, Value.entries, Entries.get?_put_of_ne _ _ h]
  have inside : k.section? (p.set v (k.put .nil t)) = (k.section? t).put k.key .nil := by
    rw [set, section?, Value.entries, Entries.get?_put_of_ne _ _ h.symm, put, Value.entries, Entries.get?_put_self]
    rfl
  refine ⟨p.set v (k.put .nil t), fun a => ?_⟩
  rw [put_of_section inside, set, set, put, put, Value.entries, Value.entries, Value.entries,
    Entries.put_put_put _ h]

/-- Paths to other keys of the section. -/
theorem set_put_section {name : String} {rest : List Step} (root : p.root = k.group)
    (steps : p.steps = .key name :: rest) (h : entryKey name rest ≠ k.key) (v t : Value) :
    ∃ t', ∀ a, p.set v (k.put a t) = k.put a t' := by
  obtain ⟨change, changed⟩ := v.exists_assign name rest
  have set (a : Value) : p.set v (k.put a t) = .table (t.entries.put k.group (.table
      (((k.section? t).put k.key a).put (entryKey name rest)
        (change ((k.section? t).get? (entryKey name rest)))))) := by
    have inside : ((k.put a t).entries.get? k.group).getD .nil = .table ((k.section? t).put k.key a) := by
      rw [put, Value.entries, Entries.get?_put_self, Option.getD_some]
    rw [KeyPath.set, root, steps, Value.assign]
    · rw [inside, changed, Value.entries, Entries.get?_put_of_ne _ _ h, put, Value.entries, Entries.put_put_self]
    · nofun
  refine ⟨p.set v (k.put .nil t), fun a => ?_⟩
  rw [set a, set .nil, put, section?_put_group, Value.entries, Entries.put_put_self, Entries.put_put_put _ h]

/-- What is set elsewhere is set as if the field were not there, and leaves it as it is. -/
theorem set_put (h : k.IsApart p) (v t : Value) : ∃ t', ∀ a, p.set v (k.put a t) = k.put a t' := by
  by_cases other : entryKey p.root p.steps = k.group
  · obtain ⟨name, rest, steps, apart⟩ := h.resolve_left (not_not_intro other)
    have root : p.root = k.group := by
      rw [← other, steps]
      rfl
    exact set_put_section root steps apart v t
  · exact set_put_group other v t

theorem apply_put {as : Assignments} (h : ∀ e ∈ as, k.IsApart e.1) (t : Value) :
    ∃ t', ∀ a, as.apply (k.put a t) = k.put a t' := by
  induction as generalizing t with
  | nil => exact ⟨t, fun _ => rfl⟩
  | cons e as ih =>
    obtain ⟨t₁, first⟩ := set_put (h e List.mem_cons_self) e.2 t
    obtain ⟨t₂, rest⟩ := ih (fun e he => h e (List.mem_cons_of_mem _ he)) t₁
    refine ⟨t₂, fun a => ?_⟩
    rw [← rest a, ← first a]
    rfl

/-! ### Reading -/

section Decoding

variable {α β γ : Type} {ε : Type}

/-- Results that go on alike. -/
theorem bind_map_of {r : Except ε α} {f f' : α → Except ε β} {w : β → β} (h : ∀ a, f a = (f' a).map w) :
    (r >>= f) = (r >>= f').map w := by
  cases r with
  | error e => rfl
  | ok a => exact h a

/-- Results of which one goes on from another value. -/
theorem map_bind_map_of {r : Except ε α} {g : α → γ} {f : γ → Except ε β} {f' : α → Except ε β} {w : β → β}
    (h : ∀ a, f (g a) = (f' a).map w) : (r.map g >>= f) = (r >>= f').map w := by
  cases r with
  | error e => rfl
  | ok a => exact h a

theorem ok_bind (a : α) (f : α → Except ε β) : (Except.ok a >>= f) = f a := rfl

theorem mapError_ok (a : α) (f : ε → γ) : (Except.ok a).mapError f = .ok a := rfl

end Decoding

theorem field?_put {α : Type} (es : Entries Value) (key : String) (v : Value) (place : Nat) (name : String)
    (decode : Decoder α) : (Section.table (es.put key v)).field? place name decode =
      if name = key then ((decode v).mapError (ConfigError.within key)).map some
      else (Section.table es).field? place name decode := by
  split
  · subst name
    simp [Section.field?]
  · rename_i other
    simp [Section.field?, Entries.get?_put_of_ne es v other]

/-- A section that is read from another one. -/
theorem field?_put_map {α : Type} (es : Entries Value) (key : String) (place : Nat) {v w : Value} {decode : Decoder α}
    {g : α → α} (h : decode v = (decode w).map g) : (Section.table (es.put key v)).field? place key decode =
      ((Section.table (es.put key w)).field? place key decode).map (Option.map g) := by
  rw [field?_put, field?_put, if_pos rfl, if_pos rfl, h]
  cases decode w <;> rfl

theorem require_map {α β : Type} (o : Option α) (g : α → β) :
    Section.require (o.map g) = (Section.require o).map g := by
  cases o <;> rfl

/-- An entry as a text. -/
def textEntry (e : String × Value) : Except ConfigError (String × String) :=
  ((Decoder.text e.2).mapError (ConfigError.within e.1)).map (e.1, ·)

theorem textEntry_eq_ok {key : String} {e : String × String} (h : textEntry (key, v) = .ok e) :
    ∃ s, e = (key, s) := by
  rw [textEntry] at h
  cases found : Decoder.text v with
  | error err => rw [found] at h; cases h
  | ok s => rw [found] at h; cases h; exact ⟨s, rfl⟩

theorem texts_table (es : Entries Value) : Decoder.texts (.table es) = es.mapM textEntry := by
  have entry : (fun e : String × Value => do
      return (e.1, ← (Decoder.text e.2).mapError (ConfigError.within e.1))) = textEntry := by
    funext e
    rw [textEntry]
    cases Decoder.text e.2 <;> rfl
  rw [← entry]
  rfl

/-- The texts of a table with one put there. -/
theorem texts_put (es : Entries Value) (key : String) (ha : Decoder.text a = .ok x) :
    Decoder.texts (.table (es.put key a)) =
      (Decoder.texts (.table (es.put key (.text "")))).map fun found => Entries.put key x found := by
  have given : textEntry (key, a) = .ok (key, x) := by
    rw [textEntry, ha]
    rfl
  have empty : textEntry (key, .text "") = .ok (key, "") := rfl
  rw [texts_table, texts_table]
  induction es with
  | nil =>
    simp only [Entries.put, List.mapM_cons, List.mapM_nil, given, empty, ok_bind, pure_bind]
    exact congrArg Except.ok (by simp [Entries.put])
  | cons e es ih =>
    obtain ⟨k, b⟩ := e
    by_cases same : k = key
    · simp only [Entries.put, same, if_true, List.mapM_cons, given, empty, ok_bind]
      exact bind_map_of fun rest => congrArg Except.ok (by simp [Entries.put])
    · simp only [Entries.put, same, if_false, List.mapM_cons]
      -- what is read of another entry has another key
      cases first : textEntry (k, b) with
      | error e => rfl
      | ok e =>
        obtain ⟨s, rfl⟩ := textEntry_eq_ok first
        rw [ok_bind, ok_bind, ih]
        exact map_bind_map_of fun rest => congrArg Except.ok (by simp [Entries.put, same])

/-- A field that is read as a text. -/
theorem field?_put_text (es : Entries Value) (key : String) (place : Nat) (ha : Decoder.text a = .ok x) :
    (Section.table (es.put key a)).field? place key .text = .ok (some x) := by
  rw [field?_put, if_pos rfl, ha]
  rfl

theorem field?_put_optional (es : Entries Value) (key : String) (place : Nat) (ha : Decoder.text a = .ok x) :
    (Section.table (es.put key a)).field? place key (.optional .text) = .ok (some (some x)) := by
  have present : Decoder.optional .text a = .ok (some x) := by
    cases a with
    | nil => cases ha
    | _ => exact congrArg (Except.map some) ha
  rw [field?_put, if_pos rfl, present]
  rfl

theorem outputOf_put (es : Entries Value) (ha : Decoder.text a = .ok x) :
    Settings.outputOf (.table (es.put "format" a)) =
      (Settings.outputOf (.table (es.put "format" (.text "")))).map fun o => (x, o.2) := by
  have empty : Decoder.text (.text "") = .ok "" := rfl
  simp only [Settings.outputOf, Section.ofValue, ok_bind, field?_put_text _ _ _ ha, field?_put_text _ _ _ empty,
    field?_put, String.reduceEq, reduceIte, Section.require]
  exact bind_map_of fun _ => bind_map_of fun _ => rfl

theorem renderOf_put (es : Entries Value) (ha : Decoder.text a = .ok x) :
    Settings.renderOf (.table (es.put "base_uri" a)) =
      (Settings.renderOf (.table (es.put "base_uri" (.text "")))).map fun r => (some x, r.2) := by
  have empty : Decoder.text (.text "") = .ok "" := rfl
  simp only [Settings.renderOf, Section.ofValue, ok_bind, field?_put_optional _ _ _ ha,
    field?_put_optional _ _ _ empty, field?_put, String.reduceEq, reduceIte]
  exact bind_map_of fun _ => bind_map_of fun _ => bind_map_of fun _ => bind_map_of fun _ => rfl

theorem keyClassOf_put (hk : k.group = "resources") (es : Entries Value) (ha : Decoder.text a = .ok x) :
    Settings.keyClassOf (.table (es.put k.key a)) =
      (Settings.keyClassOf (.table (es.put k.key (.text "")))).map fun c => (k.write x { keyClass := c }).keyClass := by
  have empty : Decoder.text (.text "") = .ok "" := rfl
  cases k with
  | style | baseUri | format => simp [group] at hk
  | _ =>
    simp only [key, Settings.keyClassOf, Section.ofValue, ok_bind, field?_put_text _ _ _ ha,
      field?_put_text _ _ _ empty, field?_put, String.reduceEq, reduceIte, Section.require]
    exact bind_map_of fun _ => bind_map_of fun _ => bind_map_of fun _ => bind_map_of fun _ => bind_map_of fun _ =>
      bind_map_of fun _ => rfl

/-- Reading with a value in a field of the key class. -/
theorem ofValue_put_keyClass (hk : k.group = "resources") (t : Value) (ha : Decoder.text a = .ok x) :
    Settings.ofValue (k.put a t) = (Settings.ofValue (k.put (.text "") t)).map (k.write x) := by
  simp only [put, Settings.ofValue, Section.ofValue, ok_bind, hk, field?_put_map _ _ _ (keyClassOf_put hk _ ha),
    field?_put, String.reduceEq, reduceIte]
  refine bind_map_of fun _ => bind_map_of fun _ => bind_map_of fun _ => map_bind_map_of fun _ => bind_map_of fun _ => ?_
  simp only [require_map]
  refine bind_map_of fun _ => bind_map_of fun _ => map_bind_map_of fun _ => bind_map_of fun _ => ?_
  cases k with
  | style | baseUri | format => simp [group] at hk
  | _ => rfl

/-- **Reading.** With a value in the field the settings are read as with none, and the field is the value as a text. -/
theorem ofValue_put (k : TextField) (t : Value) (ha : Decoder.text a = .ok x) :
    Settings.ofValue (k.put a t) = (Settings.ofValue (k.put (.text "") t)).map (k.write x) := by
  cases k with
  | style r =>
    simp only [put, Settings.ofValue, Section.ofValue, ok_bind, group, key, field?_put, String.reduceEq, reduceIte,
      texts_put _ _ ha]
    refine bind_map_of fun _ => bind_map_of fun _ => ?_
    cases Decoder.texts (.table ((section? (.style r) t).put (Text.lowerCase r.name) (.text ""))) with
    | error e => rfl
    | ok found =>
      simp only [Except.map, mapError_ok, ok_bind]
      exact bind_map_of fun _ => bind_map_of fun _ => bind_map_of fun _ => bind_map_of fun _ => bind_map_of fun _ =>
        bind_map_of fun _ => rfl
  | baseUri =>
    simp only [put, Settings.ofValue, Section.ofValue, ok_bind, group, key,
      field?_put_map _ _ _ (renderOf_put _ ha), field?_put, String.reduceEq, reduceIte]
    refine bind_map_of fun _ => map_bind_map_of fun _ => bind_map_of fun _ => bind_map_of fun _ =>
      bind_map_of fun _ => ?_
    simp only [require_map]
    exact bind_map_of fun _ => map_bind_map_of fun _ => bind_map_of fun _ => bind_map_of fun _ => rfl
  | format =>
    simp only [put, Settings.ofValue, Section.ofValue, ok_bind, group, key,
      field?_put_map _ _ _ (outputOf_put _ ha), field?_put, String.reduceEq, reduceIte]
    refine bind_map_of fun _ => bind_map_of fun _ => bind_map_of fun _ => bind_map_of fun _ =>
      map_bind_map_of fun _ => ?_
    simp only [require_map]
    exact bind_map_of fun _ => bind_map_of fun _ => bind_map_of fun _ => map_bind_map_of fun _ => rfl
  | typeName | pre | clrNamespace | assembly => exact ofValue_put_keyClass rfl t ha

/-! ### In layers -/

/-- The settings with a value in a field are those with an empty one, apart from the field. -/
theorem settings_around {last : String} (hlast : Text.lowerCase last = k.key) {v : Value} {x : String}
    (hv : Decoder.text v = .ok x) (files : List File) (xs : Assignments) {ys : Assignments}
    (apart : ∀ e ∈ ys, k.IsApart e.1) : Layers.settings ⟨files, xs ++ (⟨k.group, [.key last]⟩, v) :: ys⟩ =
      (Layers.settings ⟨files, xs ++ (⟨k.group, [.key last]⟩, .text "") :: ys⟩).map (k.write x) := by
  cases based : Layers.base files with
  | error e =>
    rw [Layers.settings, Layers.settings, Layers.value, Layers.value, based]
    rfl
  | ok t =>
    have read (v : Value) : Layers.settings ⟨files, xs ++ (⟨k.group, [.key last]⟩, v) :: ys⟩ = Settings.ofValue
        (Assignments.apply (xs ++ (⟨k.group, [.key last]⟩, v) :: ys) t) := by
      rw [Layers.settings, Layers.value, based]
      rfl
    -- What is set before the field only makes another value to put it into.
    obtain ⟨t', applied⟩ := apply_put apart (Assignments.apply xs t)
    have made {v : Value} (hv : ∀ inner, v ≠ .table inner) :
        Assignments.apply (xs ++ (⟨k.group, [.key last]⟩, v) :: ys) t = k.put v t' := by
      rw [← applied, ← set_eq_put hlast hv]
      exact List.foldl_append
    have plain : ∀ inner, v ≠ .table inner := by
      rintro inner rfl
      cases hv
    rw [read, read, made plain, made (v := .text "") nofun, ofValue_put k t' hv]

/-- With nothing but an empty text in a field there are settings. -/
theorem exists_settings_alone {last : String} (hlast : Text.lowerCase last = k.key) :
    ∃ s, Layers.settings ⟨[⟨none, false⟩], [(⟨k.group, [.key last]⟩, .text "")]⟩ = .ok s := by
  have put : Layers.settings ⟨[⟨none, false⟩], [(⟨k.group, [.key last]⟩, .text "")]⟩ =
      Settings.ofValue (k.put (.text "") (.table builtIn)) := by
    rw [← set_eq_put (a := .text "") hlast (fun _ => nofun), Layers.settings, Layers.value, base_absent]
    rfl
  rw [put]
  cases k <;> exact ⟨_, rfl⟩

end TextField

end FlowDoc.Config
