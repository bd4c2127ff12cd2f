import FlowDoc.CommandLine.Program
import FlowDoc.Proofs.CommandLine.Parting
import FlowDoc.Proofs.Config.TextField

/-!
# Settings of texts

A setting among the arguments is read as a truth value or an integer if it can be, whatever it sets. In a field of text
it becomes a text again: the word of the truth value, or the integer in plain decimal (`plain`). So every text can be
set but for words that stand for truth values and integers that are written in another way (**`text_setting`**).
-/

namespace FlowDoc.Config

/-! ## One entry among others -/

namespace Entries

variable {α : Type} {key : String} {a : α}

theorem nodup_put {es : Entries α} (h : (es.map Prod.fst).Nodup) (key : String) (a : α) :
    ((es.put key a).map Prod.fst).Nodup := by
  induction es with
  | nil => exact List.nodup_cons.mpr ⟨List.not_mem_nil, List.nodup_nil⟩
  | cons e es ih =>
    obtain ⟨single, h⟩ := List.nodup_cons.mp h
    rw [put]
    split
    · rename_i same
      exact List.nodup_cons.mpr ⟨same ▸ single, h⟩
    · rename_i other
      refine List.nodup_cons.mpr ⟨fun again => ?_, ih h⟩
      obtain ⟨f, mem, eq⟩ := List.mem_map.mp again
      rcases mem_of_mem_put mem with rfl | mem
      · exact other eq.symm
      · exact single (List.mem_map.mpr ⟨f, mem, eq⟩)

theorem put_append_cons {before : Entries α} (h : ∀ e ∈ before, e.1 ≠ key) (after : Entries α) (a b : α) :
    Entries.put key b (before ++ (key, a) :: after) = before ++ (key, b) :: after := by
  induction before with
  | nil => simp [put]
  | cons e before ih =>
    rw [List.cons_append, put, if_neg (h e List.mem_cons_self), ih fun f hf => h f (List.mem_cons_of_mem e hf)]
    rfl

/-- The entry of a key stands between entries of other keys. -/
theorem exists_around {es : Entries α} (nodup : (es.map Prod.fst).Nodup) (h : (key, a) ∈ es) :
    ∃ before after : Entries α, es = before ++ (key, a) :: after ∧ ∀ e ∈ before ++ after, e.1 ≠ key := by
  obtain ⟨before, after, rfl⟩ := List.append_of_mem h
  refine ⟨before, after, rfl, fun e he same => ?_⟩
  have distinct := (List.perm_middle.map Prod.fst).nodup_iff.mp nodup
  exact (List.nodup_cons.mp distinct).1 (List.mem_map.mpr ⟨e, he, same⟩)

end Entries

end FlowDoc.Config

namespace FlowDoc.CommandLine.Extra

open Config

variable {k : TextField} {name : String} {order before after : Entries String}

/-! ## Values as texts -/

/-- What is left of a text that is set: the word of a truth value, an integer in plain decimal, or the text itself. -/
def plain (raw : String) : String :=
  if Text.lowerCase raw ∈ ["true", "yes"] then "true"
  else if Text.lowerCase raw ∈ ["false", "no"] then "false"
  else ((Decimal.readInt64? raw.toList).map toString).getD raw

/-- What a text is read as, and what is left of it: the words come first, then the integers. -/
inductive Reads (raw : String) : Value → String → Prop
  | yes : Text.lowerCase raw ∈ ["true", "yes"] → Reads raw (.bool true) "true"
  | no : Text.lowerCase raw ∈ ["false", "no"] → Reads raw (.bool false) "false"
  | int {n : Int} : Text.lowerCase raw ∉ ["true", "yes", "false", "no"] → Decimal.readInt64? raw.toList = some n →
      Reads raw (.int n) (toString n)
  | text : Text.lowerCase raw ∉ ["true", "yes", "false", "no"] → Decimal.readInt64? raw.toList = none →
      Reads raw (.text raw) raw

theorem reads_value (raw : String) : Reads raw (value raw) (plain raw) := by
  unfold value plain
  generalize found : Decimal.readInt64? raw.toList = number
  by_cases yes : Text.lowerCase raw ∈ ["true", "yes"]
  · have taken : (Text.lowerCase raw == "true" || Text.lowerCase raw == "yes") = true := by simpa using yes
    simp only [taken, if_pos yes, if_true]
    exact .yes yes
  · have passed : (Text.lowerCase raw == "true" || Text.lowerCase raw == "yes") = false := by simpa using yes
    by_cases no : Text.lowerCase raw ∈ ["false", "no"]
    · have taken : (Text.lowerCase raw == "false" || Text.lowerCase raw == "no") = true := by simpa using no
      simp only [passed, taken, if_neg yes, if_pos no, Bool.false_eq_true, if_false, if_true]
      exact .no no
    · have passed' : (Text.lowerCase raw == "false" || Text.lowerCase raw == "no") = false := by simpa using no
      have word : Text.lowerCase raw ∉ ["true", "yes", "false", "no"] := by
        simp only [List.mem_cons, List.not_mem_nil, or_false, not_or] at yes no ⊢
        exact ⟨yes.1, yes.2, no⟩
      simp only [passed, passed', if_neg yes, if_neg no, Bool.false_eq_true, if_false]
      cases number with
      | none => exact .text word found
      | some n => exact .int word found

/-- Every value that is set is a text where one is asked for. -/
theorem text_value (raw : String) : Decoder.text (value raw) = .ok (plain raw) := by
  have reads := reads_value raw
  generalize value raw = v, plain raw = x at reads
  cases reads <;> rfl

/-- Which texts stay as they are. -/
theorem plain_eq_self_iff (raw : String) : plain raw = raw ↔
    (Text.lowerCase raw ∈ ["true", "yes", "false", "no"] → raw = "true" ∨ raw = "false") ∧
      ∀ n, Decimal.readInt64? raw.toList = some n → raw = toString n := by
  have reads := reads_value raw
  generalize value raw = v, plain raw = x at reads
  cases reads with
  | yes word =>
    have number : Decimal.readInt64? "true".toList = none := by decide
    refine ⟨fun same => ?_, fun ⟨only, _⟩ => ?_⟩
    · obtain rfl : "true" = raw := same
      exact ⟨fun _ => Or.inl rfl, fun n h => by rw [number] at h; cases h⟩
    · rcases only (List.mem_append_left ["false", "no"] word) with rfl | rfl
      · rfl
      · exact absurd word (by decide +kernel)
  | no word =>
    have number : Decimal.readInt64? "false".toList = none := by decide
    refine ⟨fun same => ?_, fun ⟨only, _⟩ => ?_⟩
    · obtain rfl : "false" = raw := same
      exact ⟨fun _ => Or.inr rfl, fun n h => by rw [number] at h; cases h⟩
    · rcases only (List.mem_append_right ["true", "yes"] word) with rfl | rfl
      · exact absurd word (by decide +kernel)
      · rfl
  | int other number =>
    rw [number]
    exact ⟨fun same => ⟨fun word => absurd word other, fun n h => Option.some.inj h ▸ same.symm⟩,
      fun h => (h.2 _ rfl).symm⟩
  | text other none =>
    rw [none]
    exact iff_of_true rfl ⟨fun word => absurd word other, nofun⟩

/-! ## Names of fields -/

/-- Whether a path is that of a field. -/
def Leads (p : String) (k : TextField) : Prop :=
  ∃ last, KeyPath.ofString p = .ok ⟨k.group, [.key last]⟩ ∧ Text.lowerCase last = k.key

/-- Whether a path leads elsewhere, if it is one. -/
def LeadsElsewhere (p : String) (k : TextField) : Prop := ∀ q, KeyPath.ofString p = .ok q → k.IsApart q

/-- The name of a field. -/
def fieldName : TextField → String
  | .style r => "styles." ++ r.name
  | k => k.group ++ "." ++ k.key

theorem leads_fieldName (k : TextField) : Leads (path (fieldName k)) k := by
  cases k with
  | style r => cases r <;> exact ⟨Style.Role.name _, rfl, rfl⟩
  | _ => exact ⟨_, rfl, lowerCase_key (by decide)⟩

/-! ## One value among others -/

/-- Set values at paths that are read from texts. -/
def assignAll (as : Assignments) (es : Entries Value) : Except PathError Assignments :=
  es.foldlM (fun as e => as.setAt e.1 e.2) as

theorem assignAll_cons_of_ok {p : String} {q : KeyPath} (h : KeyPath.ofString p = .ok q) (as : Assignments) (v : Value)
    (es : Entries Value) : assignAll as ((p, v) :: es) = assignAll (as.set q v) es := by
  rw [assignAll, List.foldlM_cons, Assignments.setAt, h]
  rfl

theorem assignAll_cons_of_error {p : String} {err : PathError} (h : KeyPath.ofString p = .error err) (as : Assignments)
    (v : Value) (es : Entries Value) : assignAll as ((p, v) :: es) = .error err := by
  rw [assignAll, List.foldlM_cons, Assignments.setAt, h]
  rfl

theorem assignAll_singleton (as : Assignments) (p : String) (v : Value) : assignAll as [(p, v)] = as.setAt p v := by
  rw [assignAll, List.foldlM_cons]
  exact bind_pure _

theorem assignAll_append (as : Assignments) (es fs : Entries Value) :
    assignAll as (es ++ fs) = assignAll as es >>= fun bs => assignAll bs fs := List.foldlM_append

section Apart

variable {es : Entries Value} (elsewhere : ∀ e ∈ es, LeadsElsewhere e.1 k)

include elsewhere

/-- What is set elsewhere leads elsewhere. -/
theorem assignAll_isApart {as bs : Assignments} (apart : ∀ e ∈ as, k.IsApart e.1) (h : assignAll as es = .ok bs) :
    ∀ e ∈ bs, k.IsApart e.1 := by
  induction es generalizing as with
  | nil =>
    obtain rfl : as = bs := Except.ok.inj h
    exact apart
  | cons e es ih =>
    obtain ⟨p, v⟩ := e
    cases hp : KeyPath.ofString p with
    | error err => rw [assignAll_cons_of_error hp] at h; cases h
    | ok q =>
      rw [assignAll_cons_of_ok hp] at h
      refine ih (fun f hf => elsewhere f (List.mem_cons_of_mem _ hf)) (fun f hf => ?_) h
      rcases Assignments.mem_of_mem_set hf with rfl | hf
      · exact elsewhere (p, v) List.mem_cons_self q hp
      · exact apart f hf

/-- What is set elsewhere is set around an assignment to the field, whatever its value is. -/
theorem assignAll_around {q : KeyPath} (hq : ¬ k.IsApart q) {xs ys : Assignments}
    (apart : ∀ e ∈ xs ++ ys, k.IsApart e.1) :
    (∃ xs' ys' : Assignments, (∀ e ∈ xs' ++ ys', k.IsApart e.1) ∧
      ∀ w, assignAll (xs ++ (q, w) :: ys) es = .ok (xs' ++ (q, w) :: ys')) ∨
    ∃ err, ∀ w, assignAll (xs ++ (q, w) :: ys) es = .error err := by
  induction es generalizing xs ys with
  | nil => exact Or.inl ⟨xs, ys, apart, fun _ => rfl⟩
  | cons e es ih =>
    obtain ⟨p, v⟩ := e
    cases hp : KeyPath.ofString p with
    | error err => exact Or.inr ⟨err, fun w => assignAll_cons_of_error hp _ v es⟩
    | ok r =>
      -- The path is another one, so the assignment to the field keeps its place.
      have away : k.IsApart r := elsewhere (p, v) List.mem_cons_self r hp
      have other : r ≠ q := fun same => hq (same ▸ away)
      obtain ⟨xs₁, ys₁, came, set⟩ := Assignments.exists_set_of_ne other xs ys v
      have apart₁ : ∀ f ∈ xs₁ ++ ys₁, k.IsApart f.1 := fun f hf => by
        rcases came f hf with rfl | hf
        · exact away
        · exact apart f hf
      simp only [assignAll_cons_of_ok hp, set]
      exact ih (fun f hf => elsewhere f (List.mem_cons_of_mem _ hf)) apart₁

end Apart

/-- **One value.** The value of a field is one of the assignments, or there are none whatever it is. -/
theorem exists_assigned {p : String} {q : KeyPath} (hp : KeyPath.ofString p = .ok q) (hq : ¬ k.IsApart q)
    {es fs : Entries Value} (before : ∀ e ∈ es, LeadsElsewhere e.1 k) (after : ∀ e ∈ fs, LeadsElsewhere e.1 k) :
    (∃ xs ys : Assignments, (∀ e ∈ xs ++ ys, k.IsApart e.1) ∧
      ∀ v, assignAll [] (es ++ (p, v) :: fs) = .ok (xs ++ (q, v) :: ys)) ∨
    ∃ err, ∀ v, assignAll [] (es ++ (p, v) :: fs) = .error err := by
  simp only [assignAll_append, assignAll_cons_of_ok hp]
  cases first : assignAll [] es with
  | error err => exact Or.inr ⟨err, fun _ => rfl⟩
  | ok xs =>
    have apart : ∀ e ∈ xs, k.IsApart e.1 := assignAll_isApart before (fun e he => absurd he List.not_mem_nil) first
    have new : ∀ e ∈ xs, e.1 ≠ q := fun e he same => hq (same ▸ apart e he)
    simp only [TextField.ok_bind, Assignments.set_of_forall_ne new]
    exact assignAll_around after hq (by rwa [List.append_nil])

/-! ## Loading -/

/-- The address that an option asks for. -/
def baseUri? (i : Invocation) : Option String :=
  match i.task with
  | some (.convert c) => c.baseUri
  | _ => none

/-- The values that settings and options set, with their paths. -/
def given (i : Invocation) (order : Entries String) : Entries Value :=
  order.map (fun e => (path e.1, value e.2)) ++ (baseUri? i).toList.map fun uri => ("render.base_uri", .text uri)

section Load

variable {m : Type → Type} [Monad m] (host : Host m) (i : Invocation)

/-- The files of the configuration. -/
def configFiles : ExceptT Failure m (List File) := do
  let project ← (configFile host "mdxaml.toml" false : m File)
  let asked ← i.config.toList.mapM fun path => (configFile host path true : m File)
  return project :: asked

/-- Load the settings that the files and assignments make. -/
def loadWith (assigned : Except PathError Assignments) : ExceptT Failure m Settings := do
  let assignments ← MonadExcept.ofExcept (assigned.mapError .badPath)
  let files ← configFiles host i
  MonadExcept.ofExcept ((Layers.settings ⟨files, assignments⟩).mapError .configuration)

theorem loadWith_ok [LawfulMonad m] (as : Assignments) : loadWith host i (.ok as) = (do
    let files ← configFiles host i
    MonadExcept.ofExcept ((Layers.settings ⟨files, as⟩).mapError .configuration)) := pure_bind as _

theorem loadWith_error [LawfulMonad m] (err : PathError) : loadWith host i (.error err) = throw (.badPath err) := by
  apply ExceptT.ext
  exact pure_bind _ _

theorem loadSettings_eq [LawfulMonad m] (order : Entries String) :
    loadSettings host i order = loadWith host i (assignAll [] (given i order)) := by
  have carried (es : Entries Value) : assignAll [] (order.map (fun e => (path e.1, value e.2)) ++ es) =
      assignments order >>= fun as => assignAll as es := by
    rw [assignAll_append, assignAll, List.foldlM_map]
    rfl
  rw [given, carried, loadWith, configFiles]
  simp only [bind_assoc, pure_bind]
  obtain ⟨_, _, task⟩ := i
  cases task with
  | none => rfl
  | some task =>
    cases task with
    | listStyles => rfl
    | convert c =>
      obtain ⟨_, _, _, _, uri⟩ := c
      cases uri with
      | none => rfl
      | some uri =>
        simp only [baseUri?, Option.toList, List.map, assignAll_singleton]
        rfl

/-- What fails has no value to change. -/
theorem map_throw [LawfulMonad m] {α β : Type} (g : α → β) (e : Failure) :
    g <$> (throw e : ExceptT Failure m α) = throw e := by
  apply ExceptT.ext
  simp

theorem ofExcept_map [LawfulMonad m] {ε α β : Type} (r : Except ε α) (f : ε → Failure) (g : α → β) :
    (MonadExcept.ofExcept ((r.map g).mapError f) : ExceptT Failure m β) =
      g <$> (MonadExcept.ofExcept (r.mapError f) : ExceptT Failure m α) := by
  cases r with
  | error e => exact (map_throw g (f e)).symm
  | ok a => exact (map_pure g a).symm

theorem leadsElsewhere_baseUri (h : k ≠ .baseUri) : LeadsElsewhere "render.base_uri" k := by
  rintro q found
  obtain rfl : ⟨"render", [.key "base_uri"]⟩ = q := Except.ok.inj (Eq.trans (by rfl) found)
  refine Or.inl ?_
  cases k with
  | baseUri => exact absurd rfl h
  | style r => exact of_decide_eq_true rfl
  | _ => decide

/-- **Loading.** A setting of a field loads what an empty one does, apart from the field. -/
theorem loadSettings_around [LawfulMonad m] (leads : Leads (path name) k)
    (elsewhere : ∀ e ∈ before ++ after, LeadsElsewhere (path e.1) k) (free : baseUri? i = none ∨ k ≠ .baseUri)
    (raw : String) : loadSettings host i (before ++ (name, raw) :: after) =
      k.write (plain raw) <$> loadSettings host i (before ++ (name, "") :: after) := by
  obtain ⟨last, hp, hlast⟩ := leads
  have values {order : Entries String} (h : ∀ e ∈ order, e ∈ before ++ after) :
      ∀ e ∈ order.map fun e => (path e.1, value e.2), LeadsElsewhere e.1 k := by
    rintro _ he
    obtain ⟨e, mem, rfl⟩ := List.mem_map.mp he
    exact elsewhere e (h e mem)
  have options : ∀ e ∈ (baseUri? i).toList.map fun uri => ("render.base_uri", Value.text uri),
      LeadsElsewhere e.1 k := by
    rintro _ he
    obtain ⟨uri, asked, rfl⟩ := List.mem_map.mp he
    refine leadsElsewhere_baseUri (free.resolve_left fun none => ?_)
    rw [none] at asked
    cases asked
  have split (raw : String) : given i (before ++ (name, raw) :: after) =
      before.map (fun e => (path e.1, value e.2)) ++ (path name, value raw) ::
        (after.map (fun e => (path e.1, value e.2)) ++ (baseUri? i).toList.map fun uri =>
          ("render.base_uri", .text uri)) := by
    simp [given]
  have empty : value "" = .text "" := rfl
  rw [loadSettings_eq, loadSettings_eq, split, split, empty]
  rcases exists_assigned hp (TextField.not_isApart hlast) (values fun e => List.mem_append_left _)
    (List.forall_mem_append.mpr ⟨values fun e => List.mem_append_right _, options⟩) with
    ⟨xs, ys, apart, assigned⟩ | ⟨err, failed⟩
  · rw [assigned, assigned]
    have loaded (files : List File) := TextField.settings_around hlast (text_value raw) files xs
      fun e he => apart e (List.mem_append_right _ he)
    rw [loadWith_ok, loadWith_ok, map_bind]
    refine bind_congr fun files => ?_
    rw [loaded files, ofExcept_map]
  · rw [failed, failed, loadWith_error, map_throw]

/-! ### Without files -/

theorem configFile_absent [LawfulMonad m] (away : ∀ path, ∃ e, host.read path = pure (.error e)) (path : String) :
    configFile host path false = pure ⟨none, false⟩ := by
  obtain ⟨e, first⟩ := away path
  obtain ⟨e', second⟩ := away (path ++ ".toml")
  rw [configFile, first, pure_bind]
  show (host.read (path ++ ".toml") >>= fun found => pure (⟨found.toOption, false⟩ : File)) = _
  rw [second, pure_bind]
  rfl

/-- **Alone.** Where there are no files a setting of a field loads. -/
theorem exists_loadSettings [LawfulMonad m] (leads : Leads (path name) k) (raw : String)
    (away : ∀ path, ∃ e, host.read path = pure (.error e)) (config : i.config = none) (uri : baseUri? i = none) :
    ∃ s, loadSettings host i [(name, raw)] = pure s ∧ k.read s = some (plain raw) := by
  obtain ⟨last, hp, hlast⟩ := leads
  obtain ⟨s, alone⟩ := TextField.exists_settings_alone hlast
  have files : configFiles host i = pure [⟨none, false⟩] := by
    apply ExceptT.ext
    simp [configFiles, configFile_absent host away, config]
  have assigned : assignAll [] (given i [(name, raw)]) = .ok [(⟨k.group, [.key last]⟩, value raw)] := by
    rw [given, uri]
    exact assignAll_cons_of_ok hp [] (value raw) []
  have nothing : ∀ e ∈ ([] : Assignments), k.IsApart e.1 := List.forall_mem_nil _
  have loaded := TextField.settings_around hlast (text_value raw) [⟨none, false⟩] [] nothing
  refine ⟨k.write (plain raw) s, ?_, k.read_write (plain raw) s⟩
  rw [loadSettings_eq, assigned, loadWith_ok, files, pure_bind]
  rw [List.nil_append, List.nil_append, alone] at loaded
  rw [loaded]
  rfl

end Load

/-! ## Among the arguments -/

theorem nodup_overrides (extras : List Extra) : ((overrides extras).map Prod.fst).Nodup := by
  induction extras using List.reverseRecOn with
  | nil => exact List.nodup_nil
  | append_singleton extras e ih =>
    rw [overrides_concat]
    exact Entries.nodup_put ih e.name e.raw

/-- The last setting of a name is kept. -/
theorem mem_overrides_of_last_name {xs ys : List Extra} (e : Extra) (last : ∀ f ∈ ys, f.name ≠ e.name) :
    (e.name, e.raw) ∈ overrides (xs ++ e :: ys) := by
  induction ys using List.reverseRecOn with
  | nil =>
    rw [overrides_concat]
    exact Entries.mem_put_self _ _ _
  | append_singleton ys f ih =>
    rw [← List.cons_append, ← List.append_assoc, overrides_concat]
    refine Entries.mem_put_of_ne (ih fun g hg => last g (List.mem_append_left _ hg)) ?_
    exact (last f (List.mem_append_right _ List.mem_cons_self)).symm

/-- A switch and its value among the arguments. -/
theorem extras_split_append {raw : String} (undashed : isDashed raw = false) (args after : List String) :
    (split (args ++ ("--extra-" ++ name) :: raw :: after)).extras =
      (split args).extras ++ ⟨name, raw⟩ :: (split after).extras := by
  have switch : name? ("--extra-" ++ name) = some name := name?_eq_some_iff.mpr (Or.inl rfl)
  have dashed : ∀ b ∈ (("--extra-" ++ name) :: raw :: after).head?, isDashed b = true := by
    rintro b ⟨⟩
    exact isDashed_of_name? switch
  rw [split_append dashed, split_cons_cons switch undashed]
  rfl

/-- What is kept of the other settings leads elsewhere. -/
theorem leadsElsewhere_of_mem {raw : String} (undashed : isDashed raw = false) {args after : List String}
    (elsewhere : ∀ e ∈ (split args).extras, e.name ≠ name → LeadsElsewhere (path e.name) k)
    (elsewhere' : ∀ e ∈ (split after).extras, LeadsElsewhere (path e.name) k) {e : String × String}
    (h : e ∈ overrides (split (args ++ ("--extra-" ++ name) :: raw :: after)).extras) (other : e.1 ≠ name) :
    LeadsElsewhere (path e.1) k := by
  obtain ⟨f, mem, rfl⟩ := List.mem_map.mp (overrides_subset _ h)
  rw [extras_split_append undashed, List.mem_append, List.mem_cons] at mem
  rcases mem with mem | rfl | mem
  · exact elsewhere f mem other
  · exact absurd rfl other
  · exact elsewhere' f mem

/-- **Settings of texts.** A field has a name, and under whatever name it is set to a text, it is the plain form of it,
which is the text itself but for words that stand for truth values and integers in another form. Alone the setting
loads. Among other settings, files and options that do not set the field it loads what an empty text in its place does,
apart from the field. -/
theorem text_setting (k : TextField) :
    Leads (path (fieldName k)) k ∧ (∀ x s, k.read (k.write x s) = some x) ∧
      (∀ raw, plain raw = raw ↔
        (Text.lowerCase raw ∈ ["true", "yes", "false", "no"] → raw = "true" ∨ raw = "false") ∧
          ∀ n, Decimal.readInt64? raw.toList = some n → raw = toString n) ∧
      ∀ name, Leads (path name) k → ∀ raw, isDashed raw = false →
        ∀ (m : Type → Type) [Monad m] [LawfulMonad m] (host : Host m) (i : Invocation),
          ((∀ path, ∃ e, host.read path = pure (.error e)) → i.config = none → baseUri? i = none →
            ∃ s, loadSettings host i (overrides (split ["--extra-" ++ name, raw]).extras) = pure s ∧
              k.read s = some (plain raw)) ∧
          ∀ args after, (∀ e ∈ (split args).extras, e.name ≠ name → LeadsElsewhere (path e.name) k) →
            (∀ e ∈ (split after).extras, LeadsElsewhere (path e.name) k) → baseUri? i = none ∨ k ≠ .baseUri →
            ∀ order, order.Perm (overrides (split (args ++ ("--extra-" ++ name) :: raw :: after)).extras) →
              loadSettings host i order = k.write (plain raw) <$> loadSettings host i (Entries.put name "" order) := by
  refine ⟨leads_fieldName k, fun x s => k.read_write x s, plain_eq_self_iff, fun name leads raw undashed => ?_⟩
  intro m _ _ host i
  have single (args after : List String) : (split (args ++ ("--extra-" ++ name) :: raw :: after)).extras =
      (split args).extras ++ ⟨name, raw⟩ :: (split after).extras := extras_split_append undashed args after
  refine ⟨fun away config uri => ?_, fun args after elsewhere elsewhere' free order p => ?_⟩
  · have alone := single [] []
    rw [List.nil_append] at alone
    rw [alone]
    exact exists_loadSettings host i leads raw away config uri
  · have later : ∀ e ∈ (split after).extras, e.name ≠ name := fun e he same => by
      obtain ⟨last, hp, hlast⟩ := leads
      exact TextField.not_isApart hlast (elsewhere' e he _ (same ▸ hp))
    have kept : (name, raw) ∈ order := by
      rw [p.mem_iff, single]
      exact mem_overrides_of_last_name ⟨name, raw⟩ later
    obtain ⟨before, behind, rfl, other⟩ :=
      Entries.exists_around ((p.map Prod.fst).nodup_iff.mpr (nodup_overrides _)) kept
    rw [Entries.put_append_cons (fun e he => other e (List.mem_append_left _ he))]
    refine loadSettings_around host i leads (fun e he => ?_) free raw
    have mem : e ∈ before ++ (name, raw) :: behind := by
      rcases List.mem_append.mp he with he | he
      · exact List.mem_append_left _ he
      · exact List.mem_append_right _ (List.mem_cons_of_mem _ he)
    exact leadsElsewhere_of_mem undashed elsewhere elsewhere' (p.mem_iff.mp mem) (other e he)

/-- A host without files. -/
def emptyHost : Host Id where
  input := .error .notFound
  read _ := .error .notFound
  write _ _ := .error .notFound

/-- The format alone, and behind another setting. -/
theorem format_setting :
    (∃ s, loadSettings emptyHost {} (overrides (split ["--extra-output.format", "text"]).extras) = pure s ∧
      TextField.format.read s = some (plain "text")) ∧
    loadSettings emptyHost {} [("output.format", "text"), ("indent", "4")] =
      TextField.format.write (plain "text") <$> loadSettings emptyHost {} [("output.format", ""), ("indent", "4")] := by
  have leads : Leads (path "output.format") .format := leads_fieldName .format
  have kept : overrides (split (["--extra-indent", "4"] ++ ["--extra-output.format", "text"])).extras =
      [("indent", "4"), ("output.format", "text")] := by decide
  have elsewhere : LeadsElsewhere (path "indent") .format := by
    rintro q found
    obtain rfl : ⟨"output", [.key "indent"]⟩ = q := Except.ok.inj (Eq.trans (by rfl) found)
    exact Or.inr ⟨"indent", [], rfl, by decide +kernel⟩
  obtain ⟨alone, among⟩ := (text_setting .format).2.2.2 "output.format" leads "text" (by decide) Id emptyHost {}
  refine ⟨alone (fun _ => ⟨_, rfl⟩) rfl rfl, ?_⟩
  refine among ["--extra-indent", "4"] [] (fun e he _ => ?_) (fun e he => by cases he) (Or.inl rfl) _
    (kept ▸ List.Perm.swap _ _ _)
  obtain rfl : e = ⟨"indent", "4"⟩ := List.mem_singleton.mp he
  exact elsewhere

/-- An integer with zeros before it is set without them. -/
theorem zeros_are_lost :
    ¬ ∀ k name raw, Leads (path name) k → isDashed raw = false →
      ∃ s, loadSettings emptyHost {} (overrides (split ["--extra-" ++ name, raw]).extras) = pure s ∧
        k.read s = some raw := by
  intro verbatim
  have leads : Leads (path "styles.Document") (.style .document) := leads_fieldName (.style .document)
  obtain ⟨s, loads, same⟩ := verbatim (.style .document) "styles.Document" "007" leads (by decide)
  obtain ⟨t, loads', plain⟩ := exists_loadSettings emptyHost {} leads "007" (fun _ => ⟨_, rfl⟩) rfl rfl
  have kept : overrides (split ["--extra-" ++ "styles.Document", "007"]).extras = [("styles.Document", "007")] := by
    decide
  rw [kept, loads'] at loads
  obtain rfl : t = s := Except.ok.inj loads
  rw [plain] at same
  exact absurd same (by decide +kernel)

end FlowDoc.CommandLine.Extra
