import FlowDoc.Proofs.CommandLine.LastExtra

/-!
# Parting the arguments

What an argument is there for hangs on its own form and on the argument right before it: it is a switch, the value of
the switch before it, or kept. Each position is one of the three, what is kept and what is set are read off the
positions in their order, and parting goes on at an argument that begins with a dash as if it began there
(**`split_positions`**).
-/

namespace FlowDoc.CommandLine.Extra

open Config

variable {args as bs rest after : List String} {arg next name raw : String} {i : Nat}

/-! ## Switches -/

/-- A switch is a name after one of two prefixes. -/
theorem name?_eq_some_iff : name? arg = some name ↔ arg = "--extra-" ++ name ∨ arg = "--extras-" ++ name := by
  have stripped (p : String) :
      (Text.stripPrefix? p.toList arg.toList).map String.ofList = some name ↔ arg = p ++ name := by
    rw [Option.map_eq_some_iff, ← String.toList_inj, String.toList_append]
    constructor
    · rintro ⟨cs, h, rfl⟩
      rw [Text.stripPrefix?_eq_some_iff.mp h, String.toList_ofList]
    · exact fun h => ⟨_, Text.stripPrefix?_eq_some_iff.mpr h, String.ofList_toList⟩
  -- The prefixes differ in their eighth character, so at most one of them is there.
  have apart : arg = "--extras-" ++ name → Text.stripPrefix? "--extra-".toList arg.toList = none := by
    rintro rfl
    rw [String.toList_append]
    rfl
  rw [name?, ← stripped "--extra-", ← stripped "--extras-"]
  rw [← stripped "--extras-"] at apart
  generalize Text.stripPrefix? "--extra-".toList arg.toList = first at apart ⊢
  generalize Text.stripPrefix? "--extras-".toList arg.toList = second at apart ⊢
  cases first with
  | none => simp
  | some cs => simpa using fun s h e => absurd (apart (by simp [h, e])) nofun

theorem isDashed_of_name? (h : name? arg = some name) : isDashed arg = true := by
  rcases name?_eq_some_iff.mp h with rfl | rfl
  all_goals
    rw [isDashed, String.toList_append]
    rfl

theorem name?_of_not_isDashed (h : isDashed arg = false) : name? arg = none := by
  cases found : name? arg with
  | none => rfl
  | some name => rw [isDashed_of_name? found] at h; cases h

/-! ## Positions -/

/-- Whether there is a switch at a position. -/
def isSwitchAt (args : List String) (i : Nat) : Bool := args[i]?.any fun arg => (name? arg).isSome

/-- Whether there is the value of a switch at a position: right behind the switch, and without a dash. -/
def isValueAt (args : List String) : Nat → Bool
  | 0 => false
  | i + 1 => isSwitchAt args i && args[i + 1]?.any fun arg => !isDashed arg

/-- Whether the argument at a position is kept. -/
def isKeptAt (args : List String) (i : Nat) : Bool := !isSwitchAt args i && !isValueAt args i

/-- The setting of the switch at a position, with its value or `true`. -/
def settingAt? (args : List String) (i : Nat) : Option Extra :=
  (args[i]?.bind name?).map fun name => ⟨name, if isValueAt args (i + 1) then args[i + 1]?.getD "true" else "true"⟩

/-- The positions of arguments, in order. -/
def positions (args : List String) : List Nat := List.range args.length

theorem positions_cons (arg : String) (rest : List String) :
    positions (arg :: rest) = 0 :: (positions rest).map (· + 1) := by
  rw [positions, List.length_cons, List.range_succ_eq_map]
  rfl

/-- No value of a switch is a switch. -/
theorem isSwitchAt_eq_false_of_isValueAt (h : isValueAt args i = true) : isSwitchAt args i = false := by
  cases i with
  | zero => cases h
  | succ i =>
    rw [isValueAt, Bool.and_eq_true] at h
    rw [isSwitchAt]
    cases found : args[i + 1]? with
    | none => rfl
    | some arg =>
      have plain : isDashed arg = false := by simpa [found] using h.2
      simp [name?_of_not_isDashed plain]

/-- **Every position is there for one thing.** -/
theorem positions_perm (args : List String) :
    ((positions args).filter (isKeptAt args) ++ (positions args).filter (isSwitchAt args) ++
      (positions args).filter (isValueAt args)).Perm (positions args) := by
  refine List.perm_iff_count.mpr fun i => ?_
  have counted (p : Nat → Bool) :
      ((positions args).filter p).count i = if p i then (positions args).count i else 0 := by
    split
    · exact List.count_filter ‹_›
    · exact List.count_eq_zero.mpr fun h => absurd (List.mem_filter.mp h).2 ‹_›
  simp only [List.count_append, counted, isKeptAt]
  by_cases value : isValueAt args i = true
  · simp [value, isSwitchAt_eq_false_of_isValueAt value]
  · by_cases switch : isSwitchAt args i = true <;> simp [value, switch]

/-! ### Behind the first argument -/

theorem isSwitchAt_cons (arg : String) (rest : List String) (i : Nat) :
    isSwitchAt (arg :: rest) (i + 1) = isSwitchAt rest i := by
  rw [isSwitchAt, isSwitchAt, List.getElem?_cons_succ]

/-- An argument has no part in what follows its neighbour. -/
theorem isValueAt_cons_succ (arg : String) (rest : List String) (i : Nat) :
    isValueAt (arg :: rest) (i + 2) = isValueAt rest (i + 1) := by
  rw [isValueAt, isValueAt, isSwitchAt_cons, List.getElem?_cons_succ]

/-- Behind an argument that is no switch, or one that takes no value, values are where they would be without it. -/
theorem isValueAt_cons (h : name? arg = none ∨ ∀ next ∈ rest.head?, isDashed next = true) (i : Nat) :
    isValueAt (arg :: rest) (i + 1) = isValueAt rest i := by
  cases i with
  | zero =>
    rw [isValueAt, isValueAt, isSwitchAt]
    rcases h with h | h
    · simp [h]
    · cases rest with
      | nil => simp
      | cons next rest => simp [h next rfl]
  | succ i => exact isValueAt_cons_succ arg rest i

theorem isKeptAt_cons (h : name? arg = none ∨ ∀ next ∈ rest.head?, isDashed next = true) (i : Nat) :
    isKeptAt (arg :: rest) (i + 1) = isKeptAt rest i := by
  rw [isKeptAt, isKeptAt, isSwitchAt_cons, isValueAt_cons h]

/-- The settings behind an argument do not hang on it. -/
theorem settingAt?_cons (arg : String) (rest : List String) (i : Nat) :
    settingAt? (arg :: rest) (i + 1) = settingAt? rest i := by
  rw [settingAt?, settingAt?, isValueAt_cons_succ, List.getElem?_cons_succ, List.getElem?_cons_succ]

/-! ## What is kept and set -/

/-- The arguments that are kept, by their positions. -/
def keptAt (args : List String) : List String := ((positions args).filter (isKeptAt args)).filterMap (args[·]?)

/-- The settings of the switches, by their positions. -/
def settingsAt (args : List String) : List Extra := (positions args).filterMap (settingAt? args)

theorem keptAt_cons (h : name? arg = none ∨ ∀ next ∈ rest.head?, isDashed next = true) :
    keptAt (arg :: rest) = (if (name? arg).isSome then [] else [arg]) ++ keptAt rest := by
  have first : isKeptAt (arg :: rest) 0 = !(name? arg).isSome := by simp [isKeptAt, isSwitchAt, isValueAt]
  have later : ((positions rest).map (· + 1)).filter (isKeptAt (arg :: rest)) =
      ((positions rest).filter (isKeptAt rest)).map (· + 1) := by
    rw [List.filter_map]
    exact congrArg (List.map _) (List.filter_congr fun i _ => isKeptAt_cons h i)
  have found (is : List Nat) : (is.map (· + 1)).filterMap (fun i => (arg :: rest)[i]?) = is.filterMap (rest[·]?) := by
    rw [List.filterMap_map]
    rfl
  rw [keptAt, positions_cons, List.filter_cons, later, first, keptAt, ← found]
  cases (name? arg).isSome <;> simp

theorem settingsAt_cons (arg : String) (rest : List String) :
    settingsAt (arg :: rest) = (settingAt? (arg :: rest) 0).toList ++ settingsAt rest := by
  have later : (settingAt? (arg :: rest) ∘ (· + 1)) = settingAt? rest := funext fun i => settingAt?_cons arg rest i
  rw [settingsAt, positions_cons, List.filterMap_cons, List.filterMap_map, later, settingsAt]
  cases settingAt? (arg :: rest) 0 <;> rfl

/-! ### One argument -/

theorem split_cons_of_none (plain : name? arg = none) : split (arg :: rest) = (split rest).keep arg := by
  rw [split, plain]

theorem split_cons_of_some (switch : name? arg = some name) (bare : ∀ next ∈ rest.head?, isDashed next = true) :
    split (arg :: rest) = (split rest).setTo ⟨name, "true"⟩ := by
  rw [split, switch]
  cases rest with
  | nil => rfl
  | cons next after => exact if_pos (bare next rfl)

theorem split_cons_cons (switch : name? arg = some name) (plain : isDashed next = false) :
    split (arg :: next :: after) = (split after).setTo ⟨name, next⟩ := by
  rw [split, switch]
  exact if_neg (by simp [plain])

/-- **Parting reads the positions.** -/
theorem split_eq (args : List String) : split args = ⟨keptAt args, settingsAt args⟩ := by
  induction args using split.induct with
  | case1 => rfl
  | case2 arg rest plain ih =>
    simp [split_cons_of_none plain, ih, Split.keep, keptAt_cons (Or.inl plain), settingsAt_cons, settingAt?, plain]
  | case3 arg name switch =>
    rw [split_cons_of_some switch fun _ h => absurd h (Option.not_mem_none _)]
    simp [split, Split.setTo, keptAt, settingsAt, positions, isKeptAt, isSwitchAt, settingAt?, switch, isValueAt]
  | case4 arg name switch next after dashed ih =>
    have bare : ∀ n ∈ (next :: after).head?, isDashed n = true := by simpa using dashed
    have value : isValueAt (arg :: next :: after) 1 = false := by simp [isValueAt, dashed]
    rw [split_cons_of_some switch bare, ih]
    simp [Split.setTo, keptAt_cons (Or.inr bare), settingsAt_cons arg, settingAt?, switch, value]
  | case5 arg name switch next after plain ih =>
    have plain : isDashed next = false := by simpa using plain
    have free : name? next = none := name?_of_not_isDashed plain
    have value : isValueAt (arg :: next :: after) 1 = true := by simp [isValueAt, isSwitchAt, switch, plain]
    have later (i : Nat) : isKeptAt (arg :: next :: after) (i + 2) = isKeptAt after i := by
      rw [isKeptAt, isSwitchAt_cons, isValueAt_cons_succ, ← isKeptAt, isKeptAt_cons (Or.inl free)]
    have first : isKeptAt (arg :: next :: after) 0 = false := by simp [isKeptAt, isSwitchAt, switch]
    have second : isKeptAt (arg :: next :: after) 1 = false := by simp [isKeptAt, value]
    have kept : keptAt (arg :: next :: after) = keptAt after := by
      rw [keptAt, positions_cons, positions_cons, List.map_cons, List.filter_cons, List.filter_cons, first, second]
      simp [keptAt, List.filter_map, List.filterMap_map, Function.comp_def, later]
    rw [split_cons_cons switch plain, ih]
    simp [Split.setTo, free, kept, settingsAt_cons, settingAt?, switch, value]

/-! ## Going on at a dash -/

/-- **Parting goes on** at an argument that begins with a dash as if it began there. -/
theorem split_append (h : ∀ b ∈ bs.head?, isDashed b = true) :
    split (as ++ bs) = ⟨(split as).kept ++ (split bs).kept, (split as).extras ++ (split bs).extras⟩ := by
  induction as using split.induct with
  | case1 => rfl
  | case2 arg rest plain ih =>
    rw [List.cons_append, split_cons_of_none plain, split_cons_of_none plain, ih]
    rfl
  | case3 arg name switch =>
    rw [List.cons_append, List.nil_append, split_cons_of_some switch h,
      split_cons_of_some switch fun _ h => absurd h (Option.not_mem_none _)]
    rfl
  | case4 arg name switch next after dashed ih =>
    have bare (rest : List String) : ∀ n ∈ (next :: rest).head?, isDashed n = true := by simpa using dashed
    rw [List.cons_append] at ih ⊢
    rw [List.cons_append, split_cons_of_some switch (bare _), ih, split_cons_of_some switch (bare _)]
    rfl
  | case5 arg name switch next after plain ih =>
    have plain : isDashed next = false := by simpa using plain
    rw [List.cons_append, List.cons_append, split_cons_cons switch plain, split_cons_cons switch plain, ih]
    rfl

/-! ## The last switch of a name -/

/-- Settings after others take their place. -/
theorem get?_overrides_append (es fs : List Extra) (name : String) :
    (overrides (es ++ fs)).get? name = ((overrides fs).get? name).or ((overrides es).get? name) := by
  induction fs using List.reverseRecOn with
  | nil => rw [List.append_nil]; rfl
  | append_singleton fs e ih =>
    rw [← List.append_assoc, overrides_concat, overrides_concat]
    by_cases same : name = e.name
    · rw [same, Entries.get?_put_self, Entries.get?_put_self]
      rfl
    · rw [Entries.get?_put_of_ne _ _ same, Entries.get?_put_of_ne _ _ same, ih]

theorem get?_overrides_eq_none {es : List Extra} :
    (overrides es).get? name = none ↔ ∀ e ∈ es, e.name ≠ name := by
  induction es using List.reverseRecOn with
  | nil => exact iff_of_true rfl nofun
  | append_singleton es e ih =>
    rw [overrides_concat, List.forall_mem_append, List.forall_mem_singleton]
    by_cases same : name = e.name
    · simp [same]
    · rw [Entries.get?_put_of_ne _ _ same, ih]
      exact (and_iff_left (Ne.symm same)).symm

/-- Whether a setting is that of the switch at a position, and no switch behind it has the name. -/
def IsLastAt (args : List String) (e : Extra) (i : Nat) : Prop :=
  settingAt? args i = some e ∧ ∀ j, i < j → ∀ later, settingAt? args j = some later → later.name ≠ e.name

theorem mem_settingsAt {e : Extra} : e ∈ settingsAt args ↔ ∃ i, settingAt? args i = some e := by
  rw [settingsAt, List.mem_filterMap]
  refine exists_congr fun i => and_iff_right_of_imp fun h => List.mem_range.mpr ?_
  by_contra far
  rw [settingAt?, List.getElem?_eq_none (Nat.le_of_not_lt far)] at h
  cases h

theorem isLastAt_cons_succ {e : Extra} : IsLastAt (arg :: rest) e (i + 1) ↔ IsLastAt rest e i := by
  rw [IsLastAt, settingAt?_cons]
  refine and_congr_right fun _ => ⟨fun h j lt => ?_, fun h j lt => ?_⟩
  · rw [← settingAt?_cons arg]
    exact h (j + 1) (Nat.succ_lt_succ lt)
  · obtain ⟨j, rfl⟩ := Nat.exists_eq_add_one.mpr (Nat.zero_lt_of_lt lt)
    rw [settingAt?_cons]
    exact h j (Nat.lt_of_succ_lt_succ lt)

theorem isLastAt_cons_zero {e : Extra} :
    IsLastAt (arg :: rest) e 0 ↔ settingAt? (arg :: rest) 0 = some e ∧ ∀ f ∈ settingsAt rest, f.name ≠ e.name := by
  refine and_congr_right fun _ => ⟨fun h f found => ?_, fun h j lt later found => h later ?_⟩
  · obtain ⟨i, found⟩ := mem_settingsAt.mp found
    exact h (i + 1) i.succ_pos f (by rwa [settingAt?_cons])
  · obtain ⟨j, rfl⟩ := Nat.exists_eq_add_one.mpr lt
    exact mem_settingsAt.mpr ⟨j, by rwa [← settingAt?_cons arg]⟩

/-- **Of each name the last switch** sets the value. -/
theorem get?_settingsAt (args : List String) (name raw : String) :
    (overrides (settingsAt args)).get? name = some raw ↔ ∃ i, IsLastAt args ⟨name, raw⟩ i := by
  induction args with
  | nil => exact iff_of_false nofun nofun
  | cons arg rest ih =>
    have first : (overrides (settingAt? (arg :: rest) 0).toList).get? name = some raw ↔
        settingAt? (arg :: rest) 0 = some ⟨name, raw⟩ := by
      cases settingAt? (arg :: rest) 0 with
      | none => exact iff_of_false nofun nofun
      | some e =>
        change (Entries.put e.name e.raw []).get? name = some raw ↔ some e = some ⟨name, raw⟩
        by_cases same : name = e.name
        · rw [same, Entries.get?_put_self, Option.some_inj, Option.some_inj, Extra.mk.injEq]
          exact (and_iff_right rfl).symm
        · rw [Entries.get?_put_of_ne _ _ same]
          exact iff_of_false nofun fun h => same (congrArg Extra.name (Option.some.inj h)).symm
    have parts : (∃ i, IsLastAt (arg :: rest) ⟨name, raw⟩ i) ↔
        IsLastAt (arg :: rest) ⟨name, raw⟩ 0 ∨ ∃ i, IsLastAt rest ⟨name, raw⟩ i := by
      rw [← Nat.or_exists_add_one]
      simp only [isLastAt_cons_succ]
    rw [settingsAt_cons, get?_overrides_append, Option.or_eq_some_iff, ih, first, get?_overrides_eq_none, parts,
      isLastAt_cons_zero, or_comm, and_comm]

/-! ## Parting -/

/-- **Parting the arguments.** What follows at a dash is parted by itself, and its settings take the place of those
before it. Every position is that of a kept argument, a switch or the value of a switch; the kept ones stay in their
order, and each name has the value that its last switch sets. -/
theorem split_positions :
    (∀ as bs, (∀ b ∈ bs.head?, isDashed b = true) →
      (split (as ++ bs)).kept = (split as).kept ++ (split bs).kept ∧
        ∀ name, (overrides (split (as ++ bs)).extras).get? name =
          ((overrides (split bs).extras).get? name).or ((overrides (split as).extras).get? name)) ∧
      (∀ arg name, name? arg = some name ↔ arg = "--extra-" ++ name ∨ arg = "--extras-" ++ name) ∧
      ∀ args,
        ((positions args).filter (isKeptAt args) ++ (positions args).filter (isSwitchAt args) ++
          (positions args).filter (isValueAt args)).Perm (positions args) ∧
        (split args).kept = ((positions args).filter (isKeptAt args)).filterMap (args[·]?) ∧
        ∀ name raw, (overrides (split args).extras).get? name = some raw ↔ ∃ i, IsLastAt args ⟨name, raw⟩ i := by
  refine ⟨fun as bs h => ?_, fun _ _ => name?_eq_some_iff, fun args => ⟨positions_perm args, ?_, ?_⟩⟩
  · rw [split_append h]
    exact ⟨rfl, get?_overrides_append _ _⟩
  · rw [split_eq, keptAt]
  · rw [split_eq]
    exact get?_settingsAt args

/-- A switch without a value, and behind a dash the same switch with one. -/
theorem split_switch_twice :
    (split (["a.md", "--extra-indent"] ++ ["--extras-indent", "4", "b.xaml"])).kept = ["a.md", "b.xaml"] ∧
      (overrides (split (["a.md", "--extra-indent"] ++ ["--extras-indent", "4", "b.xaml"])).extras).get? "indent" =
        some "4" := by
  have dashed : ∀ b ∈ ["--extras-indent", "4", "b.xaml"].head?, isDashed b = true := by
    rintro b ⟨⟩
    decide
  obtain ⟨kept, settings⟩ := split_positions.1 ["a.md", "--extra-indent"] _ dashed
  exact ⟨kept.trans (by decide), (settings "indent").trans (by decide)⟩

end FlowDoc.CommandLine.Extra
