import FlowDoc.Proofs.Uri.Authority

/-!
# Addresses that are read again

Whatever is read, alone or relative to such an address, is an address whose text can be read again (`isSound_of_read`,
`Address.IsSound.exists_parse`), as long as nothing forbidden is in this text.
-/

namespace FlowDoc.Uri

/-! ## Schemes -/

/-- Whether a character may be in a scheme. -/
def isSchemeChar (c : Char) : Bool := c.isAlphanum || c == '+' || c == '-' || c == '.'

/-- A scheme that is read from its text as itself. -/
def IsScheme (scheme : String) : Prop := ∀ rest, readScheme? (scheme.toList ++ ':' :: rest) = some (scheme, rest)

theorem isSchemeChar_toLower {c : Char} (h : isSchemeChar c = true) : isSchemeChar c.toLower = true := by
  by_cases upper : c.isUpper = true
  · have letter : c.isAlpha = true := by simp [Char.isAlpha, upper]
    simp [isSchemeChar, Char.isAlphanum, letter]
  · rwa [Char.toLower_eq_of_not_isUpper upper]

theorem readScheme?_eq_some_iff {cs rest : List Char} {scheme : String} :
    readScheme? cs = some (scheme, rest) ↔
      cs.dropWhile isSchemeChar = ':' :: rest ∧ cs.head?.any Char.isAlpha = true ∧
        scheme = String.ofList ((cs.takeWhile isSchemeChar).map Char.toLower) := by
  have named : (fun c : Char => c.isAlphanum || c == '+' || c == '-' || c == '.') = isSchemeChar := rfl
  simp only [readScheme?, named]
  split
  · rename_i left
    split
    · rename_i letter
      simp [left, letter, eq_comm, and_comm]
    · rename_i letter
      simp [letter]
  · rename_i other
    exact iff_of_false (fun h => by cases h) fun h => other rest h.1

/-- A scheme that was read. -/
theorem isScheme_of_readScheme? {cs rest : List Char} {scheme : String} (h : readScheme? cs = some (scheme, rest)) :
    IsScheme scheme := by
  obtain ⟨-, letter, rfl⟩ := readScheme?_eq_some_iff.mp h
  intro after
  have plain : ∀ c ∈ (cs.takeWhile isSchemeChar).map Char.toLower, isSchemeChar c = true := by
    rw [List.forall_mem_map]
    exact fun c hc => isSchemeChar_toLower (List.mem_takeWhile_imp hc)
  rw [String.toList_ofList, readScheme?_eq_some_iff]
  have stop : ∀ c ∈ (':' :: after).head?, isSchemeChar c = false := by
    rintro c ⟨⟩
    rfl
  obtain ⟨taken, left⟩ := Xml.span_append plain stop
  refine ⟨left, ?_, ?_⟩
  · cases cs with
    | nil => cases letter
    | cons c cs =>
      have first : c.isAlpha = true := letter
      have inScheme : isSchemeChar c = true := by simp [isSchemeChar, Char.isAlphanum, first]
      rw [List.takeWhile_cons, if_pos inScheme]
      simpa using first
  · rw [taken, List.map_map]
    exact congrArg String.ofList (List.map_congr_left fun c _ => (Char.toLower_toLower_eq_toLower c).symm)

theorem isScheme_file : IsScheme "file" :=
  isScheme_of_readScheme? (show readScheme? "file:".toList = some ("file", []) by decide)

theorem eq_file_of_ofName {scheme : String} (h : SchemeKind.ofName scheme = .file) : scheme = "file" := by
  rw [SchemeKind.ofName] at h
  split at h
  · rename_i same
    exact beq_iff_eq.mp same
  · split at h <;> cases h

/-! ## Parts of addresses -/

/-- A slash or a backslash. -/
def isSlashLike (c : Char) : Bool := c == '/' || c == '\\'

/-- What a path relative to a base is read on from. -/
inductive PathFront (base : Address) : List Char → Prop
  | empty (file : base.kind = .file) : PathFront base []
  | root : PathFront base ['/']
  | drive {letter : Char} (h : letter.isAlpha = true) : PathFront base ['/', letter, ':']
  | kept (h : base.kind ≠ .file → dropSegment base.kind base.path ≠ []) :
    PathFront base (dropSegment base.kind base.path)

theorem exists_drive {cs : List Char} (h : isNormalizedDrive cs = true) :
    ∃ letter, letter.isAlpha = true ∧ cs = [letter, ':'] := by
  rw [isNormalizedDrive, Bool.and_eq_true, isDriveLetter.eq_def, beq_iff_eq] at h
  obtain ⟨letter, colon⟩ := h
  split at letter
  · rename_i a b
    rw [List.getLast?_cons_cons, List.getLast?_singleton, Option.some.injEq] at colon
    exact ⟨a, (Bool.and_eq_true _ _ ▸ letter).1, by rw [colon]⟩
  · cases letter

/-- No character of an allowed text is ignored. -/
theorem significant_of_allowed {cs : List Char} (h : ∀ c ∈ cs, isForbidden c = false) :
    significant (String.ofList cs) = cs := by
  have above {c : Char} (hc : c ∈ cs) : 0x20 < c.toNat := by
    have ignored : ∀ n < 0x80, (Char.ofNat n).toNat ≤ 0x20 → isForbidden (Char.ofNat n) = true := by decide
    refine Nat.lt_of_not_le fun low => ?_
    have forbidden := forall_ascii (P := fun c => c.toNat ≤ 0x20 → isForbidden c = true) ignored (by omega) low
    rw [h c hc] at forbidden
    cases forbidden
  have drop {l : List Char} (sub : ∀ c ∈ l, c ∈ cs) : l.dropWhile (fun c => decide (c.toNat ≤ 0x20)) = l := by
    cases l with
    | nil => rfl
    | cons c l => simp [above (sub c List.mem_cons_self)]
  rw [significant, String.toList_ofList, Text.trim, Text.trimLeft, Text.trimRight, drop fun c hc => hc,
    drop fun c hc => List.mem_reverse.mp hc, List.reverse_reverse, List.filter_eq_self]
  intro c hc
  have high := above hc
  simp only [Bool.not_eq_true', Bool.or_eq_false_iff, beq_eq_false_iff_ne]
  refine ⟨⟨?_, ?_⟩, ?_⟩
  all_goals
    rintro rfl
    exact absurd high (by decide)

namespace Address

variable {a : Address} {authority : Authority}

/-- Query and fragment with their marks. -/
def afterPath (a : Address) : List Char := markedPart '?' a.query ++ markedPart '#' a.fragment

theorem head?_afterPath {c : Char} (h : c ∈ a.afterPath.head?) : c ∈ ['?', '#'] := by
  cases hq : a.query <;> cases hf : a.fragment
  all_goals
    rw [afterPath, hq, hf] at h
    cases h
  all_goals decide

theorem toChars_of_authority (h : a.authority = some authority) :
    a.toChars = a.scheme.toList ++ ':' :: '/' :: '/' :: (authority.inner ++ (a.path ++ a.afterPath)) := by
  simp [toChars, h, Authority.text_eq, afterPath]

theorem toChars_of_none (h : a.authority = none) :
    a.toChars = a.scheme.toList ++
      ':' :: ((if a.path.take 2 = ['/', '/'] then ['/', '.'] else []) ++ (a.path ++ a.afterPath)) := by
  by_cases slashes : a.path.take 2 = ['/', '/'] <;> simp [toChars, h, slashes, afterPath]

/-- Without an authority, nothing after the scheme reads as one. -/
theorem take_two_ne (a : Address) :
    ((if a.path.take 2 = ['/', '/'] then ['/', '.'] else []) ++ (a.path ++ a.afterPath)).take 2 ≠ ['/', '/'] := by
  intro same
  split at same
  · cases same
  · rename_i slashes
    -- a path that is too short to begin with two slashes is followed by no slash
    have mark : a.afterPath.head? ≠ some '/' := fun head => absurd (head?_afterPath head) (by decide)
    rcases hp : a.path with _ | ⟨c, _ | ⟨d, path⟩⟩
    · rw [hp] at same
      exact mark (by cases ha : a.afterPath <;> simp_all)
    · rw [hp] at same
      exact mark (by cases ha : a.afterPath <;> simp_all)
    · rw [hp] at same slashes
      exact slashes same

end Address

theorem bind_ne_error {ε α β : Type} {m : Except ε α} {f : α → Except ε β} {e : ε} (first : m ≠ .error e)
    (rest : ∀ a, f a ≠ .error e) : m.bind f ≠ .error e := by
  cases m with
  | error e' => exact fun same => first (congrArg Except.error (Except.error.inj same))
  | ok a => exact rest a

theorem parseOpaqueHost_ne_relative {cs : List Char} : parseOpaqueHost cs ≠ .error .relativeWithoutBase := by
  rw [parseOpaqueHost, bracketed]
  repeat' split
  all_goals simp

/-! ## Sound addresses -/

variable [Domains]

/-- An address that is read again from its text. -/
structure Address.IsSound (a : Address) : Prop where
  scheme : IsScheme a.scheme
  authority : ∀ authority ∈ a.authority, authority.IsSound a.kind
  special : a.authority = none → a.kind = .other
  /-- The path does not run into the authority. -/
  path : a.authority ≠ none → a.path = [] ∨ a.path.head? = some '/'

/-- Another path, query and fragment. -/
theorem Address.IsSound.of_parts {a b : Address} (h : b.IsSound) (scheme : a.scheme = b.scheme)
    (authority : a.authority = b.authority)
    (path : b.authority ≠ none → a.path = b.path ∨ a.path.head? = some '/') : a.IsSound where
  scheme := scheme ▸ h.scheme
  authority := by
    rw [authority, Address.kind, scheme]
    exact h.authority
  special := by
    rw [authority, Address.kind, scheme]
    exact h.special
  path := by
    rw [authority]
    intro given
    rcases path given with same | root
    · rw [same]
      exact h.path given
    · exact Or.inr root

/-! ## Addresses that are read -/

theorem isSound_of_readAuthority {scheme : String} {cs : List Char} {a : Address} (name : IsScheme scheme)
    (notFile : SchemeKind.ofName scheme ≠ .file) (h : readAuthority scheme cs = .ok a) : a.IsSound := by
  obtain ⟨same, ⟨authority, given, sound⟩, path⟩ := readAuthority_eq_ok h notFile
  refine ⟨same ▸ name, fun b hb => ?_, fun absent => ?_, fun _ => path⟩
  · rw [given] at hb
    cases hb
    rwa [Address.kind, same]
  · rw [absent] at given
    cases given

theorem isSound_of_readFileAuthority {cs : List Char} {a : Address} (h : readFileAuthority cs = .ok a) : a.IsSound := by
  obtain ⟨same, ⟨authority, given, sound⟩, root⟩ := readFileAuthority_eq_ok h
  refine ⟨same ▸ isScheme_file, fun b hb => ?_, fun absent => ?_, fun _ => Or.inr root⟩
  · rw [given] at hb
    cases hb
    rw [Address.kind, same]
    exact sound
  · rw [absent] at given
    cases given

/-- An address without an authority. -/
theorem Address.IsSound.of_other {a : Address} (name : IsScheme a.scheme) (other : SchemeKind.ofName a.scheme = .other)
    (absent : a.authority = none) : a.IsSound where
  scheme := name
  authority := by
    rw [absent]
    rintro b ⟨⟩
  special := fun _ => other
  path := fun given => absurd absent given

theorem isSound_of_readOther {scheme : String} {cs : List Char} {a : Address} (name : IsScheme scheme)
    (other : SchemeKind.ofName scheme = .other) (h : readOther scheme cs = .ok a) : a.IsSound := by
  rw [readOther.eq_def] at h
  split at h
  · exact isSound_of_readAuthority name (by simp [other]) h
  · cases h
    exact .of_other name other rfl
  · cases h
    exact .of_other name other rfl

/-! ### Relative references -/

/-- What a text without a scheme is, relative to a base. -/
inductive Joined (base : Address) (cs : List Char) : Address → Prop
  | empty (h : cs = []) : Joined base cs { base with fragment := none }
  | query (h : cs.head? = some '?') : Joined base cs (base.bare.withTail cs)
  | fragment (h : cs.head? = some '#') : Joined base cs { base with fragment := (readTail base.kind cs).2 }
  | path {authority : Option Authority} {front part : List Char}
    (own : authority = base.authority ∨ base.kind = .file ∧ authority = some {}) (begins : PathFront base front)
    (rest : part = (spanPath cs).1 ∨ part = (spanPath cs).1.drop 1 ∧ cs.head?.any isSlashLike = true) :
    Joined base cs (({ scheme := base.scheme, authority, path := readPath base.kind front part } : Address).withTail
      (spanPath cs).2)
  | host {x y : Char} {more rest : List Char} {a : Address} (two : cs = x :: y :: more)
    (slashes : isSlashLike x = true ∧ isSlashLike y = true) (sub : rest ⊆ cs)
    (read : base.kind ≠ .file ∧ readAuthority base.scheme rest = .ok a ∨
      base.kind = .file ∧ readFileAuthority rest = .ok a) : Joined base cs a

/-- A path relative to a file. -/
theorem joined_of_readFilePath {base a : Address} {cs : List Char} (file : base.scheme = "file")
    (h : readFile.readFilePath (some base) { scheme := "file", authority := some {} } cs = .ok a) :
    Joined base cs a := by
  have kind : base.kind = .file := by rw [Address.kind, file]; rfl
  have made {authority : Option Authority} {front : List Char}
      (own : authority = base.authority ∨ authority = some {}) (begins : PathFront base front) :
      Joined base cs (({ scheme := "file", authority, path := readPath .file front (spanPath cs).1 } :
        Address).withTail (spanPath cs).2) := by
    have joined : Joined base cs (({ scheme := base.scheme, authority
                                     path := readPath base.kind front (spanPath cs).1 } :
        Address).withTail (spanPath cs).2) := .path (own.imp id fun root => ⟨kind, root⟩) begins (Or.inl rfl)
    rwa [file, kind] at joined
  rw [readFile.readFilePath.eq_def] at h
  dsimp only at h
  split at h
  · rename_i same empty
    cases same
    cases h
    exact .empty (List.head?_eq_none_iff.mp empty)
  · rename_i same mark
    cases same
    cases h
    exact .query mark
  · rename_i same mark
    cases same
    cases h
    rw [← kind]
    exact .fragment mark
  · rename_i same _
    cases same
    split at h
    · split at h
      · cases h
        exact made (Or.inr rfl) (.empty kind)
      · split at h
        · rename_i drive
          obtain ⟨letter, alpha, first⟩ := exists_drive drive
          rw [first] at h
          cases h
          exact made (Or.inr rfl) (.drive alpha)
        · cases h
          exact made (Or.inl rfl) (.empty kind)
    · split at h
      · cases h
        exact made (Or.inr rfl) .root
      · cases h
        rw [← kind]
        exact .path (Or.inl rfl) (.kept fun other => absurd kind other) (Or.inl rfl)
  · rename_i absent _
    cases absent
  · rename_i absent _
    cases absent

theorem joined_of_readFile {base a : Address} {cs : List Char} (file : base.scheme = "file")
    (h : readFile (some base) cs = .ok a) : Joined base cs a := by
  rw [readFile.eq_def] at h
  dsimp only at h
  split at h
  · split at h
    · rename_i slashes
      rw [Bool.and_eq_true] at slashes
      exact .host rfl slashes (List.drop_sublist 2 _).subset (Or.inr ⟨by rw [Address.kind, file]; rfl, h⟩)
    · exact joined_of_readFilePath file h
  · exact joined_of_readFilePath file h

theorem joined_of_readRelative {base a : Address} {cs : List Char} (notFile : base.kind ≠ .file)
    (h : readRelative base cs = .ok a) : Joined base cs a := by
  rw [readRelative.eq_def] at h
  dsimp only at h
  split at h
  · cases h
    exact .empty rfl
  · cases h
    exact .query rfl
  · cases h
    exact .fragment rfl
  · rename_i c rest _ _
    split at h
    · rename_i first
      split at h
      · rename_i second
        obtain ⟨d, more, rfl⟩ : ∃ d more, rest = d :: more := by
          cases rest with
          | nil => cases second
          | cons d more => exact ⟨d, more, rfl⟩
        refine .host rfl ⟨first, second⟩ ?_ (Or.inl ⟨notFile, h⟩)
        split
        · exact (List.drop_sublist 2 _).subset
        · exact (List.dropWhile_sublist _).subset
      · cases h
        exact .path (Or.inl rfl) .root (Or.inr ⟨rfl, first⟩)
    · cases h
      refine .path (Or.inl rfl) ?_ (Or.inl rfl)
      split
      · exact .root
      · rename_i nonempty
        exact .kept fun _ empty => nonempty (by rw [empty]; rfl)

theorem PathFront.head? {base : Address} {front : List Char} (h : PathFront base front) (sound : base.IsSound)
    (given : base.authority ≠ none) (notFile : base.kind ≠ .file) : front.head? = some '/' := by
  cases h with
  | empty file => exact absurd file notFile
  | root => rfl
  | drive => rfl
  | kept nonempty =>
    rcases sound.path given with empty | root
    · have kept := nonempty notFile
      rw [empty] at kept
      exact absurd (by simp [dropSegment, uptoLastSlash]) kept
    · exact head?_dropSegment root

/-- An address that is rooted in a host or the machine itself. -/
theorem Address.IsSound.of_file {a : Address} (scheme : a.scheme = "file") (authority : a.authority = some {})
    (path : a.path.head? = some '/') : a.IsSound where
  scheme := scheme ▸ isScheme_file
  authority := by
    rw [authority, Address.kind, scheme]
    rintro b ⟨⟩
    exact .of_host fun named => absurd rfl named
  special := by
    rw [authority]
    rintro ⟨⟩
  path := fun _ => Or.inr path

/-- What is relative to a sound address is sound. -/
theorem Joined.isSound {base a : Address} {cs : List Char} (h : Joined base cs a) (sound : base.IsSound) :
    a.IsSound := by
  cases h with
  | empty => exact sound.of_parts rfl rfl fun _ => Or.inl rfl
  | query => exact sound.of_parts rfl rfl fun _ => Or.inl rfl
  | fragment => exact sound.of_parts rfl rfl fun _ => Or.inl rfl
  | path own begins rest =>
    rcases own with rfl | ⟨file, rfl⟩
    · exact sound.of_parts rfl rfl fun given =>
        Or.inr (head?_readPath (begins.head? sound given))
    · exact .of_file (eq_file_of_ofName file) rfl (head?_readPath fun other => absurd file other)
  | host _ _ _ read =>
    rcases read with ⟨notFile, read⟩ | ⟨-, read⟩
    · exact isSound_of_readAuthority sound.scheme notFile read
    · exact isSound_of_readFileAuthority read

/-! ### Any text -/

theorem isSound_of_readFile_none {cs : List Char} {a : Address} (h : readFile none cs = .ok a) : a.IsSound := by
  have path {root : Address} (scheme : root.scheme = "file") (authority : root.authority = some {})
      (h : readFile.readFilePath none root cs = .ok a) : a.IsSound := by
    rw [readFile.readFilePath.eq_def] at h
    dsimp only at h
    split at h
    case h_5 =>
      cases h
      exact .of_file scheme authority (head?_readPath fun other => absurd rfl other)
    case h_6 =>
      cases h
      exact .of_file scheme authority rfl
    all_goals
      rename_i base _
      cases base
  rw [readFile.eq_def] at h
  dsimp only at h
  split at h
  · split at h
    · exact isSound_of_readFileAuthority h
    · exact path rfl rfl h
  · exact path rfl rfl h

/-- Whatever is read is sound. -/
theorem isSound_of_read {base? : Option Address} {s : String} {a : Address} (sound : ∀ b ∈ base?, b.IsSound)
    (h : read base? s = .ok a) : a.IsSound := by
  rw [read.eq_def] at h
  dsimp only at h
  split at h
  · rename_i scheme rest name
    have name := isScheme_of_readScheme? name
    split at h
    · -- a base counts only if it is the address of a file too
      cases own : base?.filter (·.scheme == "file") with
      | none =>
        rw [own] at h
        exact isSound_of_readFile_none h
      | some base =>
        rw [own] at h
        obtain ⟨given, file⟩ := Option.filter_eq_some_iff.mp own
        exact (joined_of_readFile (beq_iff_eq.mp file) h).isSound (sound base given)
    · rename_i special
      have notFile : SchemeKind.ofName scheme ≠ .file := by rw [special]; decide
      split at h
      · rename_i base
        split at h
        · rename_i same
          simp only [Bool.and_eq_true, beq_iff_eq] at same
          exact (joined_of_readRelative (by rwa [Address.kind, same.2]) h).isSound (sound base rfl)
        · exact isSound_of_readAuthority name notFile h
      · exact isSound_of_readAuthority name notFile h
    · rename_i other
      exact isSound_of_readOther name other h
  · split at h
    · cases h
    · rename_i base
      have sound := sound base rfl
      split at h
      · cases h
        exact sound.of_parts rfl rfl fun _ => Or.inl rfl
      · split at h
        · cases h
        · split at h
          · rename_i file
            exact (joined_of_readFile (eq_file_of_ofName file) h).isSound sound
          · rename_i notFile
            exact (joined_of_readRelative notFile h).isSound sound

/-! ### Refused texts -/

section

variable {scheme : String} {cs : List Char}

theorem parseDomain_ne_relative : parseDomain cs ≠ .error .relativeWithoutBase := by
  rw [parseDomain, bracketed]
  repeat' split
  all_goals simp

theorem readHost_ne_relative : readHost scheme cs ≠ .error .relativeWithoutBase := by
  rw [readHost_eq]
  split
  · simp
  · refine bind_ne_error ?_ fun host => bind_ne_error ?_ fun read => by simp
    · split
      · exact parseDomain_ne_relative
      · exact parseOpaqueHost_ne_relative
    · cases (spanHost false cs).2 with
      | nil => simp [readPortPart]
      | cons c digits =>
        rw [readPortPart, readPort]
        split <;> simp

theorem readAuthority_ne_relative : readAuthority scheme cs ≠ .error .relativeWithoutBase := by
  rw [readAuthority_eq rfl rfl (Prod.eta _).symm]
  split
  · simp
  · refine bind_ne_error readHost_ne_relative fun read => ?_
    split <;> simp

theorem readFileAuthority_ne_relative : readFileAuthority cs ≠ .error .relativeWithoutBase := by
  rw [readFileAuthority_eq rfl rfl]
  refine bind_ne_error ?_ fun read => by simp
  split
  · simp
  · refine bind_ne_error ?_ fun host => by simp
    rw [readFileHost]
    split
    · simp
    · intro same
      cases read : parseDomain (cs.takeWhile fun c => !SchemeKind.file.endsAuthority c) with
      | error fault =>
        rw [read] at same
        exact parseDomain_ne_relative (read.trans (congrArg Except.error (Except.error.inj same)))
      | ok host =>
        rw [read] at same
        cases same

theorem readOther_ne_relative : readOther scheme cs ≠ .error .relativeWithoutBase := by
  rw [readOther.eq_def]
  split
  · exact readAuthority_ne_relative
  · simp
  · simp

theorem readFile_none_ne_relative : readFile none cs ≠ .error .relativeWithoutBase := by
  have path (root : Address) (cs : List Char) :
      readFile.readFilePath none root cs ≠ .error .relativeWithoutBase := by
    rw [readFile.readFilePath.eq_def]
    cases cs.head? <;> simp
  rw [readFile.eq_def]
  dsimp only
  split
  · split
    · exact readFileAuthority_ne_relative
    · exact path _ _
  · exact path _ _

/-- Only a text without a scheme is refused for want of a base. -/
theorem parse_eq_relative_iff {s : String} :
    parse s = .error .relativeWithoutBase ↔ readScheme? (significant s) = none := by
  rw [parse, read.eq_def]
  dsimp only
  cases readScheme? (significant s) with
  | none => simp
  | some name =>
    refine iff_of_false ?_ (by simp)
    dsimp only
    cases SchemeKind.ofName name.1 with
    | file => exact readFile_none_ne_relative
    | special => exact readAuthority_ne_relative
    | other => exact readOther_ne_relative

end

/-! ## Addresses that are read again -/

namespace Address

variable {a : Address} {authority : Authority}

theorem exists_readOther (scheme : String) {rest : List Char} (h : rest.take 2 ≠ ['/', '/']) :
    ∃ b, readOther scheme rest = .ok b := by
  rw [readOther.eq_def]
  split
  · exact absurd rfl h
  · exact ⟨_, rfl⟩
  · exact ⟨_, rfl⟩

/-- The authority ends where the path, the query or the fragment begins. -/
theorem IsSound.mem_ends (h : a.IsSound) (given : a.authority ≠ none) :
    ∀ c ∈ (a.path ++ a.afterPath).head?, c ∈ ['/', '?', '#'] := by
  intro c hc
  rcases h.path given with empty | root
  · rw [empty, List.nil_append] at hc
    exact List.mem_cons_of_mem '/' (head?_afterPath hc)
  · rw [head?_append root] at hc
    cases hc
    decide

/-- No slash begins the authority of a special address. -/
theorem takeWhile_slashes (sound : authority.IsSound .special) (rest : List Char) :
    ('/' :: '/' :: (authority.inner ++ rest)).takeWhile (fun c => c == '/' || c == '\\') = ['/', '/'] := by
  obtain ⟨c, cs, inner⟩ := List.exists_cons_of_ne_nil (sound.inner_ne_nil rfl)
  have first := sound.not_mem_inner (c := c) (by rw [inner]; exact List.mem_cons_self)
  simp only [List.mem_cons, List.not_mem_nil, or_false, not_or] at first
  simp [inner, first]

/-- A clean text of a sound address is read. -/
theorem IsSound.exists_parse (h : a.IsSound) (clean : IsClean a.toChars) : ∃ b, parse a.toString = .ok b := by
  have name {rest : List Char} (text : a.toChars = a.scheme.toList ++ ':' :: rest) :
      readScheme? (significant a.toString) = some (a.scheme, rest) := by
    rw [Address.toString, significant_of_allowed clean.allowed, text]
    exact h.scheme rest
  rw [parse, Uri.read.eq_def]
  dsimp only
  cases ha : a.authority with
  | none =>
    rw [name (toChars_of_none ha)]
    have other : SchemeKind.ofName a.scheme = .other := h.special ha
    simp only [other]
    exact exists_readOther a.scheme a.take_two_ne
  | some authority =>
    have sound := h.authority authority ha
    have ends := h.mem_ends (by simp [ha])
    rw [name (toChars_of_authority ha)]
    cases hk : SchemeKind.ofName a.scheme with
    | file =>
      rw [Address.kind, hk] at sound
      simp only [hk]
      exact sound.exists_readFileAuthority ends
    | special =>
      have slashes := takeWhile_slashes (by rwa [Address.kind, hk] at sound) (a.path ++ a.afterPath)
      simp only [hk, slashes]
      exact sound.exists_readAuthority (by simp [hk]) ends
    | other =>
      simp only [hk, readOther]
      exact sound.exists_readAuthority (by simp [hk]) ends

end Address

end FlowDoc.Uri
