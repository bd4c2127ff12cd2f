import FlowDoc.Proofs.Uri.Address

/-!
# Clean addresses

What a reference names relative to a base with a clean text is clean, unless the reference has a host and an escape or a
character beyond ASCII (`Joined.isClean`): a host is decoded and mapped to ASCII, and either can give what is forbidden.
-/

namespace FlowDoc.Uri

variable {base a : Address} {cs ds : List Char} {scheme : String}

/-! ## Addresses of clean parts -/

/-- The parts of an address up to its path. -/
structure Address.HasCleanParts (a : Address) : Prop where
  scheme : IsClean (a.scheme.toList ++ [':'])
  authority : ∀ authority ∈ a.authority, IsClean authority.text
  path : IsClean a.path

theorem Address.HasCleanParts.toChars (h : a.HasCleanParts) (tail : IsClean a.afterPath) : IsClean a.toChars := by
  cases ha : a.authority with
  | none =>
    have text := toChars_of_none ha
    rw [← List.singleton_append, ← List.append_assoc] at text
    rw [text]
    refine h.scheme.append (IsClean.append ?_ (h.path.append tail))
    split <;> decide
  | some authority =>
    have text : a.toChars = a.scheme.toList ++ [':'] ++ (authority.text ++ (a.path ++ a.afterPath)) := by
      rw [toChars_of_authority ha, Authority.text_eq]
      simp
    rw [text]
    exact h.scheme.append ((h.authority authority ha).append (h.path.append tail))

theorem Address.HasCleanParts.of_bare [Domains] (sound : a.IsSound) (notOpaque : a.isOpaque = false)
    (clean : IsClean a.bare.toChars) : a.HasCleanParts := by
  have slash {cs : List Char} (root : cs.head? = some '/') : ∀ c ∈ cs.head?, isHexDigit c = false ∧ c ≠ '%' := by
    rw [root]
    rintro c ⟨⟩
    decide
  cases ha : a.authority with
  | none =>
    have root : a.path.head? = some '/' := by simpa [Address.isOpaque, ha] using notOpaque
    have text := toChars_of_none (a := a.bare) ha
    rw [show a.bare.afterPath = [] from rfl, List.append_nil, ← List.singleton_append, ← List.append_assoc] at text
    rw [text] at clean
    obtain ⟨scheme, rest⟩ := clean.split (slash (by split; rfl; exact root))
    exact ⟨scheme, by rw [ha]; rintro b ⟨⟩, (rest.split (slash root)).2⟩
  | some authority =>
    have text : a.bare.toChars = a.scheme.toList ++ [':'] ++ (authority.text ++ a.path) := by
      rw [toChars_of_authority (a := a.bare) ha, show a.bare.afterPath = [] from rfl, Authority.text_eq]
      simp [Address.bare]
    rw [text, ← List.append_assoc] at clean
    obtain ⟨front, path⟩ := clean.split fun c hc => by
      rcases sound.path (by simp [ha]) with empty | root
      · rw [empty] at hc
        cases hc
      · exact slash root c hc
    obtain ⟨scheme, own⟩ := front.split (slash (by rw [Authority.text_eq]; rfl))
    exact ⟨scheme, by rw [ha]; rintro b ⟨⟩; exact own, path⟩

/-! ### Parts of a reference -/

theorem isClean_span {p : Char → Bool} (mark : ∀ c, p c = false → isHexDigit c = false ∧ c ≠ '%') (h : IsClean cs) :
    IsClean (cs.takeWhile p) ∧ IsClean (cs.dropWhile p) := by
  refine IsClean.split (List.takeWhile_append_dropWhile ▸ h) fun c hc => mark c ?_
  have stop := List.head?_dropWhile_not p cs
  rw [hc] at stop
  simpa using stop

theorem isClean_spanPath (h : IsClean cs) : IsClean (spanPath cs).1 ∧ IsClean (spanPath cs).2 := by
  rw [spanPath, List.span_eq_takeWhile_dropWhile]
  refine isClean_span (fun c hc => ?_) h
  rw [Bool.and_eq_false_iff, bne_eq_false_iff_eq, bne_eq_false_iff_eq] at hc
  rcases hc with rfl | rfl <;> decide

theorem isClean_readTail (kind : SchemeKind) (h : IsClean cs) :
    (∀ q ∈ (readTail kind cs).1, IsClean q) ∧ ∀ f ∈ (readTail kind cs).2, IsClean f := by
  have fragment {f : List Char} (h : IsClean ('#' :: f)) : IsClean (encode inFragment f) :=
    (h.of_cons (by decide) (by decide)).encode (by decide) fun c =>
      forall_isHexDigit (P := fun c => inFragment c = false) (by decide)
  rw [readTail.eq_def]
  dsimp only
  split
  · have rest := h.of_cons (by decide) (by decide)
    rw [List.span_eq_takeWhile_dropWhile]
    obtain ⟨query, more⟩ := isClean_span (p := (· != '#')) (fun c hc => by
      rw [bne_eq_false_iff_eq] at hc
      subst hc
      decide) rest
    refine ⟨?_, ?_⟩
    · rintro q ⟨⟩
      split
      · exact query.encode (by decide) fun c => forall_isHexDigit (P := fun c => inSpecialQuery c = false) (by decide)
      · exact query.encode (by decide) fun c => forall_isHexDigit (P := fun c => inQuery c = false) (by decide)
    · dsimp only
      split
      · rename_i cut
        rintro f ⟨⟩
        exact fragment (cut ▸ more)
      · rintro f ⟨⟩
  · refine ⟨(fun q hq => by cases hq), ?_⟩
    dsimp only
    split
    · rintro f ⟨⟩
      exact fragment h
    · rintro f ⟨⟩

theorem isClean_afterPath (a : Address) (h : IsClean cs) : IsClean (a.withTail cs).afterPath := by
  obtain ⟨query, fragment⟩ := isClean_readTail a.kind h
  have marked {mark : Char} (allowed : isForbidden mark = false ∧ mark ≠ '%') {part : Option (List Char)}
      (clean : ∀ p ∈ part, IsClean p) : IsClean (markedPart mark part) := by
    cases part with
    | none => exact .nil
    | some p => exact (clean p rfl).cons allowed.1 allowed.2
  exact (marked (by decide) query).append (marked (by decide) fragment)

theorem PathFront.isClean {front : List Char} (h : PathFront base front) (path : IsClean base.path) :
    IsClean front := by
  cases h with
  | empty => exact .nil
  | root => decide
  | drive letter => exact (IsClean.drive letter).cons (by decide) (by decide)
  | kept => exact path.dropSegment

/-! ### Authorities without escapes -/

/-- A text in ASCII, without escapes and without anything forbidden, stays so however it is cut. -/
def IsPlain (cs : List Char) : Prop := ∀ c ∈ cs, isForbidden c = false ∧ c ≠ '%' ∧ c.toNat < 0x80

theorem IsPlain.of_subset (h : IsPlain cs) (sub : ds ⊆ cs) : IsPlain ds := fun c hc => h c (sub hc)

theorem IsPlain.isClean (h : IsPlain cs) : IsClean cs := by
  induction cs with
  | nil => exact .nil
  | cons c cs ih =>
    obtain ⟨⟨allowed, sign, -⟩, rest⟩ := List.forall_mem_cons.mp h
    exact (ih rest).cons allowed sign

theorem isPlain_of_isHexDigit {c : Char} (h : isHexDigit c = true) :
    isForbidden c = false ∧ c ≠ '%' ∧ c.toNat < 0x80 :=
  forall_isHexDigit (P := fun c => isForbidden c = false ∧ c ≠ '%' ∧ c.toNat < 0x80) (by decide) h

theorem isPlain_of_isAlphanum {c : Char} (h : c.isAlphanum = true) :
    isForbidden c = false ∧ c ≠ '%' ∧ c.toNat < 0x80 := by
  rw [Char.isAlphanum, Bool.or_eq_true] at h
  rcases h with letter | digit
  · exact forall_isAlpha (P := fun c => isForbidden c = false ∧ c ≠ '%' ∧ c.toNat < 0x80) (by decide) letter
  · exact isPlain_of_isHexDigit (by simp [isHexDigit, hexValue?, digit])

theorem isPlain_bracketed {host : String} (h : bracketed cs = .ok host) : IsPlain host.toList := by
  obtain ⟨inner, text, plain, -⟩ := exists_of_bracketed h
  rw [text]
  intro c hc
  simp only [List.cons_append, List.mem_cons, List.mem_append, List.not_mem_nil, or_false] at hc
  rcases hc with rfl | hc | rfl
  · decide
  · rcases plain c hc with digit | rfl
    · exact isPlain_of_isHexDigit digit
    · decide
  · decide

/-- Nothing is decoded in a plain domain, and nothing but letters, digits and hyphens is new in what it is mapped to. -/
theorem isPlain_parseDomain [Domains] (plain : IsPlain cs) {host : String} (h : parseDomain cs = .ok host) :
    IsPlain host.toList := by
  rcases parseDomain_eq_ok h with h | ⟨text, domain, decoded, mapped, -, ⟨name, -⟩ | ⟨n, -, rfl⟩⟩
  · exact isPlain_bracketed h
  · rw [decode?_of_plain fun mem => (plain '%' mem).2.1 rfl] at decoded
    cases decoded
    rw [String.toList_ofList] at mapped
    rw [name]
    intro c hc
    rcases Domains.plain (fun c hc => (plain c hc).2.2) mapped c hc with mem | alphanum | rfl
    · exact plain c mem
    · exact isPlain_of_isAlphanum alphanum
    · decide
  · intro c hc
    rcases mem_ipv4Text hc with ⟨digit, -⟩ | rfl
    · exact isPlain_of_isHexDigit digit
    · decide

theorem isClean_parseOpaqueHost (plain : IsPlain cs) {host : String} (h : parseOpaqueHost cs = .ok host) :
    IsClean host.toList := by
  rw [parseOpaqueHost] at h
  split at h
  · exact (isPlain_bracketed h).isClean
  · split at h
    · cases h
    · cases h
      rw [String.toList_ofList]
      exact plain.isClean.encode (by decide) fun c => forall_isHexDigit (P := fun c => inControls c = false) (by decide)

theorem spanHost_append_eq (inBrackets : Bool) (cs : List Char) :
    (spanHost inBrackets cs).1 ++ (spanHost inBrackets cs).2 = cs := by
  induction cs generalizing inBrackets with
  | nil => rfl
  | cons c cs ih =>
    rw [spanHost]
    split
    · rfl
    · simp [ih]

theorem readPort_subset {port : Option Nat} {more : List Char} (h : readPort scheme cs = .ok (port, more)) :
    more ⊆ cs := by
  rw [readPort] at h
  split at h
  · cases h
  · cases h
    exact (List.dropWhile_sublist _).subset

theorem isClean_portText (port : Option Nat) : IsClean (portText port) := by
  cases port with
  | none => exact .nil
  | some p =>
    refine IsClean.cons (by decide) (by decide) (IsPlain.isClean fun c hc => ?_)
    exact isPlain_of_isHexDigit (isHexDigit_of_mem_toDigits (by decide) (by decide) hc)

theorem isClean_readHost [Domains] (plain : IsPlain cs) {host : String} {port : Option Nat} {more : List Char}
    (h : readHost scheme cs = .ok (host, port, more)) : IsClean (host.toList ++ portText port) ∧ more ⊆ cs := by
  obtain ⟨-, parsed, read⟩ := readHost_eq_ok_iff.mp h
  have whole := spanHost_append_eq false cs
  have text : (spanHost false cs).1 ⊆ cs := fun c hc => whole ▸ List.mem_append_left _ hc
  have rest : (spanHost false cs).2 ⊆ cs := fun c hc => whole ▸ List.mem_append_right _ hc
  refine ⟨IsClean.append ?_ (isClean_portText port), ?_⟩
  · split at parsed
    · exact (isPlain_parseDomain (plain.of_subset text) parsed).isClean
    · exact isClean_parseOpaqueHost (plain.of_subset text) parsed
  · cases hr : (spanHost false cs).2 with
    | nil =>
      rw [hr] at read
      cases read
      exact List.nil_subset _
    | cons c digits =>
      rw [hr] at read rest
      exact List.Subset.trans (readPort_subset read) (List.Subset.trans (List.subset_cons_self c digits) rest)

theorem isClean_encodeCredentials (plain : IsPlain cs) : IsClean (encodeCredentials cs) := by
  have part {ds : List Char} (sub : ds ⊆ cs) : IsClean (encode inUserinfo ds) :=
    (plain.of_subset sub).isClean.encode (by decide) fun c =>
      forall_isHexDigit (P := fun c => inUserinfo c = false) (by decide)
  have joined {user password : List Char} (first : IsClean user) (second : IsClean password) :
      IsClean (if user.isEmpty && password.isEmpty then [] else user ++ password ++ ['@']) := by
    split
    · exact .nil
    · exact (first.append second).append (by decide)
  unfold encodeCredentials
  rw [List.span_eq_takeWhile_dropWhile]
  dsimp only
  have user : IsClean (encode inUserinfo (cs.takeWhile (· != ':'))) := part (List.takeWhile_sublist _).subset
  split
  · exact joined user .nil
  · refine joined user ((part ?_).cons (by decide) (by decide))
    exact ((List.drop_sublist 1 _).trans (List.dropWhile_sublist _)).subset

theorem isClean_drop_slash {kind : SchemeKind} {c : Char} (h : IsClean (c :: cs)) (slash : kind.isSlash c = true) :
    IsClean cs := by
  refine h.of_cons ?_ ?_
  all_goals
    rw [SchemeKind.isSlash, Bool.or_eq_true, Bool.and_eq_true, beq_iff_eq, beq_iff_eq] at slash
    rcases slash with rfl | ⟨-, rfl⟩ <;> decide

theorem isClean_pathAfterAuthority (kind : SchemeKind) (h : IsClean cs) : IsClean (pathAfterAuthority kind cs) := by
  rw [pathAfterAuthority.eq_def]
  split
  · split
    · decide
    · exact .nil
  · refine IsClean.readPath (by decide) ?_
    split
    · exact isClean_drop_slash h ‹_›
    · exact h

theorem isClean_filePath (h : IsClean cs) : IsClean (filePath cs) := by
  have front := (isClean_spanPath h).1
  refine IsClean.readPath (by decide) ?_
  split
  · rename_i slash
    cases hp : (spanPath cs).1 with
    | nil => exact .nil
    | cons c path =>
      rw [hp] at front slash
      exact isClean_drop_slash front slash
  · exact front

theorem isClean_readAuthority [Domains] (plain : IsPlain cs) (h : readAuthority scheme cs = .ok a) :
    (∀ authority ∈ a.authority, IsClean authority.text) ∧ IsClean a.path ∧ IsClean a.afterPath := by
  obtain ⟨user, hostPort, host, port, rest, more, userSub, hostSub, restSub, read, -, rfl⟩ := exists_of_readAuthority h
  obtain ⟨named, moreSub⟩ := isClean_readHost (plain.of_subset hostSub) read
  have after : IsPlain (more ++ rest) := List.forall_mem_append.mpr
    ⟨plain.of_subset (List.Subset.trans moreSub hostSub), plain.of_subset restSub⟩
  obtain ⟨path, tail⟩ := isClean_spanPath after.isClean
  refine ⟨?_, isClean_pathAfterAuthority _ path, isClean_afterPath _ tail⟩
  rintro authority ⟨⟩
  rw [Authority.text_eq, Authority.inner, List.append_assoc]
  have inner := (isClean_encodeCredentials (plain.of_subset userSub)).append named
  exact (inner.cons (by decide) (by decide)).cons (by decide) (by decide)

theorem isClean_readFileAuthority [Domains] (plain : IsPlain cs) (h : readFileAuthority cs = .ok a) :
    (∀ authority ∈ a.authority, IsClean authority.text) ∧ IsClean a.path ∧ IsClean a.afterPath := by
  obtain ⟨host, rest, restSub, named, rfl⟩ := exists_of_readFileAuthority h
  have left := (plain.of_subset restSub).isClean
  refine ⟨?_, isClean_filePath left, isClean_afterPath _ (isClean_spanPath left).2⟩
  rintro authority ⟨⟩
  have name : IsClean host.toList := by
    by_cases nameless : host = ""
    · rw [nameless]
      exact .nil
    · obtain ⟨text, sub, parsed⟩ := named nameless
      exact (isPlain_parseDomain (plain.of_subset sub) parsed).isClean
  rw [Authority.text_eq]
  have inner : IsClean ({ host } : Authority).inner := (IsClean.append .nil name).append .nil
  exact (inner.cons (by decide) (by decide)).cons (by decide) (by decide)

/-! ### References -/

/-- What a reference names relative to a clean base is clean, unless it has a host and is not plain. -/
theorem Joined.isClean [Domains] (h : Joined base cs a) (parts : base.HasCleanParts) (clean : IsClean cs)
    (nonempty : cs ≠ []) (notFragment : cs.head? ≠ some '#')
    (harmless : (∀ more, cs ≠ '/' :: '/' :: more) ∨ ∀ c ∈ cs, c ≠ '%' ∧ c.toNat < 0x80) : IsClean a.toChars := by
  have slash {c : Char} (like : isSlashLike c = true) (allowed : isForbidden c = false) : c = '/' := by
    rw [isSlashLike, Bool.or_eq_true, beq_iff_eq, beq_iff_eq] at like
    rcases like with rfl | rfl
    · rfl
    · exact absurd allowed (by decide)
  cases h with
  | empty blank => exact absurd blank nonempty
  | fragment mark => exact absurd mark notFragment
  | query => exact Address.HasCleanParts.toChars ⟨parts.scheme, parts.authority, parts.path⟩ (isClean_afterPath _ clean)
  | path own begins rest =>
    refine Address.HasCleanParts.toChars ⟨parts.scheme, ?_, ?_⟩ (isClean_afterPath _ (isClean_spanPath clean).2)
    · rcases own with rfl | ⟨-, rfl⟩
      · exact parts.authority
      · rintro b ⟨⟩
        decide
    · refine (begins.isClean parts.path).readPath ?_
      rcases rest with rfl | ⟨rfl, first⟩
      · exact (isClean_spanPath clean).1
      · cases cs with
        | nil => cases first
        | cons c cs =>
          obtain rfl := slash first (clean.allowed c List.mem_cons_self)
          have front := (isClean_spanPath clean).1
          rw [spanPath, List.span_eq_takeWhile_dropWhile, List.takeWhile_cons, if_pos (by decide)] at front ⊢
          exact front.of_cons (by decide) (by decide)
  | host two slashes sub read =>
    rcases harmless with noHost | plain
    · subst two
      have first := slash slashes.1 (clean.allowed _ (by simp))
      have second := slash slashes.2 (clean.allowed _ (by simp))
      exact absurd (by rw [first, second]) (noHost _)
    · have plain : IsPlain cs := fun c hc => ⟨clean.allowed c hc, plain c hc⟩
      rcases read with ⟨notFile, read⟩ | ⟨-, read⟩
      · obtain ⟨authority, path, tail⟩ := isClean_readAuthority (plain.of_subset sub) read
        have scheme := (readAuthority_eq_ok read notFile).1
        exact Address.HasCleanParts.toChars ⟨scheme ▸ parts.scheme, authority, path⟩ tail
      · obtain ⟨authority, path, tail⟩ := isClean_readFileAuthority (plain.of_subset sub) read
        have scheme := (readFileAuthority_eq_ok read).1
        exact Address.HasCleanParts.toChars ⟨scheme ▸ by decide, authority, path⟩ tail

end FlowDoc.Uri
