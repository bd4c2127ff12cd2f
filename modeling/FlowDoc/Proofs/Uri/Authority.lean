import FlowDoc.Proofs.Uri.Host
import FlowDoc.Proofs.Uri.Path
import FlowDoc.Proofs.Xml.Name

/-!
# Authorities in addresses

An authority that was read can be read again from its text (`Authority.IsSound`, `exists_readAuthority`): the last `@`
ends its credentials, its host and its port are told apart, and no character of it ends it too early.
-/

namespace FlowDoc.Uri

/-- A port with its colon. -/
def portText : Option Nat → List Char
  | some p => ':' :: Nat.toDigits 10 p
  | none => []

/-- The text of an authority after its slashes. -/
def Authority.inner (a : Authority) : List Char := a.credentials ++ a.host.toList ++ portText a.port

theorem Authority.text_eq (a : Authority) : a.text = '/' :: '/' :: a.inner := by
  cases h : a.port <;> simp [Authority.text, Authority.inner, portText, h]

variable {kind : SchemeKind} {scheme : String} {cs : List Char}

/-! ## Parts of authorities -/

theorem not_mem_portText {port : Option Nat} {c : Char} (h : c ∈ portText port) : c ∉ authorityEnds := by
  cases port with
  | none => cases h
  | some p =>
    rcases List.mem_cons.mp h with rfl | digit
    · decide
    · exact (not_mem_authorityEnds_of_isHexDigit (isHexDigit_of_mem_toDigits (by decide) (by decide) digit)).1

/-- A port is read from its digits. -/
theorem exists_readPort (scheme : String) {p : Nat} (h : p ≤ 65535) :
    ∃ port, readPort scheme (Nat.toDigits 10 p) = .ok (port, []) := by
  have digits : (Nat.toDigits 10 p ++ []).takeWhile Char.isDigit = Nat.toDigits 10 p ∧
      (Nat.toDigits 10 p ++ []).dropWhile Char.isDigit = [] :=
    Xml.span_append (fun c hc => Nat.isDigit_of_mem_toDigits (by decide) (by decide) hc) (by simp)
  rw [List.append_nil] at digits
  rw [readPort, digits.1, digits.2, digitsValue?_toDigits (by decide) (by decide), if_neg (by simpa using h)]
  exact ⟨_, rfl⟩

theorem bind_eq_ok_iff {ε α β : Type} {m : Except ε α} {f : α → Except ε β} {b : β} :
    m.bind f = .ok b ↔ ∃ a, m = .ok a ∧ f a = .ok b := by
  cases m <;> simp [Except.bind]

theorem map_eq_ok_iff {ε α β : Type} {m : Except ε α} {f : α → β} {b : β} :
    m.map f = .ok b ↔ ∃ a, m = .ok a ∧ f a = b := by
  cases m <;> simp [Except.map]

/-- The port after a host, if there is one. -/
def readPortPart (scheme : String) : List Char → Except UriFault (Option Nat × List Char)
  | [] => .ok (none, [])
  | _ :: digits => readPort scheme digits

/-- Whether a character ends an authority. -/
def SchemeKind.endsAuthority (kind : SchemeKind) (c : Char) : Bool := kind.isSlash c || c == '?' || c == '#'

theorem endsAuthority_of_mem {c : Char} (h : c ∈ ['/', '?', '#']) : kind.endsAuthority c = true := by
  simp only [List.mem_cons, List.not_mem_nil, or_false] at h
  rcases h with rfl | rfl | rfl <;> simp [SchemeKind.endsAuthority, SchemeKind.isSlash]

theorem not_endsAuthority {c : Char} (h : c ∉ ['/', '\\', '?', '#']) : kind.endsAuthority c = false := by
  simp only [List.mem_cons, List.not_mem_nil, or_false, not_or] at h
  simp [SchemeKind.endsAuthority, SchemeKind.isSlash, h]

/-- The path after the host of a file. -/
def filePath (cs : List Char) : List Char :=
  readPath .file ['/'] (if (spanPath cs).1.head?.any (SchemeKind.isSlash .file) then (spanPath cs).1.drop 1
    else (spanPath cs).1)

theorem joinCredentials_plain {user password : List Char} (first : ∀ c ∈ user, c ∉ authorityEnds)
    (second : ∀ c ∈ password, c ∉ authorityEnds) :
    (if user.isEmpty && password.isEmpty then [] else user ++ password ++ ['@']) = [] ∨
      ∃ inner, (if user.isEmpty && password.isEmpty then [] else user ++ password ++ ['@']) = inner ++ ['@'] ∧
        ∀ c ∈ inner, c ∉ authorityEnds := by
  split
  · exact Or.inl rfl
  · exact Or.inr ⟨_, rfl, List.forall_mem_append.mpr ⟨first, second⟩⟩

theorem encodeCredentials_plain (cs : List Char) :
    encodeCredentials cs = [] ∨ ∃ user, encodeCredentials cs = user ++ ['@'] ∧ ∀ c ∈ user, c ∉ authorityEnds := by
  have plain {cs : List Char} : ∀ c ∈ encode inUserinfo cs, c ∉ authorityEnds := by
    intro c hc
    rcases mem_encode hc with rfl | digit | ⟨-, kept, -⟩
    · decide
    · exact (not_mem_authorityEnds_of_isHexDigit digit).1
    · intro mem
      rw [List.all_eq_true.mp (by decide : authorityEnds.all inUserinfo = true) c mem] at kept
      cases kept
  unfold encodeCredentials
  dsimp only
  split
  · exact joinCredentials_plain plain (List.forall_mem_nil _)
  · exact joinCredentials_plain plain (List.forall_mem_cons.mpr ⟨by decide, plain⟩)

theorem le_of_readPort {port : Option Nat} {more : List Char} (h : readPort scheme cs = .ok (port, more)) :
    ∀ p ∈ port, p ≤ 65535 := by
  rw [readPort] at h
  split at h
  · cases h
  · rename_i fits
    simp only [Bool.or_eq_true, decide_eq_true_eq, not_or, Nat.not_lt] at fits
    cases h
    rintro p hp
    split at hp
    · cases hp
    · cases hp
      exact fits.1

theorem head?_pathAfterAuthority (kind : SchemeKind) (cs : List Char) :
    pathAfterAuthority kind cs = [] ∨ (pathAfterAuthority kind cs).head? = some '/' := by
  cases cs with
  | nil => cases hk : kind.isSpecial <;> simp [pathAfterAuthority, hk]
  | cons c rest => exact Or.inr (head?_readPath fun _ => rfl)

theorem splitCredentials_subset {authority user host : List Char}
    (h : (splitCredentials authority).getD ([], authority) = (user, host)) : user ⊆ authority ∧ host ⊆ authority := by
  rw [splitCredentials] at h
  split at h
  · cases h
    refine ⟨(List.take_sublist _ _).subset, fun c hc => ?_⟩
    exact List.mem_reverse.mp ((List.takeWhile_sublist _).subset (List.mem_reverse.mp hc))
  · cases h
    exact ⟨List.nil_subset _, List.Subset.refl _⟩

/-! ## Reading again -/

variable [Domains] {a : Authority}

/-- An authority that is read again from its text. -/
structure Authority.IsSound (kind : SchemeKind) (a : Authority) : Prop where
  credentials : a.credentials = [] ∨ ∃ user, a.credentials = user ++ ['@'] ∧ ∀ c ∈ user, c ∉ authorityEnds
  host : a.host ≠ "" → IsHost kind a.host
  port : ∀ p ∈ a.port, p ≤ 65535
  /-- Nothing but a host makes an authority. -/
  nameless : a.host = "" → a.credentials = [] ∧ a.port = none
  special : kind = .special → a.host ≠ ""
  file : kind = .file → a.credentials = [] ∧ a.port = none

namespace Authority.IsSound

theorem not_mem_host (h : a.IsSound kind) {c : Char} (hc : c ∈ a.host.toList) : c ∉ authorityEnds := by
  refine (h.host ?_).text.not_mem hc
  intro nameless
  rw [nameless] at hc
  cases hc

theorem not_mem_hostPort (h : a.IsSound kind) {c : Char} (hc : c ∈ a.host.toList ++ portText a.port) :
    c ∉ authorityEnds :=
  (List.mem_append.mp hc).elim h.not_mem_host not_mem_portText

/-- Only an `@` is special in an authority. -/
theorem not_mem_inner (h : a.IsSound kind) {c : Char} (hc : c ∈ a.inner) : c ∉ ['/', '\\', '?', '#'] := by
  rw [Authority.inner, List.append_assoc, List.mem_append] at hc
  rcases hc with hc | hc
  · rcases h.credentials with anonymous | ⟨user, named, plain⟩
    · rw [anonymous] at hc
      cases hc
    · rw [named, List.mem_append, List.mem_singleton] at hc
      rcases hc with hc | rfl
      · exact fun mem => plain c hc (List.mem_cons_of_mem '@' mem)
      · decide
  · exact fun mem => h.not_mem_hostPort hc (List.mem_cons_of_mem '@' mem)

theorem inner_ne_nil (h : a.IsSound kind) (special : kind = .special) : a.inner ≠ [] := by
  simp [Authority.inner, String.toList_eq_nil_iff, h.special special]

/-- The last `@` ends the credentials. -/
theorem exists_splitCredentials (h : a.IsSound kind) :
    ∃ user, (splitCredentials a.inner).getD ([], a.inner) = (user, a.host.toList ++ portText a.port) ∧
      (a.host = "" → user = []) := by
  have plain : '@' ∉ a.host.toList ++ portText a.port := fun mem => h.not_mem_hostPort mem (by decide)
  rw [Authority.inner, List.append_assoc]
  generalize a.host.toList ++ portText a.port = hostPort at plain ⊢
  rcases h.credentials with anonymous | ⟨user, named, -⟩
  · refine ⟨[], ?_, fun _ => rfl⟩
    rw [anonymous, List.nil_append, splitCredentials, if_neg (by simpa using plain)]
    rfl
  · refine ⟨user, ?_, fun nameless => ?_⟩
    · -- read from the end, the first `@` is that of the credentials: host and port have none
      have last : ((user ++ ['@'] ++ hostPort).reverse.takeWhile (· != '@')).reverse = hostPort := by
        rw [List.reverse_append, List.reverse_append, List.reverse_singleton, List.singleton_append,
          (Xml.span_append (fun c hc => ?_) ?_).1, List.reverse_reverse]
        · rintro c ⟨⟩
          rfl
        · rw [bne_iff_ne]
          rintro rfl
          exact plain (List.mem_reverse.mp hc)
      rw [named, splitCredentials, if_pos (by simp), last]
      have length : (user ++ ['@'] ++ hostPort).length - hostPort.length - 1 = user.length := by
        simp only [List.length_append, List.length_singleton]
        omega
      dsimp only
      rw [length, List.append_assoc, List.take_left]
      rfl
    · have anonymous := (h.nameless nameless).1
      rw [named] at anonymous
      simp at anonymous

theorem isSpecial_of_nameless (h : a.IsSound kind) (notFile : kind ≠ .file) (nameless : a.host = "") :
    kind.isSpecial = false := by
  cases kind with
  | file => exact absurd rfl notFile
  | special => exact absurd nameless (h.special rfl)
  | other => rfl

/-- Whatever its scheme, unless it is that of files. -/
theorem isHost (h : a.IsSound kind) (notFile : kind ≠ .file) : IsHost kind a.host := by
  by_cases nameless : a.host = ""
  · have special := h.isSpecial_of_nameless notFile nameless
    rw [nameless]
    exact .of_allowed special fun c hc => by cases hc
  · exact h.host nameless

theorem spanHost_inner (h : a.IsSound kind) :
    spanHost false (a.host.toList ++ portText a.port) = (a.host.toList, portText a.port) := by
  by_cases nameless : a.host = ""
  · rw [nameless, (h.nameless nameless).2]
    rfl
  · refine (h.host nameless).text.spanHost_append ?_
    cases a.port with
    | none => exact Or.inl rfl
    | some p => exact Or.inr rfl

end Authority.IsSound

/-! ### Host and port -/

/-- A host and a port, one after the other. -/
theorem readHost_eq (scheme : String) (cs : List Char) :
    readHost scheme cs =
      if (spanHost false cs).1.isEmpty && ((SchemeKind.ofName scheme).isSpecial || !(spanHost false cs).2.isEmpty) then
        .error .emptyHost
      else
        (if (SchemeKind.ofName scheme).isSpecial then parseDomain (spanHost false cs).1
          else parseOpaqueHost (spanHost false cs).1).bind fun host =>
        (readPortPart scheme (spanHost false cs).2).bind fun read => .ok (host, read.1, read.2) := by
  rw [readHost]
  generalize spanHost false cs = parts
  obtain ⟨text, rest⟩ := parts
  dsimp only
  split
  · rfl
  · cases (SchemeKind.ofName scheme).isSpecial <;> cases rest <;> rfl

theorem readHost_eq_ok_iff {host : String} {port : Option Nat} {more : List Char} :
    readHost scheme cs = .ok (host, port, more) ↔
      ((spanHost false cs).1 = [] → (SchemeKind.ofName scheme).isSpecial = false ∧ (spanHost false cs).2 = []) ∧
      (if (SchemeKind.ofName scheme).isSpecial then parseDomain (spanHost false cs).1
        else parseOpaqueHost (spanHost false cs).1) = .ok host ∧
      readPortPart scheme (spanHost false cs).2 = .ok (port, more) := by
  rw [readHost_eq]
  generalize spanHost false cs = parts
  obtain ⟨text, rest⟩ := parts
  dsimp only
  by_cases named : text = [] → (SchemeKind.ofName scheme).isSpecial = false ∧ rest = []
  · rw [if_neg (by simpa using named), iff_true_intro named, true_and, bind_eq_ok_iff]
    simp only [bind_eq_ok_iff, Except.ok.injEq, Prod.mk.injEq]
    constructor
    · rintro ⟨_, parsed, ⟨_, _⟩, read, rfl, rfl, rfl⟩
      exact ⟨parsed, read⟩
    · rintro ⟨parsed, read⟩
      exact ⟨host, parsed, (port, more), read, rfl, rfl, rfl⟩
  · rw [if_pos (by simpa [Classical.or_iff_not_imp_left] using named)]
    simp [named]

namespace Authority.IsSound

theorem exists_readHost (h : a.IsSound (SchemeKind.ofName scheme)) (notFile : SchemeKind.ofName scheme ≠ .file) :
    ∃ port, readHost scheme (a.host.toList ++ portText a.port) = .ok (a.host, port, []) := by
  have named : a.host.toList = [] → (SchemeKind.ofName scheme).isSpecial = false ∧ portText a.port = [] := by
    intro empty
    have nameless : a.host = "" := String.toList_eq_nil_iff.mp empty
    refine ⟨h.isSpecial_of_nameless notFile nameless, ?_⟩
    rw [(h.nameless nameless).2]
    rfl
  simp only [readHost_eq_ok_iff, h.spanHost_inner]
  cases hp : a.port with
  | none =>
    rw [hp] at named
    exact ⟨none, named, (h.isHost notFile).again, rfl⟩
  | some p =>
    obtain ⟨port, read⟩ := exists_readPort scheme (h.port p hp)
    rw [hp] at named
    exact ⟨port, named, (h.isHost notFile).again, read⟩

end Authority.IsSound

/-! ### Authorities -/

/-- The steps of reading an authority, one after the other. -/
theorem readAuthority_eq {authority rest user host : List Char}
    (taken : cs.takeWhile (fun c => !(SchemeKind.ofName scheme).endsAuthority c) = authority)
    (left : cs.dropWhile (fun c => !(SchemeKind.ofName scheme).endsAuthority c) = rest)
    (parts : (splitCredentials authority).getD ([], authority) = (user, host)) :
    readAuthority scheme cs =
      if authority == ['@'] && !rest.isEmpty then .error .emptyHost
      else (readHost scheme host).bind fun read =>
        if read.1.isEmpty && !(encodeCredentials user).isEmpty then .error .emptyHost
        else .ok (({ scheme
                     authority := some { credentials := encodeCredentials user, host := read.1, port := read.2.1 }
                     path := pathAfterAuthority (SchemeKind.ofName scheme) (spanPath (read.2.2 ++ rest)).1 } :
            Address).withTail (spanPath (read.2.2 ++ rest)).2) := by
  simp only [SchemeKind.endsAuthority] at taken left
  rw [readAuthority]
  dsimp only
  rw [taken, left, parts]
  by_cases anonymous : (authority == ['@'] && !rest.isEmpty) = true
  · rw [if_pos anonymous, if_pos anonymous]
    rfl
  · rw [if_neg anonymous, if_neg anonymous]
    cases readHost scheme host with
    | error fault => rfl
    | ok read =>
      dsimp only [bind, Except.bind]
      by_cases nameless : (read.1.isEmpty && !(encodeCredentials user).isEmpty) = true
      · rw [if_pos nameless, if_pos nameless]
        rfl
      · rw [if_neg nameless, if_neg nameless]
        rfl

namespace Authority.IsSound

theorem span_inner (h : a.IsSound kind) {after : List Char} (stop : ∀ c ∈ after.head?, c ∈ ['/', '?', '#'])
    (k : SchemeKind) :
    (a.inner ++ after).takeWhile (fun c => !k.endsAuthority c) = a.inner ∧
      (a.inner ++ after).dropWhile (fun c => !k.endsAuthority c) = after :=
  Xml.span_append (fun c hc => by rw [not_endsAuthority (h.not_mem_inner hc)]; rfl)
    fun c hc => by rw [endsAuthority_of_mem (stop c hc)]; rfl

/-- There is a host after an `@`. -/
theorem inner_ne_at (h : a.IsSound kind) : a.inner ≠ ['@'] := by
  intro only
  by_cases nameless : a.host = ""
  · obtain ⟨anonymous, portless⟩ := h.nameless nameless
    rw [Authority.inner, anonymous, nameless, portless] at only
    exact absurd only (by decide)
  · obtain ⟨c, cs, host⟩ := List.exists_cons_of_ne_nil (fun empty => nameless (String.toList_eq_nil_iff.mp empty))
    have last : c ∈ a.inner := by simp [Authority.inner, host]
    rw [only, List.mem_singleton] at last
    exact h.not_mem_host (c := c) (by simp [host]) (by rw [last]; decide)

/-- An authority is read from its text, up to where a path, a query or a fragment begins. -/
theorem exists_readAuthority (h : a.IsSound (SchemeKind.ofName scheme)) (notFile : SchemeKind.ofName scheme ≠ .file)
    {after : List Char} (stop : ∀ c ∈ after.head?, c ∈ ['/', '?', '#']) :
    ∃ address, readAuthority scheme (a.inner ++ after) = .ok address := by
  obtain ⟨user, parts, anonymous⟩ := h.exists_splitCredentials
  obtain ⟨port, read⟩ := h.exists_readHost notFile
  obtain ⟨taken, left⟩ := h.span_inner stop (SchemeKind.ofName scheme)
  rw [readAuthority_eq taken left parts, if_neg (by simp [h.inner_ne_at]), read]
  dsimp only [Except.bind]
  rw [if_neg]
  · exact ⟨_, rfl⟩
  · rw [Bool.and_eq_true, String.isEmpty_iff]
    rintro ⟨nameless, named⟩
    rw [anonymous nameless] at named
    exact absurd named (by decide)

end Authority.IsSound

/-! ### Hosts of files -/

/-- The steps of reading the host of a file, one after the other. -/
theorem readFileAuthority_eq {authority rest : List Char}
    (taken : cs.takeWhile (fun c => !SchemeKind.file.endsAuthority c) = authority)
    (left : cs.dropWhile (fun c => !SchemeKind.file.endsAuthority c) = rest) :
    readFileAuthority cs =
      (if isDriveLetter authority then .ok ("", cs)
        else (readFileHost authority).bind fun host => .ok (host, rest)).bind fun read =>
      .ok (({ scheme := "file"
              authority := some { host := if holdsDrive (filePath read.2) then "" else read.1 }
              path := filePath read.2 } : Address).withTail (spanPath read.2).2) := by
  change cs.takeWhile (fun c => !(c == '/' || c == '\\' || c == '?' || c == '#')) = authority at taken
  change cs.dropWhile (fun c => !(c == '/' || c == '\\' || c == '?' || c == '#')) = rest at left
  rw [readFileAuthority]
  dsimp only
  rw [taken, left]
  split
  · rfl
  · cases readFileHost authority <;> rfl

/-- The host of a file is read from its text. -/
theorem Authority.IsSound.exists_readFileAuthority (h : a.IsSound .file) {after : List Char}
    (stop : ∀ c ∈ after.head?, c ∈ ['/', '?', '#']) :
    ∃ address, readFileAuthority (a.inner ++ after) = .ok address := by
  obtain ⟨taken, left⟩ := h.span_inner stop .file
  have host : a.inner = a.host.toList := by
    obtain ⟨anonymous, portless⟩ := h.file rfl
    rw [Authority.inner, anonymous, portless, List.nil_append]
    exact List.append_nil _
  have read : ∃ host, readFileHost a.inner = .ok host := by
    rw [readFileHost, host]
    split
    · exact ⟨_, rfl⟩
    · rename_i named
      have again := (h.host fun nameless => named (by rw [nameless]; rfl)).again
      rw [if_pos (by rfl)] at again
      rw [again]
      exact ⟨_, rfl⟩
  obtain ⟨host, read⟩ := read
  rw [readFileAuthority_eq taken left, read]
  split
  · exact ⟨_, rfl⟩
  · exact ⟨_, rfl⟩

/-! ## What is read -/

/-- What a host and a port are when they are read. -/
theorem isHost_of_readHost {host : String} {port : Option Nat} {more : List Char}
    (h : readHost scheme cs = .ok (host, port, more)) :
    IsHost (SchemeKind.ofName scheme) host ∧ (∀ p ∈ port, p ≤ 65535) ∧ (host = "" → port = none) := by
  obtain ⟨named, parsed, read⟩ := readHost_eq_ok_iff.mp h
  refine ⟨?_, ?_, ?_⟩
  · split at parsed
    · rename_i special
      exact .of_parseDomain parsed special
    · rename_i notSpecial
      exact .of_parseOpaqueHost parsed (Bool.not_eq_true _ ▸ notSpecial)
  · generalize (spanHost false cs).2 = rest at read
    cases rest with
    | nil =>
      cases read
      rintro p ⟨⟩
    | cons c digits => exact le_of_readPort read
  · rintro rfl
    split at parsed
    · rename_i special
      exact absurd rfl ((IsHost.of_parseDomain parsed special).ne_empty special)
    · rw [(named (eq_nil_of_parseOpaqueHost parsed)).2] at read
      cases read
      rfl

/-- The parts that an authority and what follows it are made of. -/
theorem exists_of_readAuthority {address : Address} (h : readAuthority scheme cs = .ok address) :
    ∃ user hostPort host port rest more, user ⊆ cs ∧ hostPort ⊆ cs ∧ rest ⊆ cs ∧
      readHost scheme hostPort = .ok (host, port, more) ∧ (host = "" → encodeCredentials user = []) ∧
      address = ({ scheme
                   authority := some { credentials := encodeCredentials user, host, port }
                   path := pathAfterAuthority (SchemeKind.ofName scheme) (spanPath (more ++ rest)).1 } :
        Address).withTail (spanPath (more ++ rest)).2 := by
  have taken := (List.takeWhile_sublist (l := cs) fun c => !(SchemeKind.ofName scheme).endsAuthority c).subset
  have left := (List.dropWhile_sublist (l := cs) fun c => !(SchemeKind.ofName scheme).endsAuthority c).subset
  obtain ⟨user, hostPort, parts⟩ : ∃ user hostPort,
      (splitCredentials (cs.takeWhile fun c => !(SchemeKind.ofName scheme).endsAuthority c)).getD
        ([], cs.takeWhile fun c => !(SchemeKind.ofName scheme).endsAuthority c) = (user, hostPort) := ⟨_, _, rfl⟩
  obtain ⟨userSub, hostSub⟩ := splitCredentials_subset parts
  rw [readAuthority_eq rfl rfl parts] at h
  split at h
  · cases h
  · obtain ⟨⟨host, port, more⟩, read, h⟩ := bind_eq_ok_iff.mp h
    dsimp only at h
    split at h
    · cases h
    · rename_i anonymous
      cases h
      exact ⟨user, hostPort, host, port, _, more, List.Subset.trans userSub taken, List.Subset.trans hostSub taken,
        left, read, by simpa using anonymous, rfl⟩

theorem readAuthority_eq_ok {address : Address} (h : readAuthority scheme cs = .ok address)
    (notFile : SchemeKind.ofName scheme ≠ .file) :
    address.scheme = scheme ∧ (∃ a, address.authority = some a ∧ a.IsSound (SchemeKind.ofName scheme)) ∧
      (address.path = [] ∨ address.path.head? = some '/') := by
  obtain ⟨user, hostPort, host, port, rest, more, -, -, -, read, anonymous, rfl⟩ := exists_of_readAuthority h
  obtain ⟨isHost, fits, portless⟩ := isHost_of_readHost read
  refine ⟨rfl, ⟨_, rfl, ?_⟩, head?_pathAfterAuthority _ _⟩
  exact {
    credentials := encodeCredentials_plain user
    host := fun _ => isHost
    port := fits
    nameless := fun nameless => ⟨anonymous nameless, portless nameless⟩
    special := fun special => isHost.ne_empty (by rw [special]; rfl)
    file := fun file => absurd file notFile }

/-- The host and path that the address of a file is made of. -/
theorem exists_of_readFileAuthority {address : Address} (h : readFileAuthority cs = .ok address) :
    ∃ host rest, rest ⊆ cs ∧ (host ≠ "" → ∃ text, text ⊆ cs ∧ parseDomain text = .ok host) ∧
      address = ({ scheme := "file", authority := some { host }, path := filePath rest } : Address).withTail
        (spanPath rest).2 := by
  have taken := (List.takeWhile_sublist (l := cs) fun c => !SchemeKind.file.endsAuthority c).subset
  have left := (List.dropWhile_sublist (l := cs) fun c => !SchemeKind.file.endsAuthority c).subset
  rw [readFileAuthority_eq rfl rfl] at h
  obtain ⟨⟨host, rest⟩, read, h⟩ := bind_eq_ok_iff.mp h
  cases h
  have parts : rest ⊆ cs ∧ (host ≠ "" → ∃ text, text ⊆ cs ∧ parseDomain text = .ok host) := by
    split at read
    · cases read
      exact ⟨List.Subset.refl cs, fun named => absurd rfl named⟩
    · obtain ⟨name, named, same⟩ := bind_eq_ok_iff.mp read
      cases same
      refine ⟨left, fun nonempty => ⟨_, taken, ?_⟩⟩
      rw [readFileHost] at named
      split at named
      · cases named
        exact absurd rfl nonempty
      · obtain ⟨domain, parsed, same⟩ := map_eq_ok_iff.mp named
        split at same
        · exact absurd same.symm nonempty
        · rw [parsed, same]
  refine ⟨_, rest, parts.1, fun nonempty => ?_, rfl⟩
  split at nonempty
  · exact absurd rfl nonempty
  · rename_i drive
    rw [if_neg drive]
    exact parts.2 nonempty

/-- An authority that is a host and nothing else. -/
theorem Authority.IsSound.of_host {host : String} (h : host ≠ "" → IsHost .file host) :
    ({ host } : Authority).IsSound .file where
  credentials := Or.inl rfl
  host := h
  port := fun p hp => by cases hp
  nameless := fun _ => ⟨rfl, rfl⟩
  special := fun other => by cases other
  file := fun _ => ⟨rfl, rfl⟩

theorem readFileAuthority_eq_ok {address : Address} (h : readFileAuthority cs = .ok address) :
    address.scheme = "file" ∧ (∃ a, address.authority = some a ∧ a.IsSound .file) ∧
      address.path.head? = some '/' := by
  obtain ⟨host, rest, -, named, rfl⟩ := exists_of_readFileAuthority h
  refine ⟨rfl, ⟨_, rfl, .of_host fun nonempty => ?_⟩, head?_readPath fun other => absurd rfl other⟩
  obtain ⟨text, -, parsed⟩ := named nonempty
  exact .of_parseDomain parsed rfl

end FlowDoc.Uri
