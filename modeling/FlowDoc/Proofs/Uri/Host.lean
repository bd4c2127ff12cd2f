import FlowDoc.Proofs.Uri.Numeric
import FlowDoc.Uri.Address

/-!
# Hosts in addresses

A host that was read is read as itself (`IsHost.of_parseDomain`, `IsHost.of_parseOpaqueHost`), and its text is
recognised in an address: no character is in it that ends a host, and a colon only between brackets
(`IsHostText.spanHost_append`).
-/

namespace FlowDoc.Uri

/-! ## The text of a host -/

/-- The characters that end a host or an authority. -/
def authorityEnds : List Char := ['@', '/', '\\', '?', '#']

/-- The text of a host: a name, or digits and colons between brackets. -/
inductive IsHostText : List Char → Prop
  | name {cs : List Char} (plain : ∀ c ∈ cs, c ∉ authorityEnds ∧ c ∉ [':', '[', ']']) : IsHostText cs
  | groups {inner : List Char} (plain : ∀ c ∈ inner, isHexDigit c = true ∨ c = ':') :
    IsHostText ('[' :: inner ++ [']'])

theorem not_mem_authorityEnds_of_isHexDigit {c : Char} (h : isHexDigit c = true) :
    c ∉ authorityEnds ∧ c ∉ [':', '[', ']'] :=
  forall_isHexDigit (P := fun c => c ∉ authorityEnds ∧ c ∉ [':', '[', ']']) (by decide) h

theorem IsHostText.not_mem {cs : List Char} (h : IsHostText cs) {c : Char} (hc : c ∈ cs) : c ∉ authorityEnds := by
  cases h with
  | name plain => exact (plain c hc).1
  | groups plain =>
    rw [List.cons_append, List.mem_cons, List.mem_append, List.mem_singleton] at hc
    rcases hc with rfl | hc | rfl
    · decide
    · rcases plain c hc with digit | rfl
      · exact (not_mem_authorityEnds_of_isHexDigit digit).1
      · decide
    · decide

theorem spanHost_name {cs rest : List Char} (plain : ∀ c ∈ cs, c ∉ [':', '[', ']'])
    (ends : rest = [] ∨ rest.head? = some ':') : spanHost false (cs ++ rest) = (cs, rest) := by
  induction cs with
  | nil =>
    cases rest with
    | nil => rfl
    | cons c rest =>
      obtain rfl : c = ':' := by simpa using ends
      rfl
  | cons c cs ih =>
    obtain ⟨first, plain⟩ := List.forall_mem_cons.mp plain
    simp only [List.mem_cons, List.not_mem_nil, or_false, not_or] at first
    obtain ⟨colon, opening, closing⟩ := first
    rw [List.cons_append, spanHost]
    simp [colon, opening, closing, ih plain]

theorem spanHost_groups {inner rest : List Char} (plain : ∀ c ∈ inner, isHexDigit c = true ∨ c = ':')
    (ends : rest = [] ∨ rest.head? = some ':') :
    spanHost true (inner ++ ']' :: rest) = (inner ++ [']'], rest) := by
  induction inner with
  | nil =>
    have last : spanHost false ([] ++ rest) = ([], rest) := spanHost_name (List.forall_mem_nil _) ends
    rw [List.nil_append] at last ⊢
    simp [spanHost, last]
  | cons c inner ih =>
    obtain ⟨first, plain⟩ := List.forall_mem_cons.mp plain
    have other : c ≠ '[' ∧ c ≠ ']' := by
      rcases first with digit | rfl
      · have marks := (not_mem_authorityEnds_of_isHexDigit digit).2
        simp only [List.mem_cons, List.not_mem_nil, or_false, not_or] at marks
        exact marks.2
      · decide
    rw [List.cons_append, spanHost]
    simp [other, ih plain]

/-- A host is cut off before its port or at the end. -/
theorem IsHostText.spanHost_append {cs rest : List Char} (h : IsHostText cs)
    (ends : rest = [] ∨ rest.head? = some ':') : spanHost false (cs ++ rest) = (cs, rest) := by
  cases h with
  | name plain => exact spanHost_name (fun c hc => (plain c hc).2) ends
  | groups plain =>
    rw [List.append_assoc, List.cons_append, spanHost]
    simp [spanHost_groups plain ends]

/-! ## Parts of hosts -/

theorem bracketed_ipv6Text {groups : List Nat} (h : IsGroups groups) :
    bracketed (ipv6Text groups).toList = .ok (ipv6Text groups) := by
  obtain ⟨inner, text, read, -⟩ := exists_ipv6Text h
  have between : ((ipv6Text groups).toList.drop 1).dropLast = inner := by
    rw [text, List.cons_append, List.drop_one, List.tail_cons, List.dropLast_concat]
  have last : (ipv6Text groups).toList.getLast? = some ']' := by rw [text, List.getLast?_concat]
  rw [bracketed, if_neg (by simp [last]), between, read]

/-- What is read from brackets is written in brackets. -/
theorem exists_of_bracketed {cs : List Char} {host : String} (h : bracketed cs = .ok host) :
    ∃ inner, host.toList = '[' :: inner ++ [']'] ∧ (∀ c ∈ inner, isHexDigit c = true ∨ c = ':') ∧
      bracketed host.toList = .ok host := by
  rw [bracketed] at h
  split at h
  · cases h
  · split at h
    · rename_i groups read
      cases h
      have fine := IsGroups.of_ipv6? read
      obtain ⟨inner, text, -, plain⟩ := exists_ipv6Text fine
      exact ⟨inner, text, plain, bracketed_ipv6Text fine⟩
    · cases h

theorem decodeBytes_of_plain {cs : List Char} (h : '%' ∉ cs) : decodeBytes cs = cs.flatMap String.utf8EncodeChar := by
  induction cs with
  | nil => rfl
  | cons c cs ih =>
    rw [List.mem_cons, not_or] at h
    rw [decodeBytes, ih h.2, List.flatMap_cons]
    rintro a b rest rfl
    exact absurd rfl h.1

/-- A text without escapes stands for itself. -/
theorem decode?_of_plain {cs : List Char} (h : '%' ∉ cs) : decode? cs = some (String.ofList cs) := by
  have bytes : (⟨(decodeBytes cs).toArray⟩ : ByteArray) = (String.ofList cs).toByteArray := by
    rw [decodeBytes_of_plain h, String.toByteArray_ofList, List.utf8Encode]
    exact ByteArray.ext List.data_toByteArray.symm
  rw [decode?, bytes, String.fromUTF8?, dif_pos (String.isValidUTF8 _)]
  rfl

theorem not_deniedInDomain {cs : List Char} (h : cs.any deniedInDomain = false) {c : Char} (hc : c ∈ cs) :
    c ∉ authorityEnds ∧ c ∉ [':', '[', ']'] ∧ c ≠ '%' := by
  have fine := List.any_eq_false.mp h c hc
  refine ⟨fun mem => fine ?_, fun mem => fine ?_, ?_⟩
  · exact List.all_eq_true.mp (by decide : authorityEnds.all deniedInDomain = true) c mem
  · exact List.all_eq_true.mp (by decide : [':', '[', ']'].all deniedInDomain = true) c mem
  · rintro rfl
    exact fine (by decide)

theorem ipv4Text_ne_nil (n : Nat) : (ipv4Text n).toList ≠ [] := by
  rw [toList_ipv4Text]
  simp [List.intercalate_cons_cons]

theorem mem_ipv4Text {n : Nat} {c : Char} (h : c ∈ (ipv4Text n).toList) :
    isHexDigit c = true ∧ c.isDigit = true ∨ c = '.' := by
  rw [toList_ipv4Text] at h
  rcases mem_of_mem_intercalate h with point | ⟨part, mem, digit⟩
  · exact Or.inr (List.mem_singleton.mp point)
  · obtain ⟨n, -, rfl⟩ := List.mem_map.mp mem
    exact Or.inl ⟨isHexDigit_of_mem_toDigits (by decide) (by decide) digit,
      Nat.isDigit_of_mem_toDigits (by decide) (by decide) digit⟩

/-- The text of an IPv4 address is a domain. -/
theorem of_mem_ipv4Text {n : Nat} {c : Char} (h : c ∈ (ipv4Text n).toList) :
    deniedInDomain c = false ∧ (c.isDigit = true ∨ c = '.') := by
  rcases mem_ipv4Text h with ⟨hex, digit⟩ | rfl
  · exact ⟨forall_isHexDigit (P := fun c => deniedInDomain c = false) (by decide) hex, Or.inl digit⟩
  · decide

theorem not_deniedInHost_of_encode {cs : List Char} (fine : cs.any deniedInHost = false) {c : Char}
    (h : c ∈ encode inControls cs) : deniedInHost c = false ∧ c.toNat < 0x80 ∧ inControls c = false := by
  rcases mem_encode h with rfl | digit | ⟨mem, kept, ascii⟩
  · decide
  · exact forall_isHexDigit (P := fun c => deniedInHost c = false ∧ c.toNat < 0x80 ∧ inControls c = false)
      (by decide) digit
  · exact ⟨by simpa using List.any_eq_false.mp fine c mem, ascii, kept⟩

/-! ## Hosts that are read again -/

variable [Domains]

/-- A host that is read as itself. -/
structure IsHost (kind : SchemeKind) (host : String) : Prop where
  text : IsHostText host.toList
  again : (if kind.isSpecial then parseDomain host.toList else parseOpaqueHost host.toList) = .ok host

/-- An address in brackets is a host whatever the scheme. -/
theorem IsHost.of_bracketed {cs : List Char} {host : String} (h : bracketed cs = .ok host) (kind : SchemeKind) :
    IsHost kind host := by
  obtain ⟨inner, text, plain, again⟩ := exists_of_bracketed h
  have first : host.toList.head? = some '[' := by rw [text]; rfl
  refine ⟨text ▸ .groups plain, ?_⟩
  simp [parseDomain, parseOpaqueHost, first, again]

/-! ### Domains -/

/-- A domain in ASCII without escapes stands for itself or for the address that it spells. -/
theorem parseDomain_of_ascii {domain : List Char} (fine : domain.any deniedInDomain = false)
    (same : Domains.toAscii? domain = some domain) (nonempty : domain ≠ []) {host : String}
    (number : endsInNumber domain = true → ∃ n, ipv4? domain = some n ∧ host = ipv4Text n)
    (name : endsInNumber domain = false → host = String.ofList domain) : parseDomain domain = .ok host := by
  have plain : '%' ∉ domain := fun mem => (not_deniedInDomain fine mem).2.2 rfl
  have opening : domain.head? ≠ some '[' := fun head =>
    (not_deniedInDomain fine (List.mem_of_head? head)).2.1 (by decide)
  rw [parseDomain, if_neg (by simpa using opening), decode?_of_plain plain]
  simp only [Option.bind_some, String.toList_ofList, same, fine, Bool.false_eq_true, if_false, List.isEmpty_iff, nonempty]
  split
  · rename_i ends
    obtain ⟨n, read, rfl⟩ := number ends
    rw [read]
  · rename_i ends
    rw [name (Bool.not_eq_true _ ▸ ends)]

theorem IsHost.of_domain {kind : SchemeKind} (special : kind.isSpecial = true) {host : String}
    (fine : host.toList.any deniedInDomain = false) (same : Domains.toAscii? host.toList = some host.toList)
    (nonempty : host.toList ≠ [])
    (number : endsInNumber host.toList = true → ∃ n, ipv4? host.toList = some n ∧ host = ipv4Text n) :
    IsHost kind host where
  text := .name fun _ hc => (not_deniedInDomain fine hc).imp id And.left
  again := by
    rw [if_pos special]
    exact parseDomain_of_ascii fine same nonempty number fun _ => String.ofList_toList.symm

/-- What a domain is when it is read: what stands in brackets, a name, or an IPv4 address. -/
theorem parseDomain_eq_ok {cs : List Char} {host : String} (h : parseDomain cs = .ok host) :
    bracketed cs = .ok host ∨
      ∃ text domain, decode? cs = some text ∧ Domains.toAscii? text.toList = some domain ∧
        domain.any deniedInDomain = false ∧
        (host.toList = domain ∧ host.toList ≠ [] ∧ endsInNumber host.toList = false ∨
          ∃ n < 2 ^ 32, host = ipv4Text n) := by
  rw [parseDomain] at h
  split at h
  · exact Or.inl h
  · refine Or.inr ?_
    split at h
    · cases h
    · rename_i domain mapped
      obtain ⟨text, decoded, mapped⟩ := Option.bind_eq_some_iff.mp mapped
      refine ⟨text, domain, decoded, mapped, ?_⟩
      split at h
      · cases h
      · rename_i fine
        refine ⟨Bool.not_eq_true _ ▸ fine, ?_⟩
        split at h
        · cases h
        · rename_i nonempty
          rw [List.isEmpty_iff] at nonempty
          split at h
          · split at h
            · rename_i n read
              cases h
              exact Or.inr ⟨n, lt_of_ipv4? read, rfl⟩
            · cases h
          · rename_i name
            cases h
            rw [String.toList_ofList]
            exact Or.inl ⟨rfl, nonempty, Bool.not_eq_true _ ▸ name⟩

/-- A domain that was read is a host of a well-known scheme. -/
theorem IsHost.of_parseDomain {cs : List Char} {host : String} (h : parseDomain cs = .ok host) {kind : SchemeKind}
    (special : kind.isSpecial = true) : IsHost kind host := by
  rcases parseDomain_eq_ok h with h | ⟨text, domain, -, mapped, fine, ⟨name, nonempty, notNumber⟩ | ⟨n, small, rfl⟩⟩
  · exact .of_bracketed h kind
  · refine .of_domain special (name ▸ fine) (name ▸ Domains.again mapped) nonempty fun number => ?_
    rw [notNumber] at number
    cases number
  · refine .of_domain special ?_ (Domains.numeric fun c hc => (of_mem_ipv4Text hc).2) (ipv4Text_ne_nil n) fun _ =>
      ⟨n, ipv4?_ipv4Text small, rfl⟩
    exact List.any_eq_false.mpr fun c hc => by simp [(of_mem_ipv4Text hc).1]

theorem parseDomain_nil : parseDomain [] = .error .emptyHost := by
  have same : Domains.toAscii? [] = some [] := Domains.numeric (List.forall_mem_nil _)
  rw [parseDomain, if_neg (by decide), decode?_of_plain List.not_mem_nil, Option.bind_some, String.toList_ofList, same]
  rfl

theorem IsHost.ne_empty {kind : SchemeKind} {host : String} (h : IsHost kind host) (special : kind.isSpecial = true) :
    host ≠ "" := by
  rintro rfl
  have again := h.again
  rw [if_pos special, show "".toList = [] from rfl, parseDomain_nil] at again
  cases again

/-! ### Opaque hosts -/

theorem IsHost.of_allowed {kind : SchemeKind} (other : kind.isSpecial = false) {host : String}
    (fine : ∀ c ∈ host.toList, deniedInHost c = false ∧ c.toNat < 0x80 ∧ inControls c = false) : IsHost kind host where
  text := .name fun c hc => by
    have allowed := (fine c hc).1
    have denied : (authorityEnds ++ [':', '[', ']']).all deniedInHost = true := by decide
    constructor
    all_goals
      intro mem
      rw [List.all_eq_true.mp denied c (by simp [mem])] at allowed
      cases allowed
  again := by
    have opening : host.toList.head? ≠ some '[' := fun head =>
      absurd (fine '[' (List.mem_of_head? head)).1 (by decide)
    have denied : host.toList.any deniedInHost = false := List.any_eq_false.mpr fun c hc => by simp [(fine c hc).1]
    rw [if_neg (by simp [other]), parseOpaqueHost, if_neg (by simpa using opening), denied,
      encode_of_kept fun c hc => (fine c hc).2, String.ofList_toList]
    rfl

/-- A host that was read with any other scheme. -/
theorem IsHost.of_parseOpaqueHost {cs : List Char} {host : String} (h : parseOpaqueHost cs = .ok host)
    {kind : SchemeKind} (other : kind.isSpecial = false) : IsHost kind host := by
  rw [parseOpaqueHost] at h
  split at h
  · exact .of_bracketed h kind
  · split at h
    · cases h
    · rename_i fine
      rw [Bool.not_eq_true] at fine
      cases h
      refine .of_allowed other fun c hc => ?_
      rw [String.toList_ofList] at hc
      exact not_deniedInHost_of_encode fine hc

/-- Only an empty text is read as an empty host. -/
theorem eq_nil_of_parseOpaqueHost {cs : List Char} (h : parseOpaqueHost cs = .ok "") : cs = [] := by
  rw [parseOpaqueHost] at h
  split at h
  · exact absurd rfl ((IsHost.of_bracketed h .special).ne_empty rfl)
  · split at h
    · cases h
    · injection h with h
      exact encode_eq_nil_iff.mp (String.ofList_eq_empty_iff.mp h)

end FlowDoc.Uri
