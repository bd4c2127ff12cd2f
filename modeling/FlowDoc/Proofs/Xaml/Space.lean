import FlowDoc.Proofs.Xaml.Layout
import FlowDoc.Proofs.Xaml.Tidy

/-!
# White space in content

A reader normalises the white space in the content of an element that does not ask for it to be kept
(`normalizedTexts`): a run of white space becomes one space, and none is left at the two ends of the content, where an
object counts as a character like any other. `needsPreserve` looks at one value after the other, and knows of its
neighbours only which value is the first item and which the last. That is enough where no two values stand side by side:
if nothing is to be preserved, normalisation changes none of the values (**`normalizedTexts_eq`**).

The elements that ask for their white space to be kept are those of objects with content to be preserved
(**`keepsSpace_iff`**). In a phrase in which only runs have such content (`ObjectPhrase.IsLoose`) these are runs
(`keepSpace_element`).
-/

namespace FlowDoc.Xaml

open Text (isMarkupSpace isSpace)

/-! ## Normalisation -/

/-- The texts of the values among items. -/
def valueTexts : List Node → List String
  | [] => []
  | .object _ :: rest => valueTexts rest
  | .value v :: rest => v.display :: valueTexts rest

/-- Whether content is white space only, to its end. -/
def isBlank : List Node → Bool
  | [] => true
  | .object _ :: _ => false
  | .value v :: rest => v.display.toList.all isMarkupSpace && isBlank rest

/-- A text in content, normalised. `afterSpace` says that it comes after white space or at the start of the content,
`beforeEnd` that nothing but white space comes after it. -/
def normalizeChars (beforeEnd : Bool) : (afterSpace : Bool) → List Char → List Char
  | _, [] => []
  | afterSpace, c :: cs =>
    if isMarkupSpace c then
      let dropped := afterSpace || (beforeEnd && cs.all isMarkupSpace)
      (if dropped then [] else [' ']) ++ normalizeChars beforeEnd true cs
    else c :: normalizeChars beforeEnd false cs

/-- Whether white space after a text comes after white space. -/
def afterText (afterSpace : Bool) (cs : List Char) : Bool := cs.getLast?.elim afterSpace isMarkupSpace

/-- The texts of the values among content items after normalisation. -/
def normalizedTexts (afterSpace : Bool) : List Node → List String
  | [] => []
  | .object _ :: rest => normalizedTexts false rest
  | .value v :: rest =>
    String.ofList (normalizeChars (isBlank rest) afterSpace v.display.toList) ::
      normalizedTexts (afterText afterSpace v.display.toList) rest

/-! ## Where nothing is to be preserved -/

theorem hasRun_cons {c : Char} {cs : List Char} (h : hasRun (c :: cs) = false) :
    (isMarkupSpace c = true → c = ' ' ∧ cs.head? ≠ some ' ') ∧ hasRun cs = false := by
  simp only [hasRun, Bool.or_eq_false_iff, Bool.and_eq_false_iff, beq_eq_false_iff_ne] at h
  obtain ⟨⟨⟨⟨noFeed, noReturn⟩, noTab⟩, single⟩, rest⟩ := h
  refine ⟨fun space => ?_, rest⟩
  simp only [isMarkupSpace, Bool.or_eq_true, beq_iff_eq, noFeed, noReturn, noTab, or_false] at space
  exact ⟨space, single.resolve_left (not_not_intro space)⟩

/-- The white space at the start of a text without runs is a space. -/
theorem head_eq_space {cs : List Char} (h : hasRun cs = false) {c : Char} (hc : c ∈ cs.head?)
    (space : isMarkupSpace c = true) : c = ' ' := by
  cases cs with
  | nil => cases hc
  | cons d ds =>
    obtain rfl : d = c := by simpa using hc
    exact ((hasRun_cons h).1 space).1

/-- Normalisation keeps a text without runs of white space that has none at an end of the content. -/
theorem normalizeChars_eq {beforeEnd : Bool} : ∀ {afterSpace : Bool} {cs : List Char}, hasRun cs = false →
    (afterSpace = true → ∀ c ∈ cs.head?, isMarkupSpace c = false) →
      (beforeEnd = true → ∀ c ∈ cs.getLast?, isMarkupSpace c = false) →
        normalizeChars beforeEnd afterSpace cs = cs
  | _, [], _, _, _ => rfl
  | afterSpace, c :: cs, run, start, last => by
    obtain ⟨single, rest⟩ := hasRun_cons run
    have lastRest : beforeEnd = true → ∀ d ∈ cs.getLast?, isMarkupSpace d = false := by
      intro he d hd
      have nonempty : cs ≠ [] := by
        rintro rfl
        cases hd
      exact last he d (by rwa [List.getLast?_cons_of_ne_nil nonempty])
    rw [normalizeChars]
    cases space : isMarkupSpace c with
    | false =>
      rw [if_neg Bool.false_ne_true, normalizeChars_eq rest (fun h => absurd h Bool.false_ne_true) lastRest]
    | true =>
      obtain ⟨rfl, apart⟩ := single space
      have started : afterSpace = false := by
        cases afterSpace with
        | false => rfl
        | true => exact absurd (start rfl ' ' rfl) (by simp [space])
      -- A space before the end would come before more white space, or be the last character itself.
      have inside : (beforeEnd && cs.all isMarkupSpace) = false := by
        cases beforeEnd with
        | false => rfl
        | true =>
          cases cs with
          | nil => exact absurd (last rfl ' ' rfl) (by simp [space])
          | cons d ds =>
            have letter : isMarkupSpace d = false := by
              cases hd : isMarkupSpace d with
              | false => rfl
              | true => exact absurd (congrArg some (head_eq_space rest rfl hd)) apart
            simp [letter]
      have next : ∀ d ∈ cs.head?, isMarkupSpace d = false := by
        intro d hd
        cases space' : isMarkupSpace d with
        | false => rfl
        | true => exact absurd (head_eq_space rest hd space' ▸ hd) apart
      rw [started, inside, normalizeChars_eq rest (fun _ => next) lastRest]
      rfl

theorem isMarkupSpace_of_isSpace {c : Char} (h : isSpace c = false) : isMarkupSpace c = false := by
  cases space : isMarkupSpace c with
  | false => rfl
  | true =>
    rw [Text.isSpace_of_isMarkupSpace space] at h
    cases h

/-- Normalisation keeps a value that is not to be preserved. -/
theorem normalizeChars_display {v : Scalar} {rest : List Node} {first : Bool}
    (h : needsPreserveFrom first (.value v :: rest) = false) (last : isBlank rest = true → rest = []) :
    normalizeChars (isBlank rest) first v.display.toList = v.display.toList := by
  simp only [needsPreserveFrom, Bool.or_eq_false_iff, Bool.and_eq_false_iff] at h
  obtain ⟨⟨⟨run, start⟩, ending⟩, -⟩ := h
  refine normalizeChars_eq run (fun hf c hc => ?_) (fun he c hc => ?_)
  · have := start.resolve_left (by simp [hf])
    rw [startsBlank, Option.mem_def.mp hc] at this
    exact isMarkupSpace_of_isSpace this
  · have := ending.resolve_left (by simp [last he])
    rw [endsBlank, Option.mem_def.mp hc] at this
    exact isMarkupSpace_of_isSpace this

theorem normalizedTexts_eq_from : ∀ (first : Bool) (items : List Node),
    items.IsChain (fun a b => ¬(a.isValue = true ∧ b.isValue = true)) → needsPreserveFrom first items = false →
      normalizedTexts first items = valueTexts items
  | _, [], _, _ => rfl
  | first, .object _ :: rest, apart, h =>
    normalizedTexts_eq_from false rest apart.of_cons h
  | first, [.value v], _, h => by
    rw [normalizedTexts, normalizeChars_display h fun _ => rfl, String.ofList_toList]
    rfl
  | first, .value v :: .object o :: rest, apart, h => by
    have kept := normalizeChars_display h fun blank => nomatch blank
    have later : needsPreserveFrom false rest = false := by
      simp only [needsPreserveFrom, Bool.or_eq_false_iff] at h
      exact h.2
    have after := normalizedTexts_eq_from false rest apart.of_cons.of_cons later
    rw [normalizedTexts, kept, String.ofList_toList, normalizedTexts, after]
    rfl
  | first, .value v :: .value w :: rest, apart, _ =>
    absurd ⟨rfl, rfl⟩ (List.isChain_cons_cons.mp apart).1

/-- **Content that needs no attribute.** If no two values stand side by side and nothing is to be preserved, then
normalisation leaves every value as it is. -/
theorem normalizedTexts_eq {items : List Node}
    (apart : items.IsChain fun a b => ¬(a.isValue = true ∧ b.isValue = true)) (h : needsPreserve items = false) :
    normalizedTexts true items = valueTexts items :=
  normalizedTexts_eq_from true items apart h

/-- A space between a text and an object is kept, one at the end is not. -/
example :
    normalizedTexts true [.value (.text "a "), .object (.mk .lineBreak []), .value (.text " b ")] = ["a ", " b"] := by
  decide

/-! ## Elements that keep white space -/

end FlowDoc.Xaml

namespace FlowDoc.Xml

mutual

/-- The tags of a tree, in order, each with its attributes. -/
def Content.tags : Content → List (String × List (String × String))
  | .text _ => []
  | .element name attributes _ _ children => (name, attributes) :: allTags children

def allTags : List Content → List (String × List (String × String))
  | [] => []
  | n :: ns => n.tags ++ allTags ns

end

theorem allTags_append (ns ms : List Content) : allTags (ns ++ ms) = allTags ns ++ allTags ms := by
  induction ns with
  | nil => rfl
  | cons n ns ih => simp [allTags, ih]

/-- Whether only tags of one name have an attribute that keeps white space. -/
def KeepSpace (name : String) (tags : List (String × List (String × String))) : Prop :=
  ∀ tag ∈ tags, "xml:space" ∈ tag.2.map Prod.fst → tag.1 = name

theorem keepSpace_append {name : String} {tags tags' : List (String × List (String × String))} :
    KeepSpace name (tags ++ tags') ↔ KeepSpace name tags ∧ KeepSpace name tags' := List.forall_mem_append

end FlowDoc.Xml

namespace FlowDoc.Xaml

section Attribute

variable {namespaces : List NamespaceDecl} {declared : List (String × String)}

theorem space_mem_attributes {members : List MemberNode} {items : List Node}
    (own : "xml:space" ∉ (memberAttributes namespaces members).map Prod.fst)
    (apart : "xml:space" ∉ declared.map Prod.fst) :
    "xml:space" ∈ (declared ++ memberAttributes namespaces members ++ preserveAttribute items).map Prod.fst ↔
      needsPreserve items = true := by
  rw [List.map_append, List.map_append, List.mem_append, List.mem_append, or_iff_right (not_or_intro apart own),
    preserveAttribute]
  split
  · next needs => exact iff_of_true List.mem_cons_self needs
  · next other => exact iff_of_false List.not_mem_nil other

/-- **The attribute that keeps white space.** The element of an object has it exactly if there is white space in the
content of the object that normalisation would change. -/
theorem keepsSpace_iff {o : Object} (named : o.passes MemberNode.isNamed = true)
    (apart : "xml:space" ∉ declared.map Prod.fst) :
    (o.element namespaces declared).keepsSpace = true ↔ needsPreserve o.content = true := by
  obtain ⟨type, members⟩ := o
  have own : "xml:space" ∉ (memberAttributes namespaces members).map Prod.fst := by
    intro mem
    obtain ⟨a, ha, name⟩ := List.mem_map.mp mem
    exact (isQualified_memberAttributes named a ha).2 name
  rw [Object.element, Xml.Content.keepsSpace, List.contains_iff_mem]
  constructor
  · intro mem
    exact (space_mem_attributes own apart).mp (List.mem_map_of_mem mem)
  · intro needs
    refine List.mem_append_right _ ?_
    rw [preserveAttribute, if_pos needs]
    exact List.mem_singleton_self _

end Attribute

/-- Items with no white space to preserve, whose values are texts. -/
structure AreSpaced (items : List ItemPhrase) : Prop where
  texts : ∀ v, .value v ∈ items → ∃ s, v = .text s
  spaced : needsPreserve (itemsNodes items) = false

mutual

/-- That in no object of a phrase, other than runs, there is content to be preserved. -/
def ObjectPhrase.IsLoose : ObjectPhrase → Prop
  | .mk type members => MembersLoose type members

/-- The same of members of an object of a type. -/
def MembersLoose (type : ElementType) : List MemberPhrase → Prop
  | [] => True
  | m :: ms => m.IsLoose type ∧ MembersLoose type ms

def MemberPhrase.IsLoose (type : ElementType) : MemberPhrase → Prop
  | .mk member _ items =>
    (type ≠ .run → Builder.isContentOf member type = true → AreSpaced items) ∧ ItemsLoose items

def ItemsLoose : List ItemPhrase → Prop
  | [] => True
  | i :: is => i.IsLoose ∧ ItemsLoose is

def ItemPhrase.IsLoose : ItemPhrase → Prop
  | .object o => o.IsLoose
  | .value _ => True

end

theorem membersLoose_append {type : ElementType} {ms ns : List MemberPhrase} :
    MembersLoose type (ms ++ ns) ↔ MembersLoose type ms ∧ MembersLoose type ns := by
  induction ms with
  | nil => simp [MembersLoose]
  | cons m ms ih => simp [MembersLoose, ih, and_assoc]

theorem itemsLoose_iff {items : List ItemPhrase} : ItemsLoose items ↔ ∀ i ∈ items, i.IsLoose := by
  induction items with
  | nil => simp [ItemsLoose]
  | cons i is ih => simp [ItemsLoose, ih]

/-- The content of an object that is no run. -/
theorem MembersLoose.content {type : ElementType} {members : List MemberPhrase} (h : MembersLoose type members)
    (noRun : type ≠ .run) : needsPreserve (Object.mk type (membersNodes type members)).content = false := by
  rw [Object.content, Object.members]
  induction members with
  | nil => rfl
  | cons m ms ih =>
    obtain ⟨member, collection, items⟩ := m
    rw [membersNodes, MemberPhrase.node, List.find?_cons]
    cases content : Builder.isContentOf member type with
    | true => exact (h.1.1 noRun content).spaced
    | false => exact ih h.2

variable {namespaces : List NamespaceDecl}

/-- The tag of an object. -/
theorem keepSpace_tag {type : ElementType} {members : List MemberPhrase} {declared : List (String × String)}
    (loose : MembersLoose type members) (free : "xml:space" ∉ attributeNames members)
    (apart : "xml:space" ∉ declared.map Prod.fst)
    (keeps : "xml:space" ∈ (declared ++ memberAttributes namespaces (membersNodes type members) ++
      preserveAttribute (Object.mk type (membersNodes type members)).content).map Prod.fst) : type = .run := by
  have own : "xml:space" ∉ (memberAttributes namespaces (membersNodes type members)).map Prod.fst := fun mem =>
    free ((names_memberAttributes type members).subset mem)
  by_contra noRun
  have needs := (space_mem_attributes own apart).mp keeps
  rw [loose.content noRun] at needs
  cases needs

mutual

/-- **Elements that keep white space.** In the element of a loose phrase these are runs. -/
theorem keepSpace_element : ∀ (o : ObjectPhrase) (declared : List (String × String)), o.IsTidy → o.IsLoose →
    "xml:space" ∉ declared.map Prod.fst →
      Xml.KeepSpace (qualify namespaces ElementType.run.space "Run") (o.object.element namespaces declared).tags
  | .mk type members, declared, tidy, loose, apart => by
    rw [ObjectPhrase.object, Object.element, Xml.Content.tags]
    refine List.forall_mem_cons.mpr ⟨fun keeps => ?_, ?_⟩
    · obtain rfl := keepSpace_tag loose tidy.1.2 apart keeps
      rfl
    · rw [Xml.allTags_append]
      exact Xml.keepSpace_append.mpr
        ⟨keepSpace_propertyElements members type _ tidy.2 loose, keepSpace_contentElements members type tidy.2 loose⟩

theorem keepSpace_propertyElements : ∀ (ms : List MemberPhrase) (type : ElementType) (element : String),
    MembersTidy ms → MembersLoose type ms →
      Xml.KeepSpace (qualify namespaces ElementType.run.space "Run")
        (Xml.allTags (propertyElements namespaces element (membersNodes type ms)))
  | [], _, _, _, _ => List.forall_mem_nil _
  | .mk member collection items :: ms, type, element, tidy, loose => by
    have rest := keepSpace_propertyElements ms type element tidy.2 loose.2
    rw [membersNodes, propertyElements]
    split
    · exact rest
    · rw [Xml.allTags, Xml.Content.tags, List.cons_append]
      refine List.forall_mem_cons.mpr ⟨fun keeps => absurd keeps List.not_mem_nil, ?_⟩
      exact Xml.keepSpace_append.mpr ⟨keepSpace_itemElements items tidy.1.2 loose.1.2, rest⟩

theorem keepSpace_contentElements : ∀ (ms : List MemberPhrase) (type : ElementType), MembersTidy ms →
    MembersLoose type ms →
      Xml.KeepSpace (qualify namespaces ElementType.run.space "Run")
        (Xml.allTags (contentElements namespaces (membersNodes type ms)))
  | [], _, _, _ => List.forall_mem_nil _
  | .mk member collection items :: ms, type, tidy, loose => by
    rw [membersNodes, contentElements]
    split
    · exact keepSpace_itemElements items tidy.1.2 loose.1.2
    · exact keepSpace_contentElements ms type tidy.2 loose.2

theorem keepSpace_itemElements : ∀ items : List ItemPhrase, ItemsTidy items → ItemsLoose items →
    Xml.KeepSpace (qualify namespaces ElementType.run.space "Run")
      (Xml.allTags (nodesElements namespaces (itemsNodes items)))
  | [], _, _ => List.forall_mem_nil _
  | .value _ :: is, tidy, loose => keepSpace_itemElements is tidy.2 loose.2
  | .object o :: is, tidy, loose =>
    Xml.keepSpace_append.mpr
      ⟨keepSpace_element o [] tidy.1 loose.1 List.not_mem_nil, keepSpace_itemElements is tidy.2 loose.2⟩

end

end FlowDoc.Xaml
