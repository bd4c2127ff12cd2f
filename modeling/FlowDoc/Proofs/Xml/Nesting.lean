import FlowDoc.Xml.Element
import FlowDoc.Xml.Name

/-!
# Well nested markup

The grammar of printed markup: an element is one closed tag or a pair of tags of the same name around content, content
is made of elements and character data, no tag has two attributes of one name, and in data and in the values of
attributes an ampersand begins a reference (`Nests`). A tree whose names are names, and whose elements have no two
attributes of one name (`Content.IsTidy`), is printed as a word of this grammar, whatever its texts and values and at
every indentation (`isDocument_print`): what is escaped is data.
-/

namespace FlowDoc.Xml

/-! ## The grammar -/

/-- A name without a colon. -/
def isPlainName (s : String) : Bool := isName s.toList && s.toList.all isNameChar

/-- A name, which may have a prefix. -/
inductive IsQualified : String → Prop
  | plain {name : String} : isPlainName name = true → IsQualified name
  | prefixed {pre name : String} : isPlainName pre = true → isPlainName name = true → IsQualified (pre ++ ":" ++ name)

/-- The name of the attribute that keeps white space. -/
theorem isQualified_space : IsQualified "xml:space" :=
  IsQualified.prefixed (show isPlainName "xml" = true by decide) (show isPlainName "space" = true by decide)

/-- References that stand for a character, by name or by number. -/
inductive IsReference : List Char → Prop
  | named (name : String) : name ∈ ["lt", "gt", "amp", "apos", "quot"] → IsReference ('&' :: name.toList ++ [';'])
  | numbered (digits : List Char) : digits ≠ [] → digits.all Char.isDigit = true →
      IsReference ('&' :: '#' :: digits ++ [';'])

/-- Character data in which some further characters do not stand: no bracket opens a tag in it, and an ampersand begins
a reference. -/
inductive IsData (excluded : List Char) : List Char → Prop
  | nil : IsData excluded []
  | char {c : Char} {cs : List Char} : c ∉ '<' :: '&' :: excluded → IsData excluded cs → IsData excluded (c :: cs)
  | reference {r cs : List Char} : IsReference r → IsData excluded cs → IsData excluded (r ++ cs)

/-- The attributes of a tag, with their names, which are distinct. -/
inductive Attributes : List String → String → Prop
  | nil : Attributes [] ""
  | cons {name value rest : String} {names : List String} : IsQualified name → name ∉ names →
      IsData ['"'] value.toList → Attributes names rest →
      Attributes (name :: names) (" " ++ name ++ "=\"" ++ value ++ "\"" ++ rest)

/-- What is derived. -/
inductive Symbol
  | element
  | content

/-- **Well nested markup.** -/
inductive Nests : Symbol → String → Prop
  | closed {name attributes : String} {names : List String} : IsQualified name → Attributes names attributes →
      Nests .element ("<" ++ name ++ attributes ++ "/>")
  | pair {name attributes body : String} {names : List String} : IsQualified name → Attributes names attributes →
      Nests .content body → Nests .element ("<" ++ name ++ attributes ++ ">" ++ body ++ "</" ++ name ++ ">")
  | data {s : String} : IsData [] s.toList → Nests .content s
  | child {s : String} : Nests .element s → Nests .content s
  | append {s t : String} : Nests .content s → Nests .content t → Nests .content (s ++ t)

/-- **Whole documents**: one root element on lines of its own. -/
def IsDocument (s : String) : Prop := ∃ root, Nests .element root ∧ s = root ++ "\n"

/-! ## Escaped texts -/

/-- A character that is escaped, or does not have to be. -/
theorem isData_escapeChar {excluded : List Char} {c : Char} (hc : c ∉ excluded) {cs : List Char}
    (h : IsData excluded cs) : IsData excluded (escapeChar c ++ cs) := by
  rw [escapeChar]
  split
  · exact .reference (.named "lt" (by decide)) h
  · split
    · exact .reference (.named "gt" (by decide)) h
    · split
      · exact .reference (.named "amp" (by decide)) h
      · next less greater ampersand =>
        refine .char ?_ h
        simp_all

/-- **Escaped text is data.** -/
theorem isData_escapeText (s : String) : IsData [] (escapeText s).toList := by
  rw [escapeText, String.toList_ofList]
  induction s.toList with
  | nil => exact .nil
  | cons c cs ih => exact isData_escapeChar List.not_mem_nil ih

theorem isData_escapeAttributeChar (c : Char) {cs : List Char} (h : IsData ['"'] cs) :
    IsData ['"'] (escapeAttributeChar c ++ cs) := by
  rw [escapeAttributeChar]
  split
  · exact .reference (.named "apos" (by decide)) h
  split
  · exact .reference (.named "quot" (by decide)) h
  split
  · exact .reference (.numbered ['1', '0'] (by decide) (by decide)) h
  split
  · exact .reference (.numbered ['1', '3'] (by decide) (by decide)) h
  split
  · exact .reference (.numbered ['9'] (by decide) (by decide)) h
  · exact isData_escapeChar (by simp_all) h

/-- **An escaped value** is data without quotes. -/
theorem isData_escapeAttribute (s : String) : IsData ['"'] (escapeAttribute s).toList := by
  rw [escapeAttribute, String.toList_ofList]
  induction s.toList with
  | nil => exact .nil
  | cons c cs ih => exact isData_escapeAttributeChar c ih

/-! ## Printed trees -/

/-- That the attributes of a tag may stand in it. -/
structure AreAttributes (attributes : List (String × String)) : Prop where
  qualified : ∀ a ∈ attributes, IsQualified a.1
  nodup : (attributes.map Prod.fst).Nodup

mutual

/-- That a tree may be printed: its names are names, and no element has two attributes of one name. -/
def Content.IsTidy : Content → Prop
  | .text _ => True
  | .element name attributes _ _ children => IsQualified name ∧ AreAttributes attributes ∧ AreTidy children

def AreTidy : List Content → Prop
  | [] => True
  | n :: ns => n.IsTidy ∧ AreTidy ns

end

theorem areTidy_append {ns ms : List Content} : AreTidy (ns ++ ms) ↔ AreTidy ns ∧ AreTidy ms := by
  induction ns with
  | nil => simp [AreTidy]
  | cons n ns ih => simp [AreTidy, ih, and_assoc]

theorem attributes_join {attributes : List (String × String)} (h : AreAttributes attributes) :
    Attributes (attributes.map Prod.fst) (String.join (attributes.map printAttribute)) := by
  obtain ⟨qualified, nodup⟩ := h
  induction attributes with
  | nil => exact .nil
  | cons a as ih =>
    rw [List.map_cons, List.nodup_cons] at nodup
    rw [List.forall_mem_cons] at qualified
    rw [List.map_cons, List.map_cons, String.join_cons, printAttribute]
    exact .cons qualified.1 nodup.1 (isData_escapeAttribute a.2) (ih qualified.2 nodup.2)

/-- White space of the layout. -/
theorem isData_indentation (width : Nat) (inFlow : Bool) (depth : Nat) :
    IsData [] (indentation width inFlow depth).toList := by
  rw [indentation]
  split
  · exact .nil
  · rw [String.toList_ofList]
    induction width * depth with
    | zero => exact .nil
    | succ n ih => exact .char (by decide) ih

theorem isData_lineEnd (inFlow : Bool) : IsData [] (lineEnd inFlow).toList := by
  cases inFlow with
  | true => exact .nil
  | false => exact .char (by decide) .nil

/-- **An element** between the white space of its layout. -/
theorem exists_element {name : String} {attributes : List (String × String)} {closed flow : Bool}
    {children : List Content} (qualified : IsQualified name) (areAttributes : AreAttributes attributes)
    (inside : ∀ width inFlow depth, Nests .content (printAll width inFlow depth children))
    (width : Nat) (inFlow : Bool) (depth : Nat) : ∃ e, Nests .element e ∧
      (Content.element name attributes closed flow children).print width inFlow depth =
        indentation width inFlow depth ++ e ++ lineEnd inFlow := by
  have attributes' := attributes_join areAttributes
  cases closed with
  | true =>
    refine ⟨_, .closed qualified attributes', ?_⟩
    simp [Content.print, openTag, String.append_assoc]
  | false =>
    have body := (Nests.data (isData_lineEnd (inFlow || flow))).append
      ((inside width (inFlow || flow) (depth + 1)).append (.data (isData_indentation width (inFlow || flow) depth)))
    refine ⟨_, .pair qualified attributes' body, ?_⟩
    simp [Content.print, openTag, String.append_assoc]

mutual

/-- **Trees.** What a tidy tree is printed as is content. -/
theorem nests_print : ∀ (n : Content) (width : Nat) (inFlow : Bool) (depth : Nat), n.IsTidy →
    Nests .content (n.print width inFlow depth)
  | .text s, _, _, _, _ => by
    rw [Content.print]
    exact .data (isData_escapeText s)
  | .element name attributes closed flow children, width, inFlow, depth, h => by
    have inside := fun width inFlow depth => nests_printAll children width inFlow depth h.2.2
    obtain ⟨e, nests, printed⟩ := exists_element h.1 h.2.1 inside width inFlow depth
    rw [printed]
    exact ((Nests.data (isData_indentation width inFlow depth)).append nests.child).append
      (.data (isData_lineEnd inFlow))

theorem nests_printAll : ∀ (ns : List Content) (width : Nat) (inFlow : Bool) (depth : Nat), AreTidy ns →
    Nests .content (printAll width inFlow depth ns)
  | [], _, _, _, _ => .data .nil
  | n :: ns, width, inFlow, depth, h => by
    rw [printAll]
    exact (nests_print n width inFlow depth h.1).append (nests_printAll ns width inFlow depth h.2)

end

/-- **A tidy element is printed as a document.** -/
theorem isDocument_print (width : Nat) {name : String} {attributes : List (String × String)} {closed flow : Bool}
    {children : List Content} (h : (Content.element name attributes closed flow children).IsTidy) :
    IsDocument ((Content.element name attributes closed flow children).print width false 0) := by
  have inside := fun width inFlow depth => nests_printAll children width inFlow depth h.2.2
  obtain ⟨e, nests, printed⟩ := exists_element h.1 h.2.1 inside width false 0
  refine ⟨e, nests, ?_⟩
  simpa [indentation, lineEnd] using printed

end FlowDoc.Xml
