import FlowDoc.Proofs.Render.Plain
import FlowDoc.Proofs.Xaml.Argument
import FlowDoc.Proofs.Xaml.Kept
import FlowDoc.Proofs.Xml.Reading

/-!
# The listing of styles

A line of the listing shows how the style of a role is referred to. In markup the reference stands in the `Style` of an
element, as an argument of `StaticResource`, and there a text with characters of the brace syntax is put into quotes
(`Theme.written`). The listing has no quotes, so it shows what is written exactly if none are needed
(**`Theme.listing_written_iff`**).
-/

namespace FlowDoc.Style.Theme

open Xaml Render

variable {t : Theme} {r : Role}

/-! ## Shown and written -/

/-- The reference that the line of a role shows. -/
def shown (t : Theme) (r : Role) : String :=
  if t.keyClass.contains (t.resolve r) then "\x7bx:Static " ++ t.keyClass.staticReference (t.resolve r) ++ "\x7d"
  else (t.resolve r).name

/-- The reference to the style of a role as an argument. -/
def written (t : Theme) (r : Role) : String :=
  if t.keyClass.contains (t.resolve r) then
    "\x7bx:Static " ++ extensionArgument (t.keyClass.staticReference (t.resolve r)) ++ "\x7d"
  else extensionArgument (t.resolve r).name

theorem listingLine_eq (t : Theme) (r : Role) : t.listingLine r =
    "  " ++ r.name ++ String.ofList (List.replicate (14 - r.name.length) ' ') ++ " " ++ t.shown r ++
      (if t.overrides.isOverridden r then "  (override)" else "") ++ "\n" := rfl

/-- Quotes make a text longer. -/
theorem quoteArgument_ne (s : String) : quoteArgument s ≠ s := by
  intro same
  have longer : ∀ cs : List Char, cs.length ≤ (cs.flatMap fun c => if c == '\'' then ['\\', '\''] else [c]).length := by
    intro cs
    induction cs with
    | nil => rfl
    | cons c cs ih =>
      rw [List.flatMap_cons, List.length_append, List.length_cons, Nat.add_comm]
      refine Nat.add_le_add ?_ ih
      split <;> simp
  have length := congrArg (fun s : String => s.toList.length) same
  have bound := longer s.toList
  simp only [quoteArgument, String.toList_ofList, List.length_cons, List.length_append, List.length_nil] at length
  omega

theorem extensionArgument_eq_self_iff (s : String) : extensionArgument s = s ↔ isQuoted s = false := by
  have printed : extensionArgument s = if isQuoted s then quoteArgument s else s := rfl
  rw [printed]
  cases isQuoted s with
  | true => exact iff_of_false (quoteArgument_ne s) nofun
  | false => exact iff_of_true rfl rfl

/-- What is shown is what is written if that has no quotes. -/
theorem written_eq_shown_iff : t.written r = t.shown r ↔ isQuoted (spelledKey t.keyClass (t.resolve r)) = false := by
  rw [written, shown, spelledKey, ← extensionArgument_eq_self_iff]
  split
  · rw [String.append_left_inj, String.append_right_inj]
  · rfl

/-! ## Written in markup -/

/-- The declarations that a document begins with. -/
def opening (t : Theme) : List Step :=
  [.declareNamespace "" presentationNamespace, .declareNamespace "x" languageNamespace,
    .declareNamespace t.keyClass.pre t.keyClass.namespaceUri]

/-- An extension with one positional argument. -/
theorem extension_positional (namespaces : List NamespaceDecl) (type : ElementType) (n : Node) :
    (Object.mk type [.mk "_PositionalParameters" "x" .directive false false [n]]).extension namespaces =
      "\x7b" ++ qualify namespaces type.space (extensionShortName type.name) ++ (" " ++ n.extension namespaces) ++
        "\x7d" := by
  simp [Object.extension, extensionArguments, MemberNode.extensionArguments, nodesExtension, braced]

/-- The reference in brace syntax, where the namespaces are those of a document and perhaps others. -/
theorem extension_styleReference {namespaces : List NamespaceDecl}
    (declared : [⟨"", presentationNamespace⟩, ⟨"x", languageNamespace⟩] <+: namespaces) :
    (styleReference t.keyClass (t.resolve r)).extension namespaces =
      "\x7bStaticResource " ++ t.written r ++ "\x7d" := by
  have resource : qualify namespaces ElementType.staticResourceExtension.space
      (extensionShortName ElementType.staticResourceExtension.name) = "StaticResource" := by
    have short : extensionShortName ElementType.staticResourceExtension.name = "StaticResource" := by decide
    obtain ⟨others, rfl⟩ := declared
    simp [qualify, ElementType.space, short]
  have static : qualify namespaces ElementType.staticExtension.space
      (extensionShortName ElementType.staticExtension.name) = "x:Static" := by
    have short : extensionShortName ElementType.staticExtension.name = "Static" := by decide
    have apart : (presentationNamespace == languageNamespace) = false := by decide
    obtain ⟨others, rfl⟩ := declared
    simp [qualify, ElementType.space, short, apart]
  have argument : (spelledValue t.keyClass (.resourceKey (t.resolve r))).node.extension namespaces = t.written r := by
    rw [spelledValue, written]
    split
    · refine (extension_positional namespaces .staticExtension _).trans ?_
      rw [static, ← String.append_assoc]
      rfl
    · rfl
  refine (extension_positional namespaces .staticResourceExtension _).trans ?_
  rw [resource, spelledItem, argument, ← String.append_assoc]
  rfl

/-- A style is no content, and named as it is. -/
theorem member?_style (type : ElementType) : ∀ m ∈ type.member? "Style",
    m.name = "Style" ∧ m.kind = .property ∧ Builder.isContentOf m type = false := by
  cases type <;> decide

/-- The member that refers to the style of a role. -/
def reference (t : Theme) (r : Role) (m : Member) : MemberPhrase :=
  .mk m false [spelledItem t.keyClass (.object (keyReference (t.resolve r)))]

/-- The style of an element that has one is among its attributes. -/
theorem mem_attributes {namespaces : List NamespaceDecl} {m : Member} {p : Object}
    (declared : [⟨"", presentationNamespace⟩, ⟨"x", languageNamespace⟩] <+: namespaces)
    (hm : m ∈ p.type.member? "Style") (held : (t.reference r m).node p.type ∈ p.members)
    (before : List (String × String)) :
    ∃ name attributes closed flow children,
      p.element namespaces before = .element name attributes closed flow children ∧
        ("Style", "\x7bStaticResource " ++ t.written r ++ "\x7d") ∈ attributes := by
  obtain ⟨type, members⟩ := p
  obtain ⟨named, kind, aside⟩ := member?_style type m hm
  have name : ((t.reference r m).node type).attributeName = "Style" := by
    rw [reference, MemberPhrase.node, MemberNode.attributeName, MemberNode.kind, kind]
    exact named
  have value : ((t.reference r m).node type).attributeValue? namespaces =
      some ((styleReference t.keyClass (t.resolve r)).extension namespaces) := rfl
  refine ⟨_, _, _, _, _, rfl, List.mem_append_left _ (List.mem_append_right _ ?_)⟩
  have content : ((t.reference r m).node type).isContent = false := aside
  refine List.mem_filterMap.mpr ⟨(t.reference r m).node type, held, ?_⟩
  rw [content, value, name, extension_styleReference declared]
  rfl

theorem memberItem_text (t : Theme) (key : ResourceKey) :
    memberItem .text t .positionalParameters (.resourceKey key) = .ok (spelledValue t.keyClass (.resourceKey key)) := by
  rw [memberItem, spelledValue]
  split <;> rfl

/-- An extension whose argument is proper. -/
theorem isProper_positional (type : ElementType) {i : ItemPhrase} (h : i.IsProper) :
    (ItemPhrase.object (.mk type [.mk .positionalParameters false [i]])).IsProper := by
  simp [ItemPhrase.IsProper, ObjectPhrase.IsProper, MembersProper, MemberPhrase.IsProper, Separated, ItemsProper, h]

/-- Where the style of a role can be written, it becomes a member of the innermost object. -/
theorem exists_reference {g : Draft} (h : g.Sound) (text : g.mode = .text) (theme : g.theme = t)
    (accepted : g.writer.accepts (.resource (.name "Style") (.role r)) = true) :
    ∃ (type : ElementType) (members : List MemberPhrase) (sp : List OpenPhrase) (m : Member) (g' : Draft),
      g.spine = .object type members :: sp ∧ m ∈ type.member? "Style" ∧
      g.writer.step (.resource (.name "Style") (.role r)) = g'.writer ∧ g'.Sound ∧ g'.decls = g.decls ∧
      g'.spine = .object type (members ++ [t.reference r m]) :: sp := by
  have succeeds : ¬ (Write.resource (.name "Style") (.role r)).Refuses g.writer := by
    rintro ⟨e, -, refused⟩
    rw [Writer.accepts, Step.write, refused] at accepted
    cases accepted
  obtain ⟨type, members, sp, hs⟩ : ∃ type members sp, g.spine = .object type members :: sp := by
    by_contra none
    exact succeeds (Draft.resource_fails h (Or.inr fun type members sp hs => none ⟨type, members, sp, hs⟩) _)
  rcases Write.run_resolve (.name "Style") g.writer with ⟨m, hm⟩ | unknown
  · subst theme
    have item : memberItem g.mode g.theme .positionalParameters (.resourceKey (g.theme.keyOf (.role r))) =
        .ok (spelledValue g.theme.keyClass (.resourceKey (g.theme.resolve r))) := by
      rw [text]
      exact memberItem_text _ _
    have written : (Write.resource (.name "Style") (.role r)).run g.writer =
        .ok () (g.withSpine (.object type (members ++ [g.theme.reference r m]) :: sp) (g.buffer.take true).2).writer :=
      Draft.resource_object h hs hm item
    have proper : (spelledItem g.theme.keyClass (.object (keyReference (g.theme.resolve r)))).IsProper :=
      isProper_positional .staticResourceExtension (memberItem_isProper item)
    refine ⟨type, members, sp, m, _, hs, resolve_name hs hm, ?_, (Draft.Move.put m _ hs proper (Or.inr rfl)).sound h,
      rfl, rfl⟩
    rw [Writer.step, Step.write, written]
    rfl
  · exact absurd (Draft.resource_fails h (Or.inl unknown) _) succeeds

/-- What a document begins with. -/
theorem exists_opened (t : Theme) : ∃ g : Draft, g.Sound ∧ g.mode = .text ∧ g.theme = t ∧
    [⟨"", presentationNamespace⟩, ⟨"x", languageNamespace⟩] <+: g.decls ∧
    (Target.markup.writer t).run t.opening = g.writer := by
  have start := Draft.sound_start .text t
  have first := (Draft.Move.declare ⟨"", presentationNamespace⟩ rfl rfl).sound start
  have second := (Draft.Move.declare ⟨"x", languageNamespace⟩ rfl rfl).sound first
  have third := (Draft.Move.declare ⟨t.keyClass.pre, t.keyClass.namespaceUri⟩ rfl rfl).sound second
  exact ⟨_, third, rfl, rfl, List.prefix_append _ _, rfl⟩

/-- **An element with the style of a role.** Whatever a document is written with, before the style and after it, the
style is in the markup of the element that it was written in. -/
theorem exists_styled {before after : List Step} {signals : List Signal}
    (accepted :
      ((Target.markup.writer t).run (t.opening ++ before)).accepts (.resource (.name "Style") (.role r)) = true)
    (finished : ((Target.markup.writer t).run
      (t.opening ++ before ++ .resource (.name "Style") (.role r) :: after)).finish = .ok signals) :
    ∃ g, Graph.ofSignals signals = .ok g ∧ ∃ p : Object, p.Within g.root ∧
      ((Target.markup.writer t).run (t.opening ++ before)).currentType? = some p.type ∧
      ∀ declared, ∃ name attributes closed flow children,
        p.element g.namespaces declared = .element name attributes closed flow children ∧
          ("Style", "\x7bStaticResource " ++ t.written r ++ "\x7d") ∈ attributes := by
  obtain ⟨g₀, sound₀, text₀, theme₀, decls, opened⟩ := t.exists_opened
  obtain ⟨g₁, r₁, written⟩ := sound₀.script_run before (Writer.staysAt_zero _ before)
  obtain ⟨text, theme⟩ := r₁.settings
  rw [Writer.run_append, opened, written] at accepted ⊢
  rw [Writer.run_append, Writer.run_append, opened, written, Writer.run_cons] at finished
  obtain ⟨type, members, sp, m, g₂, hs, hm, styled, sound₂, same, hs₂⟩ :=
    exists_reference (r₁.sound sound₀) (text.trans text₀) (theme.trans theme₀) accepted
  rw [styled] at finished
  have held : (t.reference r m).node type ∈ membersNodes type (members ++ [t.reference r m]) := by
    rw [membersNodes_append]
    exact List.mem_append_right _ List.mem_cons_self
  obtain ⟨g, built, kept, p, within, rfl, found⟩ := sound₂.exists_within hs₂ held after finished
  refine ⟨g, built, p, within, ?_, mem_attributes ((decls.trans r₁.decls_isPrefix).trans (same ▸ kept)) hm found⟩
  simp [Writer.currentType?, Draft.writer, hs, OpenPhrase.scope]

/-- **The listing and the markup.** A line of the listing shows a reference to the style of its role. Where the style of
the role is written in a document, the element has it as an argument of `StaticResource`. The two are the same exactly
if the argument needs no quotes. -/
theorem listing_written_iff (t : Theme) (r : Role) :
    t.listingLine r = "  " ++ r.name ++ String.ofList (List.replicate (14 - r.name.length) ' ') ++ " " ++ t.shown r ++
        (if t.overrides.isOverridden r then "  (override)" else "") ++ "\n" ∧
      (∀ (before after : List Step) (signals : List Signal),
        ((Target.markup.writer t).run (t.opening ++ before)).accepts (.resource (.name "Style") (.role r)) = true →
        ((Target.markup.writer t).run
          (t.opening ++ before ++ .resource (.name "Style") (.role r) :: after)).finish = .ok signals →
        ∃ g, Graph.ofSignals signals = .ok g ∧ ∃ p : Object, p.Within g.root ∧
          ((Target.markup.writer t).run (t.opening ++ before)).currentType? = some p.type ∧
          ∀ declared, ∃ name attributes closed flow children,
            p.element g.namespaces declared = .element name attributes closed flow children ∧
              ("Style", "\x7bStaticResource " ++ t.written r ++ "\x7d") ∈ attributes) ∧
      (t.written r = t.shown r ↔ isQuoted (spelledKey t.keyClass (t.resolve r)) = false) :=
  ⟨listingLine_eq t r, fun _ _ _ => exists_styled, written_eq_shown_iff⟩

/-- The style of a document alone: what is written is what the listing shows. -/
theorem listing_of_document :
    ∃ signals g, ((Target.markup.writer {}).run (({} : Theme).opening ++ [.startObject "FlowDocument"] ++
        .resource (.name "Style") (.role .document) :: [.endObject])).finish = .ok signals ∧
      Graph.ofSignals signals = .ok g ∧ ∃ p : Object, p.Within g.root ∧
        ∀ declared, ∃ name attributes closed flow children,
          p.element g.namespaces declared = .element name attributes closed flow children ∧
            ("Style", "\x7bStaticResource " ++ ({} : Theme).shown .document ++ "\x7d") ∈ attributes := by
  obtain ⟨-, styled, same⟩ := listing_written_iff {} .document
  have finishes : ((Target.markup.writer {}).run (({} : Theme).opening ++ [.startObject "FlowDocument"] ++
      .resource (.name "Style") (.role .document) :: [.endObject])).finish.isOk = true := by decide
  cases finished : ((Target.markup.writer {}).run (({} : Theme).opening ++ [.startObject "FlowDocument"] ++
      .resource (.name "Style") (.role .document) :: [.endObject])).finish with
  | error e => rw [finished] at finishes; cases finishes
  | ok signals =>
    obtain ⟨g, built, p, within, -, printed⟩ :=
      styled [.startObject "FlowDocument"] [.endObject] signals (by decide) finished
    rw [same.mpr (by decide)] at printed
    exact ⟨signals, g, rfl, built, p, within, printed⟩

/-- A class with a comma in its name: the markup of a document has the reference in quotes, and the listing does not. -/
theorem listing_without_quotes :
    ∃ t : Theme, t.shown .document = "\x7bx:Static p:A,B.DocumentStyleKey\x7d" ∧
      (documentMarkup .builtIn { theme := t } 2 []).toOption =
        some ("<FlowDocument xmlns=\"" ++ presentationNamespace ++ "\" xmlns:x=\"" ++ languageNamespace ++
          "\" xmlns:p=\"clr-namespace:N;assembly=M\"" ++
          " Style=\"\x7bStaticResource \x7bx:Static &apos;p:A,B.DocumentStyleKey&apos;\x7d\x7d\"/>\n") ∧
      Xml.readAttributeValue? "\x7bStaticResource \x7bx:Static &apos;p:A,B.DocumentStyleKey&apos;\x7d\x7d" =
        some "\x7bStaticResource \x7bx:Static 'p:A,B.DocumentStyleKey'\x7d\x7d" :=
  ⟨{ keyClass := { typeName := "A,B", pre := "p", clrNamespace := "N", assembly := "M" } }, by decide,
    by decide +kernel, by decide +kernel⟩

end FlowDoc.Style.Theme
