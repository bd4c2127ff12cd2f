import FlowDoc.Proofs.Render.Failure
import FlowDoc.Proofs.Render.Fallback
import FlowDoc.Proofs.Text.Lines
import FlowDoc.Proofs.Xaml.Sink

/-!
# Code

A block of code becomes a paragraph whose content are runs and line breaks (`CodePart`). Read in order, with a line feed
for a line break, they are the literal of the block without one line feed at its end, whichever way the lines are joined
(`Shows`). So it is in every writer in which a paragraph can start, and in the graph of a document
(**`codeBlock_verbatim`**).
-/

namespace FlowDoc.Render

open Xaml
open Text (Flow layout)

/-! ## Parts -/

/-- An entry of the content of code. -/
inductive CodePart
  | run (text : String)
  | lineBreak
  deriving DecidableEq

namespace CodePart

/-- A part as an object. -/
def item : CodePart → ItemPhrase
  | run s => .object (.mk .run [.mk runText false [.value (.text s)]])
  | lineBreak => .object (.mk .lineBreak [])

/-- A part as it is read. -/
def read : CodePart → String
  | run s => s
  | lineBreak => "\n"

end CodePart

/-- How the parts of code show a text: read in order they are the text. Joined by line feeds it is in one run, and by
line breaks there is one of them for each line feed, and none is left in a run. -/
structure Shows (join : LineJoin) (text : String) (parts : List CodePart) : Prop where
  read : String.join (parts.map CodePart.read) = text
  filled : ∀ s, .run s ∈ parts → s ≠ ""
  newline : join = .newline → parts.length ≤ 1 ∧ .lineBreak ∉ parts
  lineBreak : join = .lineBreak → parts.count .lineBreak = text.toList.count '\n' ∧
    ∀ s, .run s ∈ parts → '\n' ∉ s.toList

/-- The run of a text, or nothing if it is empty. -/
def runParts (s : String) : List CodePart := if s.isEmpty then [] else [.run s]

/-- The parts of lines of code. -/
def codeParts : LineJoin → List String → List CodePart
  | .newline, lines => runParts ("\n".intercalate lines)
  | .lineBreak, [] => []
  | .lineBreak, l :: ls => runParts l ++ ls.flatMap fun l => .lineBreak :: runParts l

theorem map_item_runParts (s : String) : (runParts s).map CodePart.item = runOf s := by
  rw [runParts, runOf]
  split <;> rfl

/-- The lines of code become their parts. -/
theorem codeItems_eq (join : LineJoin) (lines : List String) :
    codeItems join lines = (codeParts join lines).map CodePart.item := by
  cases join with
  | newline => rw [codeItems, codeParts, map_item_runParts]
  | lineBreak =>
    cases lines with
    | nil => rfl
    | cons l ls =>
      simp only [codeItems, codeParts, List.map_append, List.map_flatMap, List.map_cons, map_item_runParts]
      rfl

theorem join_read_runParts (s : String) : String.join ((runParts s).map CodePart.read) = s := by
  rw [runParts]
  split
  · next empty => simpa using empty.symm
  · simp [CodePart.read]

theorem count_lineBreak_runParts (s : String) : (runParts s).count .lineBreak = 0 := by
  rw [runParts]
  split <;> simp

theorem run_mem_runParts {s t : String} (h : .run t ∈ runParts s) : t = s ∧ t ≠ "" := by
  rw [runParts] at h
  split at h <;> simp_all

theorem codeParts_lineBreak_cons (l k : String) (ls : List String) :
    codeParts .lineBreak (l :: k :: ls) = runParts l ++ .lineBreak :: codeParts .lineBreak (k :: ls) := by
  simp [codeParts]

theorem join_read_codeParts_lineBreak : ∀ lines : List String,
    String.join ((codeParts .lineBreak lines).map CodePart.read) = "\n".intercalate lines
  | [] => rfl
  | [l] => by simp [codeParts, join_read_runParts]
  | l :: k :: ls => by
    rw [codeParts_lineBreak_cons, List.map_append, String.join_append, join_read_runParts, List.map_cons,
      String.join_cons, join_read_codeParts_lineBreak (k :: ls), String.intercalate_cons_cons, String.append_assoc]
    rfl

/-- There is a line break in front of every line but the first. -/
theorem count_lineBreak_codeParts : ∀ lines : List String,
    (codeParts .lineBreak lines).count .lineBreak = lines.tail.length
  | [] => rfl
  | [l] => by simp [codeParts, count_lineBreak_runParts]
  | l :: k :: ls => by
    rw [codeParts_lineBreak_cons, List.count_append, count_lineBreak_runParts, List.count_cons_self,
      count_lineBreak_codeParts (k :: ls)]
    simp

/-- Between line breaks the runs are the lines that are not empty. -/
theorem run_mem_codeParts {s : String} : ∀ {lines : List String}, .run s ∈ codeParts .lineBreak lines →
    s ∈ lines ∧ s ≠ ""
  | [], h => by cases h
  | [l], h => by
    rw [codeParts, List.flatMap_nil, List.append_nil] at h
    obtain ⟨rfl, full⟩ := run_mem_runParts h
    exact ⟨List.mem_singleton_self s, full⟩
  | l :: k :: ls, h => by
    rw [codeParts_lineBreak_cons] at h
    rcases List.mem_append.mp h with first | later
    · obtain ⟨rfl, full⟩ := run_mem_runParts first
      exact ⟨List.mem_cons_self, full⟩
    · obtain ⟨among, full⟩ := run_mem_codeParts (List.mem_of_ne_of_mem (by simp) later)
      exact ⟨List.mem_cons_of_mem l among, full⟩

/-- **Parts.** The parts of the lines of a text show it. -/
theorem shows_codeParts (join : LineJoin) (text : String) :
    Shows join text (codeParts join ((Block.linesOf text.toList).map String.ofList)) := by
  have lines : "\n".intercalate ((Block.linesOf text.toList).map String.ofList) = text := by
    rw [Block.intercalate_linesOf, String.ofList_toList]
  cases join with
  | newline =>
    rw [codeParts, lines]
    refine ⟨join_read_runParts text, fun s hs => (run_mem_runParts hs).2, fun _ => ?_, nofun⟩
    rw [runParts]
    split <;> simp
  | lineBreak =>
    refine ⟨(join_read_codeParts_lineBreak _).trans lines, fun s hs => (run_mem_codeParts hs).2,
      nofun, fun _ => ⟨?_, fun s hs => ?_⟩⟩
    · rw [count_lineBreak_codeParts, ← List.map_tail, List.length_map, Block.length_tail_linesOf]
    · obtain ⟨line, hl, rfl⟩ := List.mem_map.mp (run_mem_codeParts hs).1
      rw [String.toList_ofList]
      exact Block.newline_not_mem_linesOf hl

example : codeParts .lineBreak ["", "a", ""] = [.lineBreak, .run "a", .lineBreak] := rfl

/-! ## Writing them -/

/-- A type with content always takes what is always put into the collection. -/
theorem Adds.content {type : ElementType} {ws : List (Write Unit)} {flow : List (Flow ObjectPhrase)}
    (hb : Adds (inOrder ws) flow) (hc : type.content?.isSome = true) (preserve : Bool) {g : Draft}
    {members : List MemberPhrase} {sp : List OpenPhrase} (h : g.Sound) (hs : g.spine = .object type members :: sp) :
    ∃ b : Text.Buffer,
      let g' := g.withSpine
        (.object type (members ++ contentMember type ((layout (.ofPreserve preserve) flow).map .ofLaid)) :: sp) b
      (content preserve ws).run g.writer = .ok () g'.writer ∧ g'.Sound := by
  obtain ⟨m, hm⟩ := Option.isSome_iff_exists.mp hc
  have property : Write.contentProperty.run g.writer = .ok m g.writer := by
    rw [run_contentProperty_object hs, getContent, hm]
  have resolved : (Write.resolve (.resolved m)).run g.writer = .ok m g.writer := rfl
  have started := Draft.startItems_object h hs resolved preserve
  have sound := (Draft.Move.startItems m (.ofPreserve preserve) hs).sound h
  obtain ⟨opened, items, b, filled, sound', gathered⟩ := hb _ _ _ m false [] [] _ sound rfl (Text.Gathers.nil _)
  obtain ⟨ended, sound''⟩ := endItems_gathered sound' rfl gathered
  rw [contentMember, hm, Option.toList_some, List.flatMap_singleton]
  refine ⟨(b.take false).2.resume g.buffer.mode, ?_, sound''⟩
  rw [Render.content, Write.startContent, bind_assoc, Write.run_bind_ok property, Write.run_bind_ok started,
    Write.run_bind_ok filled]
  exact ended

/-- Ending an object sends that. -/
theorem endObject_signals {g : Draft} {type : ElementType} {members : List MemberPhrase} {sp : List OpenPhrase}
    (h : g.Sound) (hs : g.spine = .object type members :: sp) :
    ∃ g' : Draft, Write.endObject.run g.writer = .ok () g'.writer ∧ g'.Sound ∧
      g'.signals = g.signals ++ [.endObject] := by
  have sent : Write.endObject.run g.writer =
      .ok () { g.writer with scopes := sp.map OpenPhrase.scope, sent := g.writer.sent.push .endObject } := by
    simp [Write.endObject, Write.popScope, Write.send, Draft.writer, hs, OpenPhrase.scope]
  rcases h.endObject with ⟨g', m, ended⟩ | ⟨e, -, refused⟩
  · refine ⟨g', ended, m.sound h, ?_⟩
    rw [sent] at ended
    have same := congrArg Writer.sent (EStateM.Result.ok.inj ended).2
    simpa [Draft.writer] using congrArg Array.toList same.symm
  · rw [sent] at refused
    cases refused

/-- The members of the paragraph of a block of code: a style and the content. -/
def codeMembers (style : ItemPhrase) (items : List ItemPhrase) : List MemberPhrase :=
  itemMember (ElementType.member? .paragraph "Style") style ++ contentMember .paragraph items

/-- What is written in the paragraph of a block of code. -/
theorem codeBody_signals (join : LineJoin) (lines : List String) {g : Draft} {sp : List OpenPhrase} (h : g.Sound)
    (hs : g.spine = .object .paragraph [] :: sp) :
    ∃ (style : ItemPhrase) (g' : Draft),
      (do Write.style .codeBlock; content true (codeLines join lines) : Write Unit).run g.writer = .ok () g'.writer ∧
      g'.Sound ∧ g'.spine = .object .paragraph (codeMembers style (codeItems join lines)) :: sp ∧
      g'.signals = g.signals ++ membersSignals (codeMembers style (codeItems join lines)) := by
  obtain ⟨i, hi⟩ := Draft.memberItem_key g.mode g.theme (g.theme.keyOf (.role .codeBlock))
  obtain ⟨m, hm⟩ : ∃ m, ElementType.member? .paragraph "Style" = some m := ⟨_, rfl⟩
  have resolved : (Write.resolve (.name "Style")).run g.writer = .ok m g.writer := by
    rw [resolve_object hs, lookUp, getMember, hm]
  have styled := Draft.resource_object h hs resolved hi
  -- a native writer and one of markup refer to the style in different ways
  generalize hr : ItemPhrase.object (.mk .staticResourceExtension [.mk .positionalParameters false [i]]) = style
    at styled
  have proper : style.IsProper := by
    rw [← hr]
    simp [ItemPhrase.IsProper, ObjectPhrase.IsProper, MembersProper, MemberPhrase.IsProper, Separated, ItemsProper,
      memberItem_isProper hi]
  have sound := (Draft.Move.put m style hs proper (Or.inr rfl)).sound h
  obtain ⟨b, filled, sound'⟩ := (adds_codeLines join lines).content (by decide) true sound rfl
  have members : [] ++ [.mk m false [style]] ++
      contentMember .paragraph ((layout (.ofPreserve true) (codeFlow join lines)).map .ofLaid) =
        codeMembers style (codeItems join lines) := by
    rw [codeMembers, hm, ← layout_codeFlow]
    rfl
  rw [members] at filled sound'
  refine ⟨style, _, (Write.run_bind_ok styled).trans filled, sound', rfl, ?_⟩
  simp [Draft.signals, Draft.withSpine, hs, spineSignals, OpenPhrase.signals]

/-- **Blocks of code.** Wherever a paragraph can start, a block of code is rendered as one. -/
theorem codeBlock_written (target : Target) (theme : Style.Theme) (before : List Step) (o : Options)
    (info : Option String) (lines : List String) {w : Writer}
    (started : (Write.startObjectOf .paragraph).run ((target.writer theme).run before) = .ok () w) :
    ∃ (style : ItemPhrase) (w' : Writer) (k : Sink),
      (renderBlock .builtIn o (.codeBlock info lines)).run ((target.writer theme).run before) = .ok () w' ∧
      w'.sent.toList =
        w.sent.toList ++ membersSignals (codeMembers style (codeItems o.lineJoin lines)) ++ [.endObject] ∧
      target.sink.receiveAll w'.sent.toList = .ok k := by
  obtain ⟨g, sound, hw⟩ := exists_draft target.mode theme before
  have run : (target.writer theme).run before = g.writer := hw
  rw [run] at started ⊢
  rcases sound.startObjectOf .paragraph with ⟨g₁, m, start⟩ | ⟨e, -, refused⟩
  · rw [start] at started
    cases started
    have sound₁ := m.sound sound
    -- the paragraph may be the root or a child
    obtain ⟨sp, hs⟩ : ∃ sp, g₁.spine = .object .paragraph [] :: sp := by
      cases m with
      | startRoot _ _ _ => exact ⟨_, rfl⟩
      | startChild _ _ _ => exact ⟨_, rfl⟩
    obtain ⟨style, g₂, written, sound₂, hs₂, sent⟩ := codeBody_signals o.lineJoin lines sound₁ hs
    obtain ⟨g₃, ended, sound₃, sent'⟩ := endObject_signals sound₂ hs₂
    obtain ⟨k, taken⟩ := sound₃.received target
    refine ⟨style, g₃.writer, k, ?_, by simp [Draft.writer, sent', sent], by simpa [Draft.writer] using taken⟩
    have handled : renderBlock .builtIn o (.codeBlock info lines) =
        object .paragraph (do Write.style .codeBlock; content true (codeLines o.lineJoin lines)) := rfl
    rw [handled, object, Write.run_bind_ok start, Write.run_bind_ok written, ended]
  · rw [refused] at started
    cases started

/-- A block of code leaves its paragraph in a document, whatever becomes of raw markup. -/
theorem leaves_codeBlock (o : Options) (info : Option String) (lines : List String) :
    Leaves o.theme (inOrder (renderBlocks .builtIn o [.codeBlock info lines]))
      ((translateBlocks o [.codeBlock info lines]).map .child) where
  puts := puts_blocks { o with rawMarkup := .skip } nofun [.codeBlock info lines]
  ends := ends_blocks { o with rawMarkup := .skip } nofun .native [.codeBlock info lines]

/-- **Code is verbatim.** A literal has a text, itself without one line feed at its end if there is one. Whatever the
options, parts that show this text are the content that is sent for the block of the literal in every writer in which a
paragraph can start, and the content in the graph of a document that has only this block. -/
theorem codeBlock_verbatim (literal : String) :
    ∃ text : String, (literal = text ++ "\n" ∨ literal = text ∧ literal.toList.getLast? ≠ some '\n') ∧
      ∀ (o : Options) (info : Option String), ∃ parts : List CodePart, Shows o.lineJoin text parts ∧
        (∀ (target : Target) (theme : Style.Theme) (before : List Step) (w : Writer),
          (Write.startObjectOf .paragraph).run ((target.writer theme).run before) = .ok () w →
          ∃ (style : ItemPhrase) (w' : Writer) (k : Sink),
            (renderBlock .builtIn o (.ofLiteral info literal)).run ((target.writer theme).run before) = .ok () w' ∧
            w'.sent.toList =
              w.sent.toList ++ membersSignals (codeMembers style (parts.map CodePart.item)) ++ [.endObject] ∧
            target.sink.receiveAll w'.sent.toList = .ok k) ∧
        documentGraph .builtIn o [.ofLiteral info literal] = .ok ⟨documentNamespaces o, (ObjectPhrase.mk .flowDocument
          (styleMember o.theme .flowDocument .document ++ contentMember .flowDocument [.object (.mk .paragraph
            (styleMember o.theme .paragraph .codeBlock ++
              contentMember .paragraph (parts.map CodePart.item)))])).object⟩ := by
  obtain ⟨text, kept, made⟩ := Block.ofLiteral_eq literal
  refine ⟨text, kept, fun o info => ⟨codeParts o.lineJoin ((Block.linesOf text.toList).map String.ofList),
    shows_codeParts o.lineJoin text, fun target theme before w started => ?_, ?_⟩⟩
  · rw [made, ← codeItems_eq]
    exact codeBlock_written target theme before o info _ started
  · rw [made, ← codeItems_eq]
    exact documentGraph_of_leaves (leaves_codeBlock o info _)

/-- An empty line at the end, joined by line breaks in markup. -/
theorem codeBlock_verbatim_emptyLine :
    ∃ (parts : List CodePart) (w w' : Writer) (style : ItemPhrase), Shows .lineBreak "a\n" parts ∧
      (Write.startObjectOf .paragraph).run (Target.markup.writer {}) = .ok () w ∧
      (renderBlock .builtIn { lineJoin := .lineBreak } (.ofLiteral none "a\n\n")).run (Target.markup.writer {}) =
        .ok () w' ∧
      w'.sent.toList =
        w.sent.toList ++ membersSignals (codeMembers style (parts.map CodePart.item)) ++ [.endObject] := by
  obtain ⟨text, kept, shown⟩ := codeBlock_verbatim "a\n\n"
  obtain rfl : text = "a\n" := by
    rcases kept with kept | ⟨-, other⟩
    · exact (String.append_left_inj "\n").mp kept.symm
    · exact absurd rfl other
  obtain ⟨parts, shows, written, -⟩ := shown { lineJoin := .lineBreak } none
  obtain ⟨style, w', -, run, sent, -⟩ := written .markup {} [] _ rfl
  exact ⟨parts, _, w', style, shows, rfl, run, sent⟩

end FlowDoc.Render
