import FlowDoc.Proofs.Render.Ending
import FlowDoc.Proofs.Render.VisibleText

/-!
# Rendering without handlers

Where no kind has a handler every node falls back. The literals of a document are its texts and the code in its lines,
each with whether it stands in a table (`literalsBlocks`). What remains of a document is a paragraph for each run of
inlines outside tables (`remainingBlocks`), so its text is made of the literals outside tables, and has all of them
exactly if those in tables are blank (**`documentGraph_noHandlers`**).
-/

namespace FlowDoc.Render

open Xaml
open Text (Flow ink flowText)

/-! ## Literals -/

mutual

/-- The texts and the code of an inline, in order. -/
def literalsInline : Inline → List String
  | .text s => [s]
  | .code s => [s]
  | .emphasis _ _ children => literalsInlines children
  | .delimiter _ children => literalsInlines children
  | .link _ _ _ children => literalsInlines children
  | .custom _ children => literalsInlines children
  | .lineBreak _ | .autolink _ _ | .raw _ | .task _ => []

def literalsInlines : List Inline → List String
  | [] => []
  | i :: is => literalsInline i ++ literalsInlines is

end

/-- A literal of a document. -/
structure Literal where
  text : String
  inTable : Bool

/-- Literals that all stand in a table, or all outside. -/
def literalsOf (inTable : Bool) (texts : List String) : List Literal := texts.map (⟨·, inTable⟩)

mutual

/-- The literals of a block, in order. -/
def literalsBlock (inTable : Bool) : Block → List Literal
  | .paragraph inlines => literalsOf inTable (literalsInlines inlines)
  | .heading _ inlines => literalsOf inTable (literalsInlines inlines)
  | .list _ _ items => literalsItems inTable items
  | .quote blocks => literalsBlocks inTable blocks
  | .table _ rows => literalsRows rows
  | .custom _ blocks inlines => literalsBlocks inTable blocks ++ literalsOf inTable (literalsInlines inlines)
  | .codeBlock _ _ | .thematicBreak | .html _ => []

def literalsBlocks (inTable : Bool) : List Block → List Literal
  | [] => []
  | b :: bs => literalsBlock inTable b ++ literalsBlocks inTable bs

def literalsItems (inTable : Bool) : List (List Block) → List Literal
  | [] => []
  | i :: is => literalsBlocks inTable i ++ literalsItems inTable is

def literalsRows : List (Row Block) → List Literal
  | [] => []
  | r :: rs => literalsRow r ++ literalsRows rs

def literalsRow : Row Block → List Literal
  | ⟨_, cells⟩ => literalsCells cells

def literalsCells : List (Cell Block) → List Literal
  | [] => []
  | c :: cs => literalsCell c ++ literalsCells cs

def literalsCell : Cell Block → List Literal
  | ⟨_, _, _, blocks⟩ => literalsBlocks true blocks

end

/-- What is seen of literals: all that is no white space. -/
def inkOfLiterals (ls : List Literal) : List Char := ls.flatMap fun l => ink l.text

/-- The literals outside tables. -/
def outsideTables (ls : List Literal) : List Literal := ls.filter (!·.inTable)

theorem inkOfLiterals_append (ls ks : List Literal) :
    inkOfLiterals (ls ++ ks) = inkOfLiterals ls ++ inkOfLiterals ks := List.flatMap_append

theorem outsideTables_append (ls ks : List Literal) :
    outsideTables (ls ++ ks) = outsideTables ls ++ outsideTables ks := List.filter_append ls ks

theorem outsideTables_literalsOf (inTable : Bool) (texts : List String) :
    outsideTables (literalsOf inTable texts) = if inTable then [] else literalsOf inTable texts := by
  cases inTable <;> simp [outsideTables, literalsOf]

theorem inkOfLiterals_literalsOf (inTable : Bool) (texts : List String) :
    inkOfLiterals (literalsOf inTable texts) = ink (String.join texts) := by
  induction texts with
  | nil => rfl
  | cons s texts ih =>
    rw [String.join_cons, Text.ink_append, ← ih]
    rfl

/-- In a list of literals those outside tables are no more than all, and all exactly if the others are blank. -/
theorem inkOfLiterals_outside_eq_iff (ls : List Literal) :
    (inkOfLiterals (outsideTables ls)).length ≤ (inkOfLiterals ls).length ∧
      (inkOfLiterals (outsideTables ls) = inkOfLiterals ls ↔ ∀ l ∈ ls, l.inTable = true → ink l.text = []) := by
  induction ls with
  | nil => simp [inkOfLiterals, outsideTables]
  | cons l ls ih =>
    obtain ⟨short, ih⟩ := ih
    have all : inkOfLiterals (l :: ls) = ink l.text ++ inkOfLiterals ls := rfl
    cases hl : l.inTable with
    | false =>
      have kept : inkOfLiterals (outsideTables (l :: ls)) = ink l.text ++ inkOfLiterals (outsideTables ls) := by
        simp [inkOfLiterals, outsideTables, hl]
      rw [kept, all, List.append_cancel_left_eq, ih]
      simp [hl, short]
    | true =>
      have left : inkOfLiterals (outsideTables (l :: ls)) = inkOfLiterals (outsideTables ls) := by
        simp [outsideTables, hl]
      rw [left, all]
      constructor
      · simp only [List.length_append]
        omega
      · constructor
        · intro same
          have blank : ink l.text = [] := by
            have lengths := congrArg List.length same
            rw [List.length_append] at lengths
            exact List.length_eq_zero_iff.mp (by omega)
          rw [blank, List.nil_append, ih] at same
          intro k hk hin
          rcases List.mem_cons.mp hk with rfl | hk
          · exact blank
          · exact same k hk hin
        · intro blank
          rw [blank l List.mem_cons_self hl, List.nil_append, ih]
          exact fun k hk => blank k (List.mem_cons_of_mem l hk)

mutual

/-- What stands in a table within a table stands in a table. -/
theorem outsideTables_literalsBlock : ∀ b : Block, outsideTables (literalsBlock true b) = []
  | .paragraph inlines | .heading _ inlines => outsideTables_literalsOf true _
  | .list _ _ items => outsideTables_literalsItems items
  | .quote blocks => outsideTables_literalsBlocks blocks
  | .table _ rows => outsideTables_literalsRows rows
  | .custom _ blocks inlines => by
    rw [literalsBlock, outsideTables_append, outsideTables_literalsBlocks, outsideTables_literalsOf]
    rfl
  | .codeBlock _ _ | .thematicBreak | .html _ => rfl

theorem outsideTables_literalsBlocks : ∀ bs : List Block, outsideTables (literalsBlocks true bs) = []
  | [] => rfl
  | b :: bs => by
    rw [literalsBlocks, outsideTables_append, outsideTables_literalsBlock b, outsideTables_literalsBlocks bs]
    rfl

theorem outsideTables_literalsItems : ∀ items : List (List Block), outsideTables (literalsItems true items) = []
  | [] => rfl
  | i :: is => by
    rw [literalsItems, outsideTables_append, outsideTables_literalsBlocks i, outsideTables_literalsItems is]
    rfl

theorem outsideTables_literalsRows : ∀ rows : List (Row Block), outsideTables (literalsRows rows) = []
  | [] => rfl
  | r :: rs => by
    rw [literalsRows, outsideTables_append, outsideTables_literalsRow r, outsideTables_literalsRows rs]
    rfl

theorem outsideTables_literalsRow : ∀ r : Row Block, outsideTables (literalsRow r) = []
  | ⟨_, cells⟩ => outsideTables_literalsCells cells

theorem outsideTables_literalsCells : ∀ cells : List (Cell Block), outsideTables (literalsCells cells) = []
  | [] => rfl
  | c :: cs => by
    rw [literalsCells, outsideTables_append, outsideTables_literalsCell c, outsideTables_literalsCells cs]
    rfl

theorem outsideTables_literalsCell : ∀ c : Cell Block, outsideTables (literalsCell c) = []
  | ⟨_, _, _, blocks⟩ => outsideTables_literalsBlocks blocks

end

/-! ## What remains -/

/-- Literals as they are put into a collection. -/
def literalFlow (texts : List String) : List (Flow ObjectPhrase) := texts.map .text

/-- What remains of inlines among blocks: a paragraph with their literals. -/
def remainingInlines : List Inline → List ObjectPhrase
  | [] => []
  | i :: is => [.mk .paragraph (contentMember .paragraph (collapsedItems (literalFlow (literalsInlines (i :: is)))))]

mutual

/-- What remains of a block: what is in it, without a wrapper; nothing of a table. -/
def remainingBlock : Block → List ObjectPhrase
  | .paragraph inlines => remainingInlines inlines
  | .heading _ inlines => remainingInlines inlines
  | .list _ _ items => remainingItems items
  | .quote blocks => remainingBlocks blocks
  | .custom _ blocks inlines => remainingBlocks blocks ++ remainingInlines inlines
  | .codeBlock _ _ | .thematicBreak | .table _ _ | .html _ => []

def remainingBlocks : List Block → List ObjectPhrase
  | [] => []
  | b :: bs => remainingBlock b ++ remainingBlocks bs

def remainingItems : List (List Block) → List ObjectPhrase
  | [] => []
  | i :: is => remainingBlocks i ++ remainingItems is

end

/-! ### Its text -/

theorem flowText_literalFlow (texts : List String) : flowText objectText (literalFlow texts) = String.join texts := by
  induction texts with
  | nil => rfl
  | cons s texts ih =>
    have rest : flowText objectText (texts.map .text) = String.join texts := ih
    simp [literalFlow, rest, Flow.read]

theorem ink_remainingInlines (inlines : List Inline) :
    ink (objectsText (remainingInlines inlines)) = ink (String.join (literalsInlines inlines)) := by
  cases inlines with
  | nil => rfl
  | cons i is =>
    simp [remainingInlines, phraseText_content .paragraph (by decide), ink_collapsedItems, flowText_literalFlow]

mutual

/-- What remains of a block has the ink of its literals outside tables. -/
theorem ink_remainingBlock : ∀ b : Block,
    ink (objectsText (remainingBlock b)) = inkOfLiterals (outsideTables (literalsBlock false b))
  | .paragraph inlines | .heading _ inlines => by
    rw [remainingBlock, literalsBlock, ink_remainingInlines, outsideTables_literalsOf, if_neg Bool.false_ne_true,
      inkOfLiterals_literalsOf]
  | .list _ _ items => ink_remainingItems items
  | .quote blocks => ink_remainingBlocks blocks
  | .table _ rows => by
    rw [literalsBlock, outsideTables_literalsRows]
    rfl
  | .custom _ blocks inlines => by
    rw [remainingBlock, literalsBlock, objectsText_append, Text.ink_append, ink_remainingBlocks, ink_remainingInlines,
      outsideTables_append, inkOfLiterals_append, outsideTables_literalsOf, if_neg Bool.false_ne_true,
      inkOfLiterals_literalsOf]
  | .codeBlock _ _ | .thematicBreak | .html _ => rfl

theorem ink_remainingBlocks : ∀ bs : List Block,
    ink (objectsText (remainingBlocks bs)) = inkOfLiterals (outsideTables (literalsBlocks false bs))
  | [] => rfl
  | b :: bs => by
    rw [remainingBlocks, literalsBlocks, objectsText_append, Text.ink_append, ink_remainingBlock, ink_remainingBlocks,
      outsideTables_append, inkOfLiterals_append]

theorem ink_remainingItems : ∀ items : List (List Block),
    ink (objectsText (remainingItems items)) = inkOfLiterals (outsideTables (literalsItems false items))
  | [] => rfl
  | i :: is => by
    rw [remainingItems, literalsItems, objectsText_append, Text.ink_append, ink_remainingBlocks, ink_remainingItems,
      outsideTables_append, inkOfLiterals_append]

end

/-! ### Writing it -/

/-- A collection takes what an operation writes, and the operation does not fail. -/
structure Leaves (theme : Style.Theme) (m : Write Unit) (flow : List (Flow ObjectPhrase)) : Prop where
  puts : Puts theme m flow
  ends : Ends .native .items m none

variable {theme : Style.Theme} {m n : Write Unit} {flow flow' : List (Flow ObjectPhrase)}

theorem Leaves.nil : Leaves theme (pure ()) [] := ⟨.nil, .nothing⟩

theorem Leaves.andThen (hm : Leaves theme m flow) (hn : Leaves theme n flow') :
    Leaves theme (do m; n) (flow ++ flow') := ⟨hm.puts.bind hn.puts, hm.ends.andThen hn.ends⟩

theorem Leaves.text (s : String) : Leaves theme (Write.text s) (literalFlow [s]) := ⟨.text s, .gather .writeText s⟩

theorem Leaves.paragraph {ws : List (Write Unit)} (hw : Leaves theme (inOrder ws) flow) :
    Leaves theme (object .paragraph (content false ws))
      [.child (.mk .paragraph (contentMember .paragraph (collapsedItems flow)))] where
  puts := .object (content_false hw.puts)
  ends := by
    have found : faultOf (getContent .paragraph) = none := rfl
    have body : Ends .native (.object .paragraph) (content false ws) _ := .content false hw.ends
    rw [found, Option.none_or] at body
    exact body.object

mutual

/-- An inline without a handler leaves its literals. -/
theorem leaves_inline (o : Options) : ∀ i : Inline, Leaves theme (renderInline {} o i) (literalFlow (literalsInline i))
  | .text s => .text s
  | .code s => .text s
  | .emphasis _ _ children | .delimiter _ children | .link _ _ _ children | .custom _ children =>
    leaves_inlines o children
  | .lineBreak _ | .autolink _ _ | .raw _ | .task _ => .nil

theorem leaves_inlines (o : Options) : ∀ is : List Inline,
    Leaves theme (inOrder (renderInlines {} o is)) (literalFlow (literalsInlines is))
  | [] => .nil
  | i :: is => by
    rw [literalsInlines, literalFlow, List.map_append]
    exact (leaves_inline o i).andThen (leaves_inlines o is)

end

theorem leaves_wrapInlines (o : Options) : ∀ is : List Inline,
    Leaves theme (wrapInlines (renderInlines {} o is)) ((remainingInlines is).map .child)
  | [] => .nil
  | i :: is => (leaves_inlines o (i :: is)).paragraph

mutual

/-- A block without a handler leaves what remains of it. -/
theorem leaves_block (o : Options) : ∀ b : Block, Leaves theme (renderBlock {} o b) ((remainingBlock b).map .child)
  | .paragraph inlines | .heading _ inlines => leaves_wrapInlines o inlines
  | .list _ _ items => leaves_items o items
  | .quote blocks => leaves_blocks o blocks
  | .custom _ blocks inlines => by
    rw [remainingBlock, List.map_append]
    exact (leaves_blocks o blocks).andThen (leaves_wrapInlines o inlines)
  | .codeBlock _ _ | .thematicBreak | .table _ _ | .html _ => .nil

theorem leaves_blocks (o : Options) : ∀ bs : List Block,
    Leaves theme (inOrder (renderBlocks {} o bs)) ((remainingBlocks bs).map .child)
  | [] => .nil
  | b :: bs => by
    rw [remainingBlocks, List.map_append]
    exact (leaves_block o b).andThen (leaves_blocks o bs)

theorem leaves_items (o : Options) : ∀ items : List (List Block),
    Leaves theme (inOrder (renderItems {} o items).flatten) ((remainingItems items).map .child)
  | [] => .nil
  | i :: is => by
    rw [renderItems, List.flatten_cons, inOrder_append, remainingItems, List.map_append]
    exact (leaves_blocks o i).andThen (leaves_items o is)

end

/-! ## Documents -/

/-- If the blocks of a document leave objects, it has a graph, with these in the root. -/
theorem documentGraph_of_leaves {h : Handlers} {o : Options} {d : Document} {objects : List ObjectPhrase}
    (blocks : Leaves o.theme (inOrder (renderBlocks h o d)) (objects.map .child)) :
    documentGraph h o d = .ok ⟨documentNamespaces o, (ObjectPhrase.mk .flowDocument
      (styleMember o.theme .flowDocument .document ++ contentMember .flowDocument (objectItems objects))).object⟩ := by
  have built : Builds o.theme .flowDocument _ _ := (Builds.style .document).bind (content_objects blocks.puts)
  have ends : Ends .native (.object .flowDocument) (do Write.style .document; content false (renderBlocks h o d))
      none := by
    have style : Ends .native (.object .flowDocument) (Write.style .document) none :=
      Ends.resource (.name "Style") (.role .document)
    have content : Ends .native (.object .flowDocument) (content false (renderBlocks h o d)) none :=
      Ends.content false blocks.ends
    exact style.andThen content
  obtain ⟨g, root, run, -, closed, -⟩ : DocumentEnds h o .native d none := writeDocument_ends ends
  have sent : documentSignals h o .native d = .ok g.signals := by
    simp [documentSignals, run, Writer.finish, Draft.writer, closed]
  have phrase := documentSignals_of_builds built sent
  have received : (do Graph.ofSignals (← documentSignals h o .native d)) = Graph.ofSignals g.signals := by
    rw [sent]
    rfl
  rw [documentGraph, received, phrase, Graph.ofSignals_phrase]

/-- The root of a document without handlers. -/
def remainingRoot (o : Options) (d : Document) : ObjectPhrase :=
  .mk .flowDocument (styleMember o.theme .flowDocument .document ++
    contentMember .flowDocument (objectItems (remainingBlocks d)))

/-- Without handlers every document has a graph. -/
theorem documentGraph_remaining (o : Options) (d : Document) :
    documentGraph {} o d = .ok ⟨documentNamespaces o, (remainingRoot o d).object⟩ :=
  documentGraph_of_leaves (leaves_blocks o d)

/-- **The text of a document without handlers.** Whatever the options, the graph of a document has the ink of the
literals outside tables, in order; it has that of all literals exactly if those in tables are blank. -/
theorem documentGraph_noHandlers (o : Options) (d : Document) :
    ∃ g, documentGraph {} o d = .ok g ∧
      ink g.root.text = inkOfLiterals (outsideTables (literalsBlocks false d)) ∧
      (ink g.root.text = inkOfLiterals (literalsBlocks false d) ↔
        ∀ l ∈ literalsBlocks false d, l.inTable = true → ink l.text = []) := by
  refine ⟨_, documentGraph_remaining o d, ?_⟩
  have root : (remainingRoot o d).object.text = objectsText (remainingBlocks d) := by
    have text : (remainingRoot o d).object.text = objectText (remainingRoot o d) := rfl
    rw [text, remainingRoot]
    simp [phraseText_content .flowDocument (by decide), itemsText_objectItems]
  rw [root, ink_remainingBlocks]
  exact ⟨rfl, (inkOfLiterals_outside_eq_iff _).2⟩

/-- A table with a word in its only cell. -/
def wordInTable : Document := [.table [] [⟨false, [⟨none, 1, 1, [.paragraph [.text "a"]]⟩]⟩]]

/-- Without handlers the word is lost, though the same word in a quote is kept. -/
theorem noHandlers_loses_cell :
    (documentGraph {} {} wordInTable).toOption.map (ink ·.root.text) = some [] ∧
      inkOfLiterals (literalsBlocks false wordInTable) = ['a'] ∧
      (documentGraph {} {} [.quote [.paragraph [.text "a"]]]).toOption.map (ink ·.root.text) = some ['a'] := by
  decide +kernel

end FlowDoc.Render
