import FlowDoc.Document
import FlowDoc.Render.Options
import FlowDoc.Xaml.Writer

/-!
# Handlers

A node is rendered by the handler of its kind, or by a fallback. A handler sees a node's shape: the node with each
child replaced by what writes it, so it decides where its children are written and cannot look into them.
-/

namespace FlowDoc.Render

open Xaml

/-- An inline with `ι` in place of its children. -/
inductive InlineShape (ι : Type)
  | text (s : String)
  | lineBreak (hard : Bool)
  | code (s : String)
  | emphasis (delimiter : Char) (count : Nat) (children : List ι)
  | delimiter (literal : String) (children : List ι)
  | link (url : String) (title : Option String) (isImage : Bool) (children : List ι)
  | autolink (url : String) (isEmail : Bool)
  | raw (s : String)
  | task (checked : Bool)
  | custom (kind : String) (children : List ι)

/-- A block with `β` in place of its blocks and `ι` in place of its inlines. -/
inductive BlockShape (β ι : Type)
  | paragraph (inlines : List ι)
  | heading (level : Nat) (inlines : List ι)
  | codeBlock (info : Option String) (lines : List String)
  | list (ordered : Bool) (start : Option Nat) (items : List (List β))
  | quote (blocks : List β)
  | thematicBreak
  | table (columns : List Column) (rows : List (Row β))
  | html (literal : String)
  | custom (kind : String) (blocks : List β) (inlines : List ι)

/-- What writes an inline, given what writes its children. -/
abbrev InlineHandler := Options → InlineShape (Write Unit) → Write Unit

/-- What writes a block, given what writes its children. -/
abbrev BlockHandler := Options → BlockShape (Write Unit) (Write Unit) → Write Unit

/-- The handlers by kind; of two for one kind the first counts. -/
structure Handlers where
  blocks : List (String × BlockHandler) := []
  inlines : List (String × InlineHandler) := []

namespace Handlers

def block? (h : Handlers) (kind : String) : Option BlockHandler := h.blocks.lookup kind

def inline? (h : Handlers) (kind : String) : Option InlineHandler := h.inlines.lookup kind

/-- Add the handler of a block kind, in place of one that is there. -/
def withBlock (h : Handlers) (kind : String) (handler : BlockHandler) : Handlers :=
  { h with blocks := (kind, handler) :: h.blocks }

/-- Add the handler of an inline kind, in place of one that is there. -/
def withInline (h : Handlers) (kind : String) (handler : InlineHandler) : Handlers :=
  { h with inlines := (kind, handler) :: h.inlines }

end Handlers

/-! ## Parts of handlers -/

/-- Write one thing after the other. -/
def inOrder : List (Write Unit) → Write Unit
  | [] => pure ()
  | w :: ws => do
    w
    inOrder ws

theorem inOrder_append (ws vs : List (Write Unit)) : inOrder (ws ++ vs) = inOrder ws >>= fun _ => inOrder vs := by
  induction ws with
  | nil => rfl
  | cons w ws ih => simp [inOrder, ih]

/-- Write an object. -/
def object (type : ElementType) (body : Write Unit) : Write Unit := do
  Write.startObjectOf type
  body
  Write.endObject

/-- Write the content collection of the innermost object. -/
def content (preserve : Bool) (items : List (Write Unit)) : Write Unit := do
  Write.startContent preserve
  inOrder items
  Write.endItems

/-- A handler met a node that is not of its kind. -/
def mismatch (kind : String) : Write Unit := throw (.handlerMismatch kind)

/-! ## Fallbacks -/

/-- Inlines without a block of their own go into a paragraph. -/
def wrapInlines : List (Write Unit) → Write Unit
  | [] => pure ()
  | inlines => object .paragraph (content false inlines)

/-- A block without a handler: its children remain. -/
def fallbackBlock : BlockShape (Write Unit) (Write Unit) → Write Unit
  | .paragraph inlines => wrapInlines inlines
  | .heading _ inlines => wrapInlines inlines
  | .list _ _ items => inOrder items.flatten
  | .quote blocks => inOrder blocks
  | .custom _ blocks inlines => do
    inOrder blocks
    wrapInlines inlines
  | .codeBlock _ _ | .thematicBreak | .table _ _ | .html _ => pure ()

/-- An inline without a handler: its text or its children remain. -/
def fallbackInline : InlineShape (Write Unit) → Write Unit
  | .text s => Write.text s
  | .code s => Write.text s
  | .emphasis _ _ children => inOrder children
  | .delimiter _ children => inOrder children
  | .link _ _ _ children => inOrder children
  | .custom _ children => inOrder children
  | .lineBreak _ | .autolink _ _ | .raw _ | .task _ => pure ()

/-! ## Dispatch -/

/-- Write a block of a kind. -/
def handleBlock (h : Handlers) (o : Options) (kind : String) (s : BlockShape (Write Unit) (Write Unit)) : Write Unit :=
  match h.block? kind with
  | some handler => handler o s
  | none => fallbackBlock s

/-- Write an inline of a kind. -/
def handleInline (h : Handlers) (o : Options) (kind : String) (s : InlineShape (Write Unit)) : Write Unit :=
  match h.inline? kind with
  | some handler => handler o s
  | none => fallbackInline s

mutual

/-- What writes an inline. -/
def renderInline (h : Handlers) (o : Options) : Inline → Write Unit
  | .text s => handleInline h o "text" (.text s)
  | .lineBreak hard => handleInline h o "line_break" (.lineBreak hard)
  | .code s => handleInline h o "code" (.code s)
  | .emphasis c n children => handleInline h o "emphasis" (.emphasis c n (renderInlines h o children))
  | .delimiter s children => handleInline h o "delimiter" (.delimiter s (renderInlines h o children))
  | .link url title isImage children => handleInline h o "link" (.link url title isImage (renderInlines h o children))
  | .autolink url isEmail => handleInline h o "autolink" (.autolink url isEmail)
  | .raw s => handleInline h o "raw" (.raw s)
  | .task checked => handleInline h o "task_list" (.task checked)
  | .custom kind children => handleInline h o kind (.custom kind (renderInlines h o children))

def renderInlines (h : Handlers) (o : Options) : List Inline → List (Write Unit)
  | [] => []
  | i :: is => renderInline h o i :: renderInlines h o is

end

mutual

/-- What writes a block. -/
def renderBlock (h : Handlers) (o : Options) : Block → Write Unit
  | .paragraph inlines => handleBlock h o "paragraph" (.paragraph (renderInlines h o inlines))
  | .heading level inlines => handleBlock h o "heading" (.heading level (renderInlines h o inlines))
  | .codeBlock info lines => handleBlock h o "code_block" (.codeBlock info lines)
  | .list ordered start items => handleBlock h o "list" (.list ordered start (renderItems h o items))
  | .quote blocks => handleBlock h o "quote" (.quote (renderBlocks h o blocks))
  | .thematicBreak => handleBlock h o "thematic_break" .thematicBreak
  | .table columns rows => handleBlock h o "table" (.table columns (renderRows h o rows))
  | .html literal => handleBlock h o "html" (.html literal)
  | .custom kind blocks inlines =>
    handleBlock h o kind (.custom kind (renderBlocks h o blocks) (renderInlines h o inlines))

def renderBlocks (h : Handlers) (o : Options) : List Block → List (Write Unit)
  | [] => []
  | b :: bs => renderBlock h o b :: renderBlocks h o bs

def renderItems (h : Handlers) (o : Options) : List (List Block) → List (List (Write Unit))
  | [] => []
  | i :: is => renderBlocks h o i :: renderItems h o is

def renderRows (h : Handlers) (o : Options) : List (Row Block) → List (Row (Write Unit))
  | [] => []
  | r :: rs => renderRow h o r :: renderRows h o rs

def renderRow (h : Handlers) (o : Options) : Row Block → Row (Write Unit)
  | ⟨isHeader, cells⟩ => ⟨isHeader, renderCells h o cells⟩

def renderCells (h : Handlers) (o : Options) : List (Cell Block) → List (Cell (Write Unit))
  | [] => []
  | c :: cs => renderCell h o c :: renderCells h o cs

def renderCell (h : Handlers) (o : Options) : Cell Block → Cell (Write Unit)
  | ⟨column, columnSpan, rowSpan, blocks⟩ => ⟨column, columnSpan, rowSpan, renderBlocks h o blocks⟩

end

end FlowDoc.Render
