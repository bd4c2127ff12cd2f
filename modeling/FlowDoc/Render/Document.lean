import FlowDoc.Render.Blocks
import FlowDoc.Render.Inlines
import FlowDoc.Xaml.Builder
import FlowDoc.Xaml.Markup

/-!
# Rendering documents

The built-in handlers, and the whole of a document: the namespaces, the root with its style, and the blocks in order.
The stream of events is what all outputs are made from: a record of it, an object graph, or markup.
-/

namespace FlowDoc.Render

open Xaml

/-- The handlers of all built-in kinds. -/
def Handlers.builtIn : Handlers where
  blocks := [("paragraph", paragraph), ("heading", heading), ("code_block", codeBlock), ("list", list),
    ("quote", quote), ("thematic_break", thematicBreak), ("table", table), ("html", htmlBlock)]
  inlines := [("text", text), ("line_break", lineBreak), ("code", code), ("emphasis", emphasis),
    ("delimiter", delimiter), ("link", link), ("autolink", autolink), ("raw", rawInline), ("task_list", taskMarker)]

/-- Write a document. -/
def writeDocument (h : Handlers) (o : Options) (d : Document) : Write Unit := do
  Write.declareNamespace "" presentationNamespace
  Write.declareNamespace "x" languageNamespace
  Write.declareNamespace o.theme.keyClass.pre o.theme.keyClass.namespaceUri
  object .flowDocument do
    Write.style .document
    content false (renderBlocks h o d)

/-- The events of a document, for a receiver of typed values or of their spelling. -/
def documentSignals (h : Handlers) (o : Options) (mode : ValueMode) (d : Document) :
    Except RenderError (List Signal) :=
  match (writeDocument h o d).run { mode, theme := o.theme } with
  | .ok _ w => w.finish
  | .error e _ => .error e

/-- The record of a document's events. -/
def documentEvents (h : Handlers) (o : Options) (mode : ValueMode) (d : Document) : Except RenderError (List Event) :=
  (documentSignals h o mode d).map (·.map Event.ofSignal)

/-- The object graph of a document, with typed values. -/
def documentGraph (h : Handlers) (o : Options) (d : Document) : Except RenderError Graph := do
  Graph.ofSignals (← documentSignals h o .native d)

/-- The markup of a document. -/
def documentMarkup (h : Handlers) (o : Options) (indent : Nat) (d : Document) : Except RenderError String := do
  return (← Graph.ofSignals (← documentSignals h o .text d)).markup indent

end FlowDoc.Render
