import FlowDoc.Format.Basic
import FlowDoc.Markdown.ToDocument
import FlowDoc.Render.Document

/-!
# Built-in formats

Markdown is read; markup, the object graph and the stream of events are written.
-/

namespace FlowDoc.Format

open Render

/-- Output that may fail in rendering. -/
def rendered (r : Except RenderError String) : Except FormatError String := r.mapError .render

/-- Markdown with some of its extensions. -/
def markdown (x : Markdown.Extensions) : Format where
  name := "markdown"
  description := "CommonMark Markdown with GFM extensions"
  extensions := ["md", "markdown"]
  parses := true
  parse source := (Markdown.read x source).mapError fun fault => .unreadable fault.text

/-- The markup of a document. -/
def xaml (o : Options) (indent : Nat) : Format where
  name := "xaml"
  description := "WPF FlowDocument markup"
  extensions := ["xaml"]
  serializes := true
  serialize d := rendered (documentMarkup .builtIn o indent d)

/-- The object graph of a document. -/
def json (o : Options) : Format where
  name := "json"
  description := "Rendered object graph as JSON"
  extensions := ["json"]
  serializes := true
  serialize d := rendered ((documentGraph .builtIn o d).map fun g => g.json.pretty)

/-- The events that a document is written with. -/
def events (o : Options) : Format where
  name := "events"
  description := "Writer event stream (debugging)"
  extensions := ["events"]
  serializes := true
  serialize d := rendered ((documentEvents .builtIn o .native d).map Xaml.outline)

end FlowDoc.Format
