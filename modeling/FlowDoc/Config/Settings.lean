import FlowDoc.Config.Decode
import FlowDoc.Format.Registry

/-!
# Settings

What a configuration says, and what it says it for: the options of rendering and the registry of formats.
-/

namespace FlowDoc.Config

/-- The settings of a conversion. -/
structure Settings where
  markdown : Markdown.Extensions := {}
  /-- The address that relative targets are joined to, as written. -/
  baseUri : Option String := none
  lineJoin : Render.LineJoin := .newline
  rawMarkup : Render.RawMarkup := .skip
  /-- Resource keys in place of the built-in ones, by role name. -/
  styles : List (String × String) := []
  keyClass : Style.KeyClass := {}
  /-- The format written if none is asked for. -/
  format : String := "xaml"
  indent : Nat := 2

namespace Settings

/-! ## Reading -/

open Section

def markdownOf : Decoder Markdown.Extensions := fun v => do
  let s ← Section.ofValue v
  let tables ← s.field? 0 "tables" .bool
  let strikethrough ← s.field? 1 "strikethrough" .bool
  let autolink ← s.field? 2 "autolink" .bool
  let tasklist ← s.field? 3 "tasklist" .bool
  let superscript ← s.field? 4 "superscript" .bool
  let frontMatter ← s.field? 5 "front_matter" .bool
  return {
    tables := ← require tables
    strikethrough := ← require strikethrough
    autolink := ← require autolink
    tasklist := ← require tasklist
    superscript := ← require superscript
    frontMatter := ← require frontMatter }

/-- The names of the ways to join lines. -/
def lineJoins : List (String × Render.LineJoin) := [("newline", .newline), ("line-break", .lineBreak)]

/-- The names of what becomes of raw markup. -/
def rawMarkups : List (String × Render.RawMarkup) := [("replay", .replay), ("text", .text), ("skip", .skip)]

def renderOf : Decoder (Option String × Render.LineJoin × Render.RawMarkup) := fun v => do
  let s ← Section.ofValue v
  let baseUri ← s.field? 0 "base_uri" (.optional .text)
  let lineJoin ← s.field? 1 "code_line_join" (.oneOf lineJoins)
  let rawMarkup ← s.field? 2 "raw_markup" (.oneOf rawMarkups)
  return (baseUri.join, ← require lineJoin, ← require rawMarkup)

def keyClassOf : Decoder Style.KeyClass := fun v => do
  let s ← Section.ofValue v
  let typeName ← s.field? 0 "type_name" .text
  let pre ← s.field? 1 "prefix" .text
  let clrNamespace ← s.field? 2 "clr_namespace" .text
  let assembly ← s.field? 3 "assembly" .text
  return {
    typeName := ← require typeName
    pre := ← require pre
    clrNamespace := ← require clrNamespace
    assembly := ← require assembly }

def outputOf : Decoder (String × Nat) := fun v => do
  let s ← Section.ofValue v
  let format ← s.field? 0 "format" .text
  let indent ← s.field? 1 "indent" .nat
  return (← require format, ← require indent)

/-- The settings in a value. Fields that are not known do not count. -/
def ofValue : Decoder Settings := fun v => do
  let s ← Section.ofValue v
  let markdown ← s.field? 0 "markdown" markdownOf
  let render ← s.field? 1 "render" renderOf
  let styles ← s.field? 2 "styles" .texts
  let resources ← s.field? 3 "resources" keyClassOf
  let output ← s.field? 4 "output" outputOf
  let markdown ← require markdown
  let (baseUri, lineJoin, rawMarkup) ← require render
  let keyClass ← require resources
  let (format, indent) ← require output
  return { markdown, baseUri, lineJoin, rawMarkup, styles := styles.getD [], keyClass, format, indent }

/-! ## Use -/

/-- The options of rendering. An empty base address is none. -/
def options [Uri.Domains] (s : Settings) : Except RenderError Render.Options := do
  let overrides ← Style.Overrides.ofNames s.styles
  let o : Render.Options :=
    { domains := inferInstance, lineJoin := s.lineJoin, rawMarkup := s.rawMarkup
      theme := { overrides, keyClass := s.keyClass } }
  match s.baseUri with
  | none | some "" => return o
  | some uri => o.withBaseUri uri

/-- The built-in formats with these settings. -/
def registry [Uri.Domains] (s : Settings) : Except RenderError Registry := do
  return Registry.builtIn s.markdown (← s.options) s.indent

end Settings

end FlowDoc.Config
