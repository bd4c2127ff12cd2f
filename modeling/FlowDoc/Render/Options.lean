import FlowDoc.Style.Theme
import FlowDoc.Uri.Domain
import FlowDoc.Uri.Reference

/-!
# Options of rendering
-/

namespace FlowDoc.Render

/-- How the lines of a code block are joined. -/
inductive LineJoin
  /-- By line feeds inside one run. -/
  | newline
  /-- By line break objects between runs. -/
  | lineBreak
  deriving DecidableEq

/-- What becomes of raw markup. -/
inductive RawMarkup
  /-- It is read as a fragment and written as objects. -/
  | replay
  /-- It is written as text. -/
  | text
  /-- It is dropped. -/
  | skip
  deriving DecidableEq

structure Options where
  /-- How the domains in targets are mapped to ASCII. -/
  domains : Uri.Domains := Uri.lowerDomains
  /-- The address that relative targets are joined to. -/
  baseUri : Option Uri.Address := none
  lineJoin : LineJoin := .newline
  rawMarkup : RawMarkup := .skip
  theme : Style.Theme := {}

namespace Options

/-- Options with a base address read from a text. -/
def withBaseUri (o : Options) (uri : String) : Except RenderError Options :=
  (@Uri.parseBase o.domains uri).map fun a => { o with baseUri := some a }

/-- The target that is written for a link. -/
def navigate (o : Options) (url : String) : String := @Uri.navigate o.domains o.baseUri url

end Options

end FlowDoc.Render
