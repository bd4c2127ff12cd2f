import FlowDoc.Document
import FlowDoc.RenderError

/-!
# Formats

A format reads documents, writes them, or both. One that does not do a thing says so when it is asked to.
-/

namespace FlowDoc

/-- What a format may do. -/
inductive Direction
  | parsing
  | serialization
  deriving DecidableEq

namespace Direction

def label : Direction → String
  | parsing => "parsing"
  | serialization => "serialization"

end Direction

/-- Why a conversion failed. -/
inductive FormatError
  | unknownFormat (name : String)
  | unreadable (reason : String)
  | unwritable (reason : String)
  | unsupported (format : String) (direction : Direction)
  | render (e : RenderError)

namespace FormatError

def message : FormatError → String
  | unknownFormat name => s!"Format '{name}' not found"
  | unreadable reason => s!"Parse error: {reason}"
  | unwritable reason => s!"Serialization error: {reason}"
  | unsupported format direction =>
    s!"Operation not supported: Format '{format}' does not support {direction.label}"
  | render e => s!"Render error: {e.message}"

end FormatError

/-- A format of documents. -/
structure Format where
  name : String
  description : String := ""
  /-- The extensions of its files, without a full stop. -/
  extensions : List String := []
  parses : Bool := false
  serializes : Bool := false
  parse : String → Except FormatError Document := fun _ => .error (.unsupported name .parsing)
  serialize : Document → Except FormatError String := fun _ => .error (.unsupported name .serialization)

end FlowDoc
