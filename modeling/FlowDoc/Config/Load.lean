import FlowDoc.Config.Settings
import FlowDoc.Config.Toml.Document

/-!
# Loading a configuration

A configuration is made of layers: the built-in values, then files in their order, then single values set by their paths,
which win over every file. A later layer is merged into the earlier ones.
-/

namespace FlowDoc.Config

/-- The built-in values. -/
def builtIn : Entries Value := [
  ("markdown", .table [("tables", .bool true), ("strikethrough", .bool true), ("autolink", .bool true),
    ("tasklist", .bool true), ("superscript", .bool false), ("front_matter", .bool true)]),
  ("render", .table [("code_line_join", .text "newline"), ("raw_markup", .text "skip")]),
  ("styles", .table []),
  ("resources", .table [("type_name", .text "MarkdownXaml"), ("prefix", .text "xmarkdig"),
    ("clr_namespace", .text "Neo.Markdig.Xaml"), ("assembly", .text "Neo.Markdig.Xaml")]),
  ("output", .table [("format", .text "xaml"), ("indent", .int 2)])]

/-- Set an entry whose key is a path; one that is no path is a key as it is. -/
def Value.setEntry (target : Value) (entry : String × Value) : Value :=
  match KeyPath.ofString entry.1 with
  | .ok path => path.set entry.2 target
  | .error _ => Value.insert entry.1 entry.2 target

/-- Set all entries. -/
def Value.setEntries (target : Value) (es : Entries Value) : Value := es.foldl Value.setEntry target

/-! ## Layers -/

/-- A configuration file: what it holds, if it is there, and whether it must be. -/
structure File where
  contents : Option String
  required : Bool := true

/-- The entries of a file. -/
def File.entries (f : File) : Except ConfigError (Entries Value) :=
  match f.contents with
  | some source =>
    match Toml.parse? ((source.dropPrefix? "\uFEFF").map (·.toString) |>.getD source) with
    | some es => .ok es
    | none => .error .badFile
  | none => if f.required then .error .missingFile else .ok []

/-- The values set by their paths, one a path. -/
abbrev Assignments := List (KeyPath × Value)

namespace Assignments

/-- Set a value at a path, in the place of what the same path was set to. -/
def set (path : KeyPath) (v : Value) : Assignments → Assignments
  | [] => [(path, v)]
  | (p, w) :: rest => if p = path then (path, v) :: rest else (p, w) :: set path v rest

/-- Set a value at a path that is read from a text. -/
def setAt (as : Assignments) (path : String) (v : Value) : Except PathError Assignments := do
  return as.set (← KeyPath.ofString path) v

/-- Carry out all assignments in their order. -/
def apply (as : Assignments) (target : Value) : Value := as.foldl (fun t (path, v) => path.set v t) target

end Assignments

/-- The layers over the built-in one. -/
structure Layers where
  files : List File := []
  assignments : Assignments := []

namespace Layers

/-- The files over the built-in values. They are set together before they are set at the root, so that the keys of the
root are in lower case however they came there. -/
def base (files : List File) : Except ConfigError Value := do
  let merged ← files.foldlM (fun t f => do return Value.setEntries t (← f.entries))
    (Value.setEntries (.table []) builtIn)
  return Value.setEntries (.table []) merged.entries

/-- The value that all layers make. -/
def value (l : Layers) : Except ConfigError Value := do return l.assignments.apply (← base l.files)

/-- The settings that all layers make. -/
def settings (l : Layers) : Except ConfigError Settings := do Settings.ofValue (← l.value)

end Layers

end FlowDoc.Config
