import FlowDoc.Format.BuiltIn

/-!
# The registry of formats

Formats are known by their names, which are distinct: a format that is registered takes the place of one with its name.
The format of a file is known by the extension of its path, which is what follows the last full stop in the name of the
file; a name that only begins with a full stop has none.
-/

namespace FlowDoc

/-! ## File names -/

namespace Format

/-- The name of the file that a path leads to: its last part, if that is no step up. -/
def fileName? (path : List Char) : Option (List Char) :=
  match (path.splitOn '/').reverse.find? fun part => !part.isEmpty && part != ['.'] with
  | some name => if name == ['.', '.'] then none else some name
  | none => none

/-- The extension of a file name. -/
def extensionOf? (name : List Char) : Option (List Char) :=
  let ending := name.reverse.takeWhile (· != '.')
  if ending.length + 1 < name.length then some ending.reverse else none

/-- The extension of the file that a path leads to. -/
def extension? (path : String) : Option String := ((fileName? path.toList).bind extensionOf?).map String.ofList

end Format

/-! ## Formats -/

/-- The registered formats. -/
abbrev Registry := List Format

namespace Registry

/-- Register a format, in the place of one with its name. -/
def register (f : Format) : Registry → Registry
  | [] => [f]
  | g :: gs => if g.name = f.name then f :: gs else g :: register f gs

/-- The format of a name. -/
def get? (r : Registry) (name : String) : Option Format := r.find? fun f => f.name == name

@[simp] theorem get?_register_self (f : Format) (r : Registry) : (register f r).get? f.name = some f := by
  induction r with
  | nil => simp [register, get?]
  | cons g gs ih =>
    by_cases h : g.name = f.name
    · simp [register, h, get?]
    · simpa [register, h, get?] using ih

theorem get?_register_of_ne (f : Format) (r : Registry) {name : String} (h : name ≠ f.name) :
    (register f r).get? name = r.get? name := by
  have hf : (f.name == name) = false := by simp [Ne.symm h]
  induction r with
  | nil => simp [register, get?, hf]
  | cons g gs ih =>
    by_cases hg : g.name = f.name
    · simp [register, get?, hg, hf]
    · simp only [register, hg, if_false, get?, List.find?_cons]
      exact congrArg (fun r => match g.name == name with | true => some g | false => r) ih

/-- The format of a name, which must be registered. -/
def get (r : Registry) (name : String) : Except FormatError Format :=
  match r.get? name with
  | some f => .ok f
  | none => .error (.unknownFormat name)

def has (r : Registry) (name : String) : Bool := (r.get? name).isSome

/-- The names of the formats, in order. -/
def names (r : Registry) : List String := (r.map Format.name).mergeSort fun a b => decide (a ≤ b)

/-- The name of a format that lists the extension of a file. -/
def detect? (r : Registry) (path : String) : Option String := do
  let ending ← Format.extension? path
  (r.find? fun f => f.extensions.contains ending).map Format.name

/-- Read a document in a format. -/
def parse (r : Registry) (source format : String) : Except FormatError Document := do
  let f ← r.get format
  if f.parses then f.parse source else .error (.unsupported format .parsing)

/-- Write a document in a format. -/
def serialize (r : Registry) (d : Document) (format : String) : Except FormatError String := do
  let f ← r.get format
  if f.serializes then f.serialize d else .error (.unsupported format .serialization)

/-- Read a document in a format, and write it in another. -/
def convert (r : Registry) (source input output : String) : Except FormatError String := do
  r.serialize (← r.parse source input) output

/-- The built-in formats, with options. -/
def builtIn (x : Markdown.Extensions) (o : Render.Options) (indent : Nat) : Registry :=
  [Format.markdown x, Format.xaml o indent, Format.json o, Format.events o].foldl (fun r f => register f r) []

/-- The built-in formats. -/
def default : Registry := builtIn {} {} 2

end Registry

/-- The markup of a document in Markdown. -/
def markdownToMarkup (source : String) : Except FormatError String :=
  Registry.default.convert source "markdown" "xaml"

end FlowDoc
