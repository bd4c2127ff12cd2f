import FlowDoc.Config.Load

/-!
# Settings given as arguments

An argument `--extra-name value` sets a value of the configuration. The value is the next argument unless that begins with
a dash; a switch without a value is set to `true`. All other arguments are kept in their order.
-/

namespace FlowDoc.CommandLine

/-- A setting as it is given. -/
structure Extra where
  name : String
  raw : String
  deriving DecidableEq

/-- Arguments parted into those that are kept and the settings, each in their order. -/
structure Split where
  kept : List String := []
  extras : List Extra := []
  deriving DecidableEq

namespace Split

/-- Arguments with one more at the front. -/
def keep (arg : String) (s : Split) : Split := { s with kept := arg :: s.kept }

/-- Arguments with one more setting at the front. -/
def setTo (e : Extra) (s : Split) : Split := { s with extras := e :: s.extras }

end Split

namespace Extra

/-- The name in an argument that is a switch. -/
def name? (arg : String) : Option String :=
  (Text.stripPrefix? "--extra-".toList arg.toList <|> Text.stripPrefix? "--extras-".toList arg.toList).map String.ofList

/-- Whether an argument begins with a dash. -/
def isDashed (arg : String) : Bool := arg.toList.head? == some '-'

/-- Part arguments. -/
def split : List String → Split
  | [] => {}
  | arg :: rest =>
    match name? arg with
    | none => .keep arg (split rest)
    | some name =>
      match rest with
      | [] => .setTo ⟨name, "true"⟩ {}
      | next :: after =>
        if isDashed next then .setTo ⟨name, "true"⟩ (split (next :: after)) else .setTo ⟨name, next⟩ (split after)

/-- The value of each name, which its last switch sets. -/
def overrides (extras : List Extra) : Config.Entries String :=
  extras.foldl (fun (es : Config.Entries String) e => es.put e.name e.raw) []

/-! ## What a setting means -/

/-- Short names of settings, with their paths. -/
def aliases : List (String × String) := [
  ("base-uri", "render.base_uri"), ("raw-markup", "render.raw_markup"), ("code-line-join", "render.code_line_join"),
  ("indent", "output.indent"), ("tables", "markdown.tables"), ("strikethrough", "markdown.strikethrough"),
  ("autolink", "markdown.autolink"), ("tasklist", "markdown.tasklist"), ("superscript", "markdown.superscript"),
  ("front-matter", "markdown.front_matter")]

/-- The path of a name: what a short name stands for, a name of a style as it is, and any other with underscores for
dashes. -/
def path (name : String) : String :=
  match aliases.lookup name with
  | some path => path
  | none =>
    if (Text.stripPrefix? "styles.".toList name.toList).isSome then name
    else String.ofList (name.toList.map fun c => if c == '-' then '_' else c)

/-- The value of a text: a truth value, an integer, or the text itself. -/
def value (raw : String) : Config.Value :=
  let word := Text.lowerCase raw
  if word == "true" || word == "yes" then .bool true
  else if word == "false" || word == "no" then .bool false
  else
    match Decimal.readInt64? raw.toList with
    | some n => .int n
    | none => .text raw

/-- The assignments that settings are, by their names in any order. -/
def assignments (overrides : Config.Entries String) : Except Config.PathError Config.Assignments :=
  overrides.foldlM (fun (as : Config.Assignments) (name, raw) => as.setAt (path name) (value raw)) []

end Extra

end FlowDoc.CommandLine
