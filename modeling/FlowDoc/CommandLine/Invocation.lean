import FlowDoc.CommandLine.Option

/-!
# Invocations

What the arguments of the program ask for. A name of a file in the place of a command asks for its conversion.
-/

namespace FlowDoc.CommandLine

/-- What to convert, and how. -/
structure Conversion where
  /-- The file to read, or a dash for standard input. -/
  input : String
  inputFormat : Option String := none
  outputFormat : Option String := none
  /-- The file to write, or none for standard output. -/
  output : Option String := none
  baseUri : Option String := none
  deriving DecidableEq

inductive Task
  | convert (c : Conversion)
  | listStyles
  deriving DecidableEq

/-- What the program is asked to do. -/
structure Invocation where
  /-- Whether to list the formats, in place of the task. -/
  listFormats : Bool := false
  /-- A configuration file. -/
  config : Option String := none
  task : Option Task := none
  deriving DecidableEq

/-- What arguments ask for. -/
inductive Request
  /-- The version of the program. -/
  | version
  | invocation (i : Invocation)
  deriving DecidableEq

namespace Invocation

/-- The options of every command. -/
def globalFlags : List Flag := [
  { name := "list-formats" }, { name := "config", takesValue := true }, { name := "verbose", letter := some 'v' }]

def versionFlag : Flag := { name := "version", letter := some 'V', isFinal := true }

def rootCommand : Command := { flags := versionFlag :: globalFlags, subcommands := ["convert", "styles", "help"] }

def convertCommand : Command where
  flags := globalFlags ++ [
    { name := "from", takesValue := true }, { name := "to", takesValue := true },
    { name := "output", letter := some 'o', takesValue := true }, { name := "base-uri", takesValue := true }]
  positionals := 1

def stylesCommand : Command := { flags := globalFlags }

/-- The invocation of a task; an option given with the task comes before one given ahead of it. -/
def ofGiven (root given : Given) (task : Option Task) : Invocation where
  listFormats := root.has "list-formats" || given.has "list-formats"
  config := given.value? "config" <|> root.value? "config"
  task

/-- Read the arguments of a conversion. -/
def readConversion? (args : List String) : Option (Given × Conversion) := do
  let (g, _) ← convertCommand.read {} args
  let input ← g.positionals.head?
  return (g, ⟨input, g.value? "from", g.value? "to", g.value? "output", g.value? "base-uri"⟩)

/-- Read arguments as they stand. -/
def readExactly? (args : List String) : Option Request := do
  match ← rootCommand.read {} args with
  | (g, none) =>
    if g.isEmpty then none
    else return if g.has versionFlag.name then .version else .invocation (ofGiven g {} none)
  | (g, some ("convert", rest)) => do
    let (h, c) ← readConversion? rest
    return .invocation (ofGiven g h (some (.convert c)))
  | (g, some ("styles", rest)) => do
    let (h, _) ← stylesCommand.read {} rest
    return .invocation (ofGiven g h (some .listStyles))
  | _ => none

/-- Read the arguments of the program. -/
def read? (args : List String) : Option Request :=
  readExactly? args <|>
    match args with
    | first :: _ =>
      if Command.isOption first || rootCommand.subcommands.contains first then none
      else readExactly? ("convert" :: args)
    | [] => none

end Invocation

end FlowDoc.CommandLine
