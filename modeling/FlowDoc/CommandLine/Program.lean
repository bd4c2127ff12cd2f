import FlowDoc.CommandLine.Extra
import FlowDoc.CommandLine.Host
import FlowDoc.CommandLine.Invocation

/-!
# The program

A run reads the arguments, loads the configuration, and lists formats, lists styles or converts a file. It ends with the
text for standard output, or with the cause of its failure.
-/

namespace FlowDoc.CommandLine

/-- Why a run failed. -/
inductive Failure
  /-- A setting in the arguments has no path. -/
  | badPath (e : Config.PathError)
  | configuration (e : Config.ConfigError)
  /-- The options of rendering are not valid. -/
  | options (e : RenderError)
  /-- No format lists the extension of a file. -/
  | undetected (path : String)
  | format (e : FormatError)
  | unreadable (path : String) (e : FileFault)
  | unwritable (path : String) (e : FileFault)
  | noTask

namespace Failure

def message : Failure → String
  | badPath e => e.message
  | configuration e => s!"failed to load configuration: {e.message}"
  | options e => e.message
  | undetected path => s!"could not detect format from filename '{path}'. Please specify --from explicitly"
  | format e => e.message
  | unreadable path e => s!"reading '{path}': {e.message}"
  | unwritable path e => s!"writing file '{path}': {e.message}"
  | noTask => "unknown subcommand. Use --help for usage information."

end Failure

/-- How a run ends. -/
inductive Outcome
  /-- The arguments make no sense. -/
  | usage
  | done (output : String)
  | failed (cause : Failure)

namespace Outcome

/-- The status of a run for the system. -/
def status : Outcome → Nat
  | done _ => 0
  | failed _ => 1
  | usage => 2

end Outcome

/-! ## Listing -/

/-- A text filled up with spaces on its right. -/
def padded (width : Nat) (s : String) : String := s ++ String.ofList (List.replicate (width - s.length) ' ')

/-- What a format is for. -/
def directions (f : Format) : String :=
  match f.parses, f.serializes with
  | true, true => "in/out"
  | true, false => "in"
  | false, true => "out"
  | false, false => "-"

/-- The formats of a registry, one a line. -/
def formatListing (r : Registry) : String :=
  let lines := r.names.filterMap fun name => (r.get? name).map fun f =>
    s!"  {padded 10 name} {padded 6 (directions f)} {f.description}\n"
  "Available formats:\n\n" ++ String.join lines

/-! ## Running -/

section Run

variable {m : Type → Type} [Monad m]

/-- A configuration file, under its name or with `.toml` added to it. -/
def configFile (host : Host m) (path : String) (required : Bool) : m Config.File := do
  match ← host.read path with
  | .ok text => return ⟨some text, required⟩
  | .error _ => return ⟨(← host.read (path ++ ".toml")).toOption, required⟩

/-- The settings of an invocation: those of the file of the project, of the file that is asked for, and of arguments. -/
def loadSettings (host : Host m) (i : Invocation) (overrides : Config.Entries String) :
    ExceptT Failure m Config.Settings := do
  let baseUri := match i.task with
    | some (.convert c) => c.baseUri
    | _ => none
  let assigned : Except Config.PathError Config.Assignments := do
    let as ← Extra.assignments overrides
    match baseUri with
    | some uri => as.setAt "render.base_uri" (.text uri)
    | none => return as
  let assignments ← MonadExcept.ofExcept (assigned.mapError .badPath)
  let project ← (configFile host "mdxaml.toml" false : m Config.File)
  let asked ← i.config.toList.mapM fun path => (configFile host path true : m Config.File)
  MonadExcept.ofExcept ((Config.Layers.settings ⟨project :: asked, assignments⟩).mapError .configuration)

/-- Convert a file, and give back the text for standard output. -/
def convert [Uri.Domains] (host : Host m) (s : Config.Settings) (c : Conversion) : ExceptT Failure m String := do
  let registry ← MonadExcept.ofExcept (s.registry.mapError .options)
  let input ← match c.inputFormat, c.input with
    | some name, _ => pure name
    | none, "-" => pure "markdown"
    | none, path => MonadExcept.ofExcept ((registry.detect? path).elim (.error (.undetected path)) .ok)
  let output := c.outputFormat.getD s.format
  discard (MonadExcept.ofExcept ((registry.get input).mapError .format))
  discard (MonadExcept.ofExcept ((registry.get output).mapError .format))
  let read ← if c.input == "-" then host.input else host.read c.input
  let source ← MonadExcept.ofExcept (read.mapError (.unreadable c.input))
  let text ← MonadExcept.ofExcept ((registry.convert source input output).mapError .format)
  match c.output with
  | none => return text
  | some path => do
    MonadExcept.ofExcept ((← host.write path text).mapError (.unwritable path))
    return ""

/-- Carry out an invocation. -/
def perform [Uri.Domains] (host : Host m) (i : Invocation) (overrides : Config.Entries String) :
    ExceptT Failure m String := do
  let s ← loadSettings host i overrides
  if i.listFormats then
    let registry ← MonadExcept.ofExcept (s.registry.mapError .options)
    return formatListing registry
  else
    match i.task with
    | some (.convert c) => convert host s c
    | some .listStyles => do
      let options ← MonadExcept.ofExcept (s.options.mapError .options)
      return options.theme.listing
    | none => MonadExcept.ofExcept (.error .noTask)

/-- The name and the version of the program. -/
def versionLine : String := "mdxaml 0.1.0\n"

/-- Run the program with its arguments. -/
def run [Uri.Domains] (host : Host m) (args : List String) : m Outcome := do
  let split := Extra.split args
  match Invocation.read? split.kept with
  | none => return .usage
  | some .version => return .done versionLine
  | some (.invocation i) =>
    match ← (perform host i (Extra.overrides split.extras)).run with
    | .ok output => return .done output
    | .error cause => return .failed cause

end Run

end FlowDoc.CommandLine
