/-!
# Options of a command

An option is given by its name after two dashes, or by its letter after one; the letters of several may stand together.
Its value follows an equals sign, or its letter, or is the next argument. An argument `--` ends the options. No option is
given twice.
-/

namespace FlowDoc.CommandLine

/-- An option that a command knows. -/
structure Flag where
  name : String
  letter : Option Char := none
  takesValue : Bool := false
  /-- Whether nothing after it is read. -/
  isFinal : Bool := false
  deriving DecidableEq

/-- The arguments that a command knows. -/
structure Command where
  flags : List Flag
  /-- How many arguments that are no options it takes. -/
  positionals : Nat := 0
  subcommands : List String := []

/-- The arguments that a command is given. -/
structure Given where
  /-- The options by their names; one that takes no value has none. -/
  flags : List (String × Option String) := []
  positionals : List String := []
  deriving DecidableEq

namespace Given

def isEmpty (g : Given) : Bool := g.flags.isEmpty && g.positionals.isEmpty

def has (g : Given) (name : String) : Bool := (g.flags.lookup name).isSome

def value? (g : Given) (name : String) : Option String := (g.flags.lookup name).join

/-- Add an option, which must be new. -/
def addFlag (g : Given) (occurrence : Flag × Option String) : Option Given :=
  if g.has occurrence.1.name then none
  else some { g with flags := g.flags ++ [(occurrence.1.name, occurrence.2)] }

end Given

namespace Command

/-- Add an argument that is no option. -/
def addPositional (c : Command) (g : Given) (arg : String) : Option Given :=
  if g.positionals.length < c.positionals then some { g with positionals := g.positionals ++ [arg] } else none

/-- The option after two dashes. -/
def readName (c : Command) (body : List Char) : Option (Flag × Option String) := do
  let f ← c.flags.find? fun f => f.name.toList == body.takeWhile (· != '=')
  match body.dropWhile (· != '=') with
  | [] => some (f, none)
  | _ :: v => if f.takesValue then some (f, some (String.ofList v)) else none

/-- The options after one dash. -/
def readLetters (c : Command) : List Char → Option (List (Flag × Option String))
  | [] => some []
  | letter :: rest => do
    let f ← c.flags.find? fun f => f.letter == some letter
    if f.isFinal then return [(f, none)]
    if f.takesValue then
      match rest with
      | [] => some [(f, none)]
      | '=' :: v => some [(f, some (String.ofList v))]
      | v => some [(f, some (String.ofList v))]
    else return (f, none) :: (← readLetters c rest)

/-- Whether an argument is an option by its form. -/
def isOption (arg : String) : Bool :=
  match arg.toList with
  | '-' :: _ :: _ => true
  | _ => false

/-- The options in an argument. -/
def readOption (c : Command) (arg : String) : Option (List (Flag × Option String)) :=
  match arg.toList with
  | '-' :: '-' :: body => (c.readName body).map ([·])
  | '-' :: letters => c.readLetters letters
  | _ => none

/-- The option, last in an argument, whose value is the next argument. -/
def awaiting? (occurrences : List (Flag × Option String)) : Option Flag :=
  match occurrences.getLast? with
  | some (f, none) => if f.takesValue then some f else none
  | _ => none

/-- Whether options end with one after which nothing is read. -/
def endsReading (occurrences : List (Flag × Option String)) : Bool := occurrences.getLast?.any (·.1.isFinal)

/-- Read the arguments of a command, after some that were given, up to the name of a subcommand. -/
def read (c : Command) : Given → List String → Option (Given × Option (String × List String))
  | g, [] => some (g, none)
  | g, arg :: rest =>
    if c.subcommands.contains arg then some (g, some (arg, rest))
    else if arg == "--" then (rest.foldlM c.addPositional g).map (·, none)
    else if isOption arg then do
      let occurrences ← c.readOption arg
      match awaiting? occurrences with
      | none => do
        let g ← occurrences.foldlM Given.addFlag g
        if endsReading occurrences then return (g, none) else read c g rest
      | some f =>
        match rest with
        | [] => none
        | value :: rest =>
          if isOption value then none
          else read c (← (occurrences.dropLast ++ [(f, some value)]).foldlM Given.addFlag g) rest
    else do read c (← c.addPositional g arg) rest

end Command

end FlowDoc.CommandLine
