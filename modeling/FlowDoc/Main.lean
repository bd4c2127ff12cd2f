import FlowDoc.CommandLine.Program

/-!
# The command

Runs the program on the files of the system, with standard input, output and error.
-/

namespace FlowDoc.CommandLine

/-- The fault behind an error of the system. -/
def faultOf : IO.Error → FileFault
  | .noFileOrDirectory _ _ _ => .notFound
  | .inappropriateType _ 21 _ => .isDirectory
  | .inappropriateType _ _ _ => .notDirectory
  | e => .other e.toString

/-- What an action gives, or the fault that it meets. -/
def attempt {α : Type} (action : IO α) : IO (Except FileFault α) := do
  try return .ok (← action)
  catch e => return .error (faultOf e)

/-- All of standard input. -/
partial def readInput (stream : IO.FS.Stream) (text : String) : IO String := do
  let line ← stream.getLine
  if line.isEmpty then return text else readInput stream (text ++ line)

/-- The system that the command runs on. -/
def systemHost : Host IO where
  input := attempt do readInput (← IO.getStdin) ""
  read path := attempt (IO.FS.readFile path)
  write path text := attempt (IO.FS.writeFile path text)

end FlowDoc.CommandLine

open FlowDoc.CommandLine in
def main (args : List String) : IO UInt32 := do
  let outcome ← run systemHost args
  match outcome with
  | .done text => IO.print text
  | .failed cause => IO.eprintln s!"Error: {cause.message}"
  | .usage => IO.eprintln "Usage: [convert] <input> [options], or styles, or --list-formats"
  return UInt32.ofNat outcome.status
