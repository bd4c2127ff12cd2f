/-!
# Hosts

What the program needs of the system it runs on: a text on standard input, and files.
-/

namespace FlowDoc.CommandLine

/-- Why a file cannot be read or written. -/
inductive FileFault
  | notFound
  | notDirectory
  | isDirectory
  | other (text : String)
  deriving DecidableEq

namespace FileFault

def message : FileFault → String
  | notFound => "No such file or directory (os error 2)"
  | notDirectory => "Not a directory (os error 20)"
  | isDirectory => "Is a directory (os error 21)"
  | other text => text

end FileFault

/-- A system that runs the program. -/
structure Host (m : Type → Type) where
  /-- The text on standard input. -/
  input : m (Except FileFault String)
  /-- The text of a file. -/
  read : String → m (Except FileFault String)
  /-- Write a text to a file, in the place of what it held. -/
  write : String → String → m (Except FileFault Unit)

end FlowDoc.CommandLine
