import FlowDoc.CommandLine.Host
import FlowDoc.Config.Value
import FlowDoc.Text.Space

/-!
# Directories in memory

A directory is the texts of its files by their paths. A path leads from it downwards; what is above it is not there.
-/

namespace FlowDoc.CommandLine

/-- The texts of files, by the names on their paths. -/
abbrev Directory := List (List String × String)

namespace Directory

/-- What is at the end of a path. -/
inductive Place
  | file (text : String)
  | directory
  | missing
  deriving DecidableEq

/-- The file or the directory at a path of names. -/
def placeAt (d : Directory) (path : List String) : Place :=
  match d.lookup path with
  | some text => .file text
  | none => if path.isEmpty || d.any fun f => path.isPrefixOf f.1 then .directory else .missing

/-- Follow names from a directory at a path; each but the last must lead to a directory. -/
def follow (d : Directory) : (here names : List String) → Except FileFault (List String)
  | here, [] => .ok here
  | here, name :: rest =>
    match d.placeAt here with
    | .missing => .error .notFound
    | .file _ => .error .notDirectory
    | .directory =>
      if name == "" || name == "." then follow d here rest
      else if name == ".." then if here.isEmpty then .error .notFound else follow d here.dropLast rest
      else follow d (here ++ [name]) rest

/-- The names that a path leads to. -/
def resolve (d : Directory) (path : String) : Except FileFault (List String) :=
  if path.isEmpty || path.toList.head? == some '/' then .error .notFound
  else d.follow [] ((path.toList.splitOn '/').map String.ofList)

/-- The text of a file. -/
def read (d : Directory) (path : String) : Except FileFault String := do
  match d.placeAt (← d.resolve path) with
  | .file text => .ok text
  | .directory => .error .isDirectory
  | .missing => .error .notFound

/-- Put a text in the place of the file at a path of names. -/
def put (names : List String) (text : String) : Directory → Directory
  | [] => [(names, text)]
  | (n, t) :: d => if n = names then (n, text) :: d else (n, t) :: put names text d

theorem placeAt_put_self (d : Directory) (names : List String) (text : String) :
    (put names text d).placeAt names = .file text := by
  suffices h : (put names text d).lookup names = some text by simp [placeAt, h]
  induction d with
  | nil => simp [put]
  | cons f d ih =>
    obtain ⟨n, t⟩ := f
    by_cases h : n = names
    · simp [put, h]
    · have h' : (names == n) = false := by simp [Ne.symm h]
      simpa [put, h, List.lookup_cons, h'] using ih

/-- Write a file of a directory that is there. A path that ends with a slash is that of a directory. -/
def write (d : Directory) (path text : String) : Except FileFault Directory := do
  let slash (c : Char) := c == '/'
  let names ← d.resolve (String.ofList (Text.trimRight slash path.toList))
  if path.toList.getLast?.any slash then .error .isDirectory
  else match d.placeAt names with
    | .directory => .error .isDirectory
    | _ => .ok (d.put names text)

/-- The host with a directory and a text on standard input. -/
def host (input : String) : Host (StateM Directory) where
  input := return .ok input
  read path := return (← get).read path
  write path text := do
    match (← get).write path text with
    | .ok d => do set d; return .ok ()
    | .error e => return .error e

end Directory

end FlowDoc.CommandLine
