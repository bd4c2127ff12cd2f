import FlowDoc.Config.Toml.Scalar

/-!
# Configuration files

A file is a list of statements: a key with its value, or a header, which says to what table the keys after it belong. The
statements build a tree, in which each table knows how it came to be: a table with a header of its own has one only, a
table that was made by the way may still be given one, and a table made by a dotted key grows by dotted keys alone.
-/

namespace FlowDoc.Config.Toml

/-! ## The tree -/

/-- How a table came to be. -/
inductive Origin
  /-- By its header. -/
  | header
  /-- On the way to a table with a header. -/
  | implied
  /-- By a dotted key. -/
  | dotted
  deriving DecidableEq

/-- A node of the tree. -/
inductive Node
  | value (v : Value)
  | table (origin : Origin) (entries : List (String × Node))
  /-- The tables of a header in double brackets, which are `header` tables. -/
  | tables (elements : List Node)

namespace Node

/-- Change the table at a path, where of tables in a list the last counts. A table that is missing is made; a dotted key
leads through no table that has a header. -/
def within (made : Origin) (change : Node → Option Node) : List String → Node → Option Node
  | [], t => change t
  | key :: path, .table origin entries => do
    let es : Entries Node := entries
    let next ← match (es.get? key).getD (.table made []) with
      | .value _ => none
      | .tables elements => do
        let last ← elements.getLast?
        pure (.tables (elements.dropLast ++ [← within made change path last]))
      | .table o inner =>
        if made = .dotted && o = .header then none else within made change path (.table o inner)
    return .table origin (es.put key next)
  | _ :: _, _ => none

/-- Give a table a new key. -/
def define (key : String) (v : Value) : Node → Option Node
  | .table origin entries =>
    let es : Entries Node := entries
    if (es.get? key).isSome then none else some (.table origin (es.put key (.value v)))
  | _ => none

/-- Set a dotted key of a table; the table that the last part belongs to is one of dotted keys. -/
def assign (path : List String) (key : String) (v : Value) : Node → Option Node :=
  within .dotted (fun t => match t with
    | .table origin _ => if path.isEmpty || origin = .dotted then t.define key v else none
    | _ => none) path

/-- Give a table its header. -/
def openTable (key : String) : Node → Option Node
  | .table origin entries =>
    let es : Entries Node := entries
    match es.get? key with
    | none => some (.table origin (es.put key (.table .header [])))
    | some (.table .implied inner) => some (.table origin (es.put key (.table .header inner)))
    | some _ => none
  | _ => none

/-- Add a table to a list of tables. -/
def openElement (key : String) : Node → Option Node
  | .table origin entries =>
    let es : Entries Node := entries
    match es.get? key with
    | none => some (.table origin (es.put key (.tables [.table .header []])))
    | some (.tables elements) => some (.table origin (es.put key (.tables (elements ++ [.table .header []]))))
    | some _ => none
  | _ => none

mutual

/-- The value that a node is. -/
def toValue : Node → Value
  | .value v => v
  | .table _ entries => .table (toEntries entries)
  | .tables elements => .list (toValues elements)

def toEntries : List (String × Node) → List (String × Value)
  | [] => []
  | (key, n) :: rest => (key, n.toValue) :: toEntries rest

def toValues : List Node → List Value
  | [] => []
  | n :: rest => n.toValue :: toValues rest

end

end Node

/-! ## Values -/

open Scan

/-- How deep brackets and keys may nest. -/
def depthLimit : Nat := 80

def isKeyChar (c : Char) : Bool := c.isAlphanum || c == '_' || c == '-'

/-- A dotted key: the parts before the last, and the last. -/
def key : Scan (List String × String) := do
  let part : Scan String := do
    blanks
    let name ← plainText <|> String.ofList <$> span1 isKeyChar
    blanks
    return name
  let parts ← separated part (char '.')
  guard (parts.length < depthLimit)
  match parts.getLast? with
  | some last => return (parts.dropLast, last)
  | none => failure

/-- A key and its value. -/
def keyValue (value : Scan Value) : Scan ((List String × String) × Value) := do
  let k ← key
  char '='
  blanks
  return (k, ← value)

/-- A list of values in brackets. -/
def array (value : Scan Value) : Scan Value := do
  char '['
  let item : Scan Value := do
    gap
    let v ← value
    gap
    return v
  let items ← maybe do
    let items ← separated item (char ',')
    discard (maybe (char ','))
    return items
  gap
  char ']'
  return .list (items.getD [])

/-- A table in braces, on one line. -/
def inlineTable (value : Scan Value) : Scan Value := do
  char '{'
  blanks
  let pair := do
    let p ← keyValue value
    blanks
    return p
  let pairs ← maybe (separated pair (char ','))
  blanks
  char '}'
  let built := (pairs.getD []).foldlM (fun (t : Node) ((path, key), v) => t.assign path key v) (Node.table .header [])
  match built with
  | some t => return t.toValue
  | none => failure

/-- A value; `depth` bounds the brackets around it. -/
def value : (depth : Nat) → Scan Value
  | 0 => scalar
  | depth + 1 => scalar <|> array (value depth) <|> inlineTable (value depth)

/-! ## Statements -/

/-- A statement of a file. -/
inductive Statement
  /-- A key of the table that the last header named. -/
  | assign (path : List String) (key : String) (v : Value)
  /-- A header. -/
  | table (path : List String) (key : String)
  /-- A header in double brackets. -/
  | element (path : List String) (key : String)

/-- A statement, or an empty line. -/
def line : Scan (Option Statement) := do
  blanks
  let blank : Scan (Option Statement) := do
    discard (maybe comment)
    newline
    return none
  let lastComment : Scan (Option Statement) := do
    comment
    atEnd
    return none
  let element : Scan (Option Statement) := do
    word ['[', '[']
    let (path, name) ← key
    word [']', ']']
    lineEnd
    return some (.element path name)
  let table : Scan (Option Statement) := do
    char '['
    let (path, name) ← key
    char ']'
    lineEnd
    return some (.table path name)
  let assign : Scan (Option Statement) := do
    let ((path, name), v) ← keyValue (value (depthLimit - 1))
    lineEnd
    return some (.assign path name v)
  blank <|> lastComment <|> element <|> table <|> assign

/-- The statements of a file. -/
def statements : Scan (List Statement) := do
  let lines ← many line
  blanks
  return lines.filterMap id

/-- The tree so far, and the path of the table whose keys come next. -/
structure Build where
  root : Node := .table .header []
  current : List String := []

/-- Take in a statement. -/
def Build.add (b : Build) : Statement → Option Build
  | .assign path key v => do
    return { b with root := ← b.root.within .implied (·.assign path key v) b.current }
  | .table path key => do
    return ⟨← b.root.within .implied (·.openTable key) path, path ++ [key]⟩
  | .element path key => do
    return ⟨← b.root.within .implied (·.openElement key) path, path ++ [key]⟩

/-- Read a file, past a byte order mark. -/
def parse? (source : String) : Option (Entries Value) := do
  let cs := source.toList
  let statements ← statements.whole ((Text.stripPrefix? ['\uFEFF'] cs).getD cs)
  let built ← statements.foldlM Build.add {}
  return built.root.toValue.entries

end FlowDoc.Config.Toml
