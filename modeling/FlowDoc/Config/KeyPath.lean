import FlowDoc.Config.Value
import FlowDoc.Decimal.Integer
import FlowDoc.Text.LowerCase
import FlowDoc.Text.Space

/-!
# Paths of keys

A path such as `render.base_uri` or `list[0].name` says where in a configuration a value belongs. A value is set there
whatever stood in the way: what is no table or list becomes one. The last key of a path is taken in lower case, and a
table set under a key is merged, key by key, with the table that is there.
-/

namespace FlowDoc.Config

/-- A step into a value. -/
inductive Step
  | key (name : String)
  | index (i : Int)
  deriving DecidableEq

/-- A path of keys, which begins with a name. -/
structure KeyPath where
  root : String
  steps : List Step
  deriving DecidableEq

/-- Why a text is no path. -/
inductive PathError
  /-- It does not begin with a name. -/
  | noName
  /-- A name is not followed by a step. -/
  | noStep
  /-- A bracket holds no number. -/
  | noIndex
  /-- The number in a bracket is too large. -/
  | indexRange
  deriving DecidableEq

namespace PathError

def message : PathError → String
  | noName => "IsA"
  | noStep => "Char"
  | noIndex => "Digit"
  | indexRange => "Map on Result"

end PathError

/-! ## Reading -/

namespace KeyPath

def isNameChar (c : Char) : Bool := c.isAlphanum || c == ' ' || c == '_' || c == '-'

/-- A bracketed number, from after its bracket on, and what follows it. -/
def readIndex (cs : List Char) : Except PathError (Int × List Char) :=
  let cs := cs.dropWhile Text.isMarkupSpace
  let (sign, cs) := match cs with
    | '-' :: rest => (['-'], rest)
    | rest => ([], rest)
  let digits := cs.takeWhile Char.isDigit
  if digits.isEmpty then .error .noIndex
  else
    match Decimal.readInt64? (sign ++ digits), (cs.dropWhile Char.isDigit).dropWhile Text.isMarkupSpace with
    | none, _ => .error .indexRange
    | some i, ']' :: rest => .ok (i, rest)
    | some _, _ => .error .noStep

/-- The steps that a text is; `fuel` bounds their number. -/
def readSteps : (fuel : Nat) → List Char → Except PathError (List Step)
  | _, [] => .ok []
  | fuel + 1, '.' :: cs =>
    let name := cs.takeWhile isNameChar
    if name.isEmpty then .error .noStep
    else do return .key (String.ofList name) :: (← readSteps fuel (cs.dropWhile isNameChar))
  | fuel + 1, '[' :: cs => do
    let (i, rest) ← readIndex cs
    return .index i :: (← readSteps fuel rest)
  | _, _ :: _ => .error .noStep

/-- Read a path. -/
def ofString (s : String) : Except PathError KeyPath :=
  let name := s.toList.takeWhile isNameChar
  if name.isEmpty then .error .noName
  else do return ⟨String.ofList name, ← readSteps s.length (s.toList.dropWhile isNameChar)⟩

end KeyPath

/-! ## Setting -/

namespace Value

mutual

/-- Put a value under a key of a table, in lower case; what is no table gives way to one. A table is merged with the
table that is there. -/
def insert (key : String) : (v target : Value) → Value
  | table inner, target =>
    let es := target.entries
    let key := Text.lowerCase key
    .table (es.put key (insertAll inner ((es.get? key).getD (.table []))))
  | v, target => .table (target.entries.put (Text.lowerCase key) v)

/-- Put every entry of a table into another. -/
def insertAll : List (String × Value) → Value → Value
  | [], target => target
  | (key, v) :: rest, target => insertAll rest (insert key v target)

end

/-- The place of an index in a list of a length; a negative one counts from the end. -/
def place (length : Nat) : Int → Nat
  | .ofNat n => n
  | .negSucc n => length - (n + 1)

/-- Put a value at a place of a list, which grows as far as that. -/
def putAt (i : Nat) (v : Value) (xs : List Value) : List Value :=
  (xs ++ List.replicate (i + 1 - xs.length) Value.nil).set i v

/-- Set a value at the end of a path. -/
def assign (target v : Value) : List Step → Value
  | [] => v
  | [.key name] => insert name v target
  | .key name :: steps =>
    let es := target.entries
    .table (es.put name (assign ((es.get? name).getD .nil) v steps))
  | .index i :: steps =>
    let xs := target.items
    let n := place xs.length i
    .list (putAt n (assign (xs[n]?.getD .nil) v steps) xs)

end Value

/-- Set a value at a path. -/
def KeyPath.set (p : KeyPath) (v target : Value) : Value := target.assign v (.key p.root :: p.steps)

end FlowDoc.Config
