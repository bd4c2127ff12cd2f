import FlowDoc.Config.KeyPath
import FlowDoc.Decimal.Format

/-!
# Reading values

Values are read leniently: numbers and words stand for truth values, truth values and words for numbers, and all of them
for texts. A section is a table with its fields under their names, or a list with its fields in order.
-/

namespace FlowDoc.Config

/-- Why there is no configuration. -/
inductive ConfigError
  | badPath (e : PathError)
  | missingFile
  | badFile
  /-- The value under a key is of another type. -/
  | wrongType (key : String)
  /-- A section, or a name among given ones, is not as it must be. -/
  | malformed
  deriving DecidableEq

namespace ConfigError

def message : ConfigError → String
  | badPath e => e.message
  | missingFile => "configuration file not found"
  | badFile => "configuration file is not well-formed"
  | wrongType key => s!"invalid type for key '{key}'"
  | malformed => "invalid structure"

/-- The error of a value within another, under a key or an index in brackets. -/
def within (key : String) : ConfigError → ConfigError
  | wrongType "" => wrongType key
  | wrongType inner => wrongType (key ++ (if inner.startsWith "[" then "" else ".") ++ inner)
  | e => e

end ConfigError

/-- Reads a value. -/
abbrev Decoder (α : Type) := Value → Except ConfigError α

namespace Decoder

/-- A decoder for values of a type. -/
def ofOption {α : Type} (f : Value → Option α) : Decoder α := fun v =>
  match f v with
  | some a => .ok a
  | none => .error (.wrongType "")

def bool : Decoder Bool := ofOption fun
  | .bool b => some b
  | .int n => some (n != 0)
  | .float x => some (!x.isZero)
  | .text s =>
    let s := Text.lowerCase s
    if ["1", "true", "on", "yes"].contains s then some true
    else if ["0", "false", "off", "no"].contains s then some false
    else none
  | _ => none

/-- A natural number of 64 bits. -/
def nat : Decoder Nat := ofOption fun
  | .bool b => some b.toNat
  | .int n => if 0 ≤ n then some n.toNat else none
  | .float x => some x.roundToNat
  | .text s =>
    let word := Text.lowerCase s
    if ["true", "on", "yes"].contains word then some 1
    else if ["false", "off", "no"].contains word then some 0
    else (Decimal.readNat? s.toList).filter (· < Nat.pow 2 64)
  | _ => none

def text : Decoder String := ofOption fun
  | .bool b => some (if b then "true" else "false")
  | .int n => some (toString n)
  | .float x => some (NumberFormat.plain.write x)
  | .text s => some s
  | _ => none

/-- A value that may be missing. -/
def optional {α : Type} (decode : Decoder α) : Decoder (Option α)
  | .nil => .ok none
  | v => (decode v).map some

/-- One of some names, in any case, as a text or as the only key of a table. -/
def oneOf {α : Type} (choices : List (String × α)) : Decoder α :=
  let choose (name : String) : Except ConfigError α :=
    match choices.find? fun choice => Text.lowerCase choice.1 == Text.lowerCase name with
    | some choice => .ok choice.2
    | none => .error .malformed
  fun
  | .text name => choose name
  | .table [(name, _)] => choose name
  | _ => .error .malformed

/-- A table of texts. -/
def texts : Decoder (Entries String)
  | .table es => es.mapM fun (key, v) => do
    return (key, ← (text v).mapError (ConfigError.within key))
  | _ => .error .malformed

end Decoder

/-- A value with fields. -/
inductive Section
  | table (es : Entries Value)
  | list (items : List Value)

namespace Section

def ofValue : Decoder Section
  | .table es => .ok (.table es)
  | .list items => .ok (.list items)
  | _ => .error .malformed

/-- Read a field, which has a place and a name, if it is there. -/
def field? {α : Type} (s : Section) (place : Nat) (name : String) (decode : Decoder α) : Except ConfigError (Option α) :=
  let found : Option (String × Value) := match s with
    | table es => (es.get? name).map (name, ·)
    | list items => items[place]?.map (s!"[{place}]", ·)
  match found with
  | some (key, v) => ((decode v).mapError (ConfigError.within key)).map some
  | none => .ok none

/-- A field that must be there. -/
def require {α : Type} : Option α → Except ConfigError α
  | some a => .ok a
  | none => .error .malformed

end Section

end FlowDoc.Config
