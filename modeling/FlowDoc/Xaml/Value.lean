import FlowDoc.Decimal.Format
import FlowDoc.Text.Quoted
import FlowDoc.Json

/-!
# Scalar values of members

The values that stand in members: texts, numbers, flags, references, the two enumerations of the vocabulary, column
widths and resource keys. Each has a markup spelling (`display`), a diagnostic form (`debug`) and a JSON form.
-/

namespace FlowDoc

/-- The symbolic name of a style resource. -/
structure ResourceKey where
  name : String
  deriving DecidableEq

namespace Xaml

/-- Width of a table column. -/
inductive GridLength
  | auto
  /-- A proportional share of the remaining width. -/
  | star (weight : Binary64)
  | pixel (width : Binary64)
  deriving DecidableEq

namespace GridLength

/-- One share is a bare star. -/
def display : GridLength → String
  | auto => "Auto"
  | star w => if w = Binary64.one then "*" else NumberFormat.plain.write w ++ "*"
  | pixel w => NumberFormat.plain.write w

def debug : GridLength → String
  | auto => "Auto"
  | star w => "Star(" ++ NumberFormat.debug.write w ++ ")"
  | pixel w => "Pixel(" ++ NumberFormat.debug.write w ++ ")"

end GridLength

inductive TextAlignment
  | left
  | right
  | center
  | justify
  deriving DecidableEq

namespace TextAlignment

def all : List TextAlignment := [left, right, center, justify]

def name : TextAlignment → String
  | left => "Left"
  | right => "Right"
  | center => "Center"
  | justify => "Justify"

def ofName? (s : String) : Option TextAlignment := all.find? (·.name == s)

end TextAlignment

/-- The markers of a list. -/
inductive MarkerStyle
  | none
  | disc
  | circle
  | square
  | box
  | lowerRoman
  | upperRoman
  | lowerLatin
  | upperLatin
  | decimal
  deriving DecidableEq

namespace MarkerStyle

def all : List MarkerStyle :=
  [none, disc, circle, square, box, lowerRoman, upperRoman, lowerLatin, upperLatin, decimal]

def name : MarkerStyle → String
  | none => "None"
  | disc => "Disc"
  | circle => "Circle"
  | square => "Square"
  | box => "Box"
  | lowerRoman => "LowerRoman"
  | upperRoman => "UpperRoman"
  | lowerLatin => "LowerLatin"
  | upperLatin => "UpperLatin"
  | decimal => "Decimal"

def ofName? (s : String) : Option MarkerStyle := all.find? (·.name == s)

end MarkerStyle

/-- A scalar member value. -/
inductive Scalar
  | text (s : String)
  | int (n : Int)
  | double (x : Binary64)
  | bool (b : Bool)
  | uri (s : String)
  | alignment (a : TextAlignment)
  | marker (m : MarkerStyle)
  | gridLength (g : GridLength)
  | resourceKey (k : ResourceKey)
  deriving DecidableEq

namespace Scalar

/-- The string itself, of a text. -/
def asText? : Scalar → Option String
  | text s => some s
  | _ => Option.none

/-- The markup spelling. -/
def display : Scalar → String
  | text s | uri s => s
  | int n => toString n
  | double x => NumberFormat.plain.write x
  | bool b => if b then "True" else "False"
  | alignment a => a.name
  | marker m => m.name
  | gridLength g => g.display
  | resourceKey k => k.name

/-- A name applied to one argument. -/
def applied (name argument : String) : String := name ++ "(" ++ argument ++ ")"

/-- The diagnostic form of an enumeration value. -/
def enumDebug (typeName name : String) : String :=
  "Enum \x7b type_name: " ++ Text.quote typeName ++ ", name: " ++ Text.quote name ++ " \x7d"

/-- The diagnostic form, which shows the kind of value. -/
def debug : Scalar → String
  | text s => applied "String" (Text.quote s)
  | int n => applied "Int" (toString n)
  | double x => applied "Double" (NumberFormat.debug.write x)
  | bool b => applied "Bool" (if b then "true" else "false")
  | uri s => applied "Uri" (Text.quote s)
  | alignment a => enumDebug "TextAlignment" a.name
  | marker m => enumDebug "TextMarkerStyle" m.name
  | gridLength g => applied "GridLength" g.debug
  | resourceKey k => applied "ResourceKey" (applied "ResourceKey" (Text.quote k.name))

/-- Numbers and flags stay what they are, a number that is not finite is null, and the rest is its markup spelling. -/
def json : Scalar → JsonValue
  | int n => .number (toString n)
  | double x => if x.isFinite then .number (NumberFormat.json.write x) else .null
  | bool b => .bool b
  | v => .string v.display

end Scalar

end Xaml

end FlowDoc
