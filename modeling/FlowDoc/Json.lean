/-!
# JSON texts

A value is written either compactly or laid out with two spaces a level; fields keep their order. Strings escape the
quote, the backslash and the controls below the space, and nothing else.
-/

namespace FlowDoc

/-- A JSON value. A number is given by its text. -/
inductive JsonValue
  | null
  | bool (b : Bool)
  | number (text : String)
  | string (s : String)
  | array (items : List JsonValue)
  | object (fields : List (String × JsonValue))

namespace JsonValue

/-- The character of a hexadecimal digit. -/
def hexDigit (n : Nat) : Char := Nat.digitChar (n % 16)

/-- One character of a JSON string. -/
def escapeChar (c : Char) : List Char :=
  if c == '"' || c == '\\' then ['\\', c]
  else if c == '\n' then ['\\', 'n']
  else if c == '\r' then ['\\', 'r']
  else if c == '\t' then ['\\', 't']
  else if c == '\x08' then ['\\', 'b']
  else if c == '\x0c' then ['\\', 'f']
  else if c.toNat < 0x20 then ['\\', 'u', '0', '0', hexDigit (c.toNat / 16), hexDigit c.toNat]
  else [c]

/-- A string with its quotes. -/
def quoteString (s : String) : String := String.ofList ('"' :: s.toList.flatMap escapeChar ++ ['"'])

/-- A line break and the indentation of a level. -/
def newline (depth : Nat) : String := "\n" ++ String.ofList (List.replicate (2 * depth) ' ')

/-- Texts between brackets, each on a line of its own; brackets alone when there is none. -/
def block (depth : Nat) (opening closing : String) : List String → String
  | [] => opening ++ closing
  | items =>
    opening ++ ",".intercalate (items.map (newline (depth + 1) ++ ·)) ++ newline depth ++ closing

mutual

/-- The text of a value laid out over lines, at a level. -/
def prettyAt (depth : Nat) : JsonValue → String
  | .null => "null"
  | .bool b => if b then "true" else "false"
  | .number text => text
  | .string s => quoteString s
  | .array items => block depth "[" "]" (prettyItems (depth + 1) items)
  | .object fields => block depth "\x7b" "\x7d" (prettyFields (depth + 1) fields)

def prettyItems (depth : Nat) : List JsonValue → List String
  | [] => []
  | v :: vs => prettyAt depth v :: prettyItems depth vs

def prettyFields (depth : Nat) : List (String × JsonValue) → List String
  | [] => []
  | (k, v) :: fs => (quoteString k ++ ": " ++ prettyAt depth v) :: prettyFields depth fs

end

/-- The text of a value laid out over lines. -/
def pretty (v : JsonValue) : String := prettyAt 0 v

mutual

/-- The text of a value on one line. -/
def compact : JsonValue → String
  | .null => "null"
  | .bool b => if b then "true" else "false"
  | .number text => text
  | .string s => quoteString s
  | .array items => "[" ++ ",".intercalate (compactItems items) ++ "]"
  | .object fields => "\x7b" ++ ",".intercalate (compactFields fields) ++ "\x7d"

def compactItems : List JsonValue → List String
  | [] => []
  | v :: vs => compact v :: compactItems vs

def compactFields : List (String × JsonValue) → List String
  | [] => []
  | (k, v) :: fs => (quoteString k ++ ":" ++ compact v) :: compactFields fs

end

end JsonValue

end FlowDoc
