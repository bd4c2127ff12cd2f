/-!
# Escaped characters of markup

Character data escapes the two angle brackets and the ampersand; the value of an attribute also escapes both quotes,
and writes line breaks and tabs as character references because a reader would turn them into spaces.
-/

namespace FlowDoc.Xml

/-- One character of character data. -/
def escapeChar (c : Char) : List Char :=
  if c == '<' then ['&', 'l', 't', ';']
  else if c == '>' then ['&', 'g', 't', ';']
  else if c == '&' then ['&', 'a', 'm', 'p', ';']
  else [c]

/-- One character of an attribute value. -/
def escapeAttributeChar (c : Char) : List Char :=
  if c == '\'' then ['&', 'a', 'p', 'o', 's', ';']
  else if c == '"' then ['&', 'q', 'u', 'o', 't', ';']
  else if c == '\n' then ['&', '#', '1', '0', ';']
  else if c == '\r' then ['&', '#', '1', '3', ';']
  else if c == '\t' then ['&', '#', '9', ';']
  else escapeChar c

/-- Character data. -/
def escapeText (s : String) : String := String.ofList (s.toList.flatMap escapeChar)

/-- The value of an attribute, without its quotes. -/
def escapeAttribute (s : String) : String := String.ofList (s.toList.flatMap escapeAttributeChar)

end FlowDoc.Xml
