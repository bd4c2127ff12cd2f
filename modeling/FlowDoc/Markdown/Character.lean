/-!
# Characters of Markdown

The classes of ASCII characters that the syntax of blocks, links and markup refers to.
-/

namespace FlowDoc.Markdown

/-- A space or a tab. -/
def isBlank (c : Char) : Bool := c == ' ' || c == '\t'

/-- A blank or a line end: the white space that parts words and is trimmed from texts. -/
def isGap (c : Char) : Bool := isBlank c || c == '\n' || c == '\r'

/-- The white space between the parts of a tag, a link or a task: gaps, the vertical tab and the form feed. -/
def isWhite (c : Char) : Bool := isGap c || c == '\x0b' || c == '\x0c'

/-- The punctuation of ASCII, symbols included. -/
def isPunct (c : Char) : Bool :=
  let n := c.toNat
  (33 ≤ n && n ≤ 47) || (58 ≤ n && n ≤ 64) || (91 ≤ n && n ≤ 96) || (123 ≤ n && n ≤ 126)

/-- A control character of ASCII. -/
def isAsciiControl (c : Char) : Bool := c.toNat < 32 || c.toNat == 127

/-- A hexadecimal digit. -/
def isHexDigit (c : Char) : Bool := c.isDigit || ('a' ≤ c && c ≤ 'f') || ('A' ≤ c && c ≤ 'F')

end FlowDoc.Markdown
