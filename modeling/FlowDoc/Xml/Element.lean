import FlowDoc.Xml.Escape

/-!
# Elements and their layout

A markup tree to be printed. White space between tags is layout only where an element says so: an element with
`flow` content, and everything inside it, is printed without any, since there it would be content. Elsewhere each
element stands on lines of its own, indented by its depth.
-/

namespace FlowDoc.Xml

/-- A node of a markup tree. -/
inductive Content
  | text (s : String)
  /-- An element. `closed` writes it as one empty-element tag; `flow` keeps its content free of layout. -/
  | element (name : String) (attributes : List (String × String)) (closed flow : Bool) (children : List Content)

/-- An attribute as it stands in a tag, after a space. -/
def printAttribute (a : String × String) : String := " " ++ a.1 ++ "=\"" ++ escapeAttribute a.2 ++ "\""

/-- A tag up to its closing bracket. -/
def openTag (name : String) (attributes : List (String × String)) : String :=
  "<" ++ name ++ String.join (attributes.map printAttribute)

/-- The indentation of a depth, `width` spaces a level; none inside flow content. -/
def indentation (width : Nat) (inFlow : Bool) (depth : Nat) : String :=
  if inFlow then "" else String.ofList (List.replicate (width * depth) ' ')

/-- A line end; none inside flow content. -/
def lineEnd (inFlow : Bool) : String := if inFlow then "" else "\n"

mutual

/-- The text of a node at a depth. -/
def Content.print (width : Nat) (inFlow : Bool) (depth : Nat) : Content → String
  | .text s => escapeText s
  | .element name attributes closed flow children =>
    let inside := inFlow || flow
    indentation width inFlow depth ++ openTag name attributes ++
      (if closed then "/>"
       else
        ">" ++ lineEnd inside ++ printAll width inside (depth + 1) children ++ indentation width inside depth ++
          "</" ++ name ++ ">") ++
      lineEnd inFlow

/-- The texts of nodes, one after the other. -/
def printAll (width : Nat) (inFlow : Bool) (depth : Nat) : List Content → String
  | [] => ""
  | n :: ns => n.print width inFlow depth ++ printAll width inFlow depth ns

end

end FlowDoc.Xml
