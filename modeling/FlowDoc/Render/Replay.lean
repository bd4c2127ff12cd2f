import FlowDoc.Xaml.Writer
import FlowDoc.Xml.Fragment

/-!
# Replaying markup

A fragment is written as the objects it describes: each element an object, each attribute a member with a text, its
children the content. Elements without a prefix are types of the presentation namespace. Property elements and
attributes with a namespace are not replayed, and content that is all white space is left out.
-/

namespace FlowDoc.Render

open Xaml

/-- The namespaces in scope around a fragment. -/
def fragmentScope : Xml.Scope := [("", presentationNamespace), ("x", languageNamespace)]

/-- Whether a node calls for a content collection. -/
def isSubstantial : Xml.Node → Bool
  | .text s => s.toList.any (!Text.isSpace ·)
  | .element _ _ _ _ => true

/-- Write attributes as members. -/
def replayAttributes (fragment : String) : List Xml.Attribute → Write Unit
  | [] => pure ()
  | a :: rest => do
    if a.space.isSome then throw (.unsupportedFragment fragment (.namespacedAttribute a.name))
    Write.member (.ofName a.name) (.text a.value)
    replayAttributes fragment rest

mutual

/-- Write a node of a fragment. -/
def replayNode (fragment : String) : Xml.Node → Write Unit
  | .text s => Write.text s
  | .element space name attributes children => do
    if name.toList.contains '.' then throw (.unsupportedFragment fragment (.propertyElement name))
    Write.startObjectOf (← Write.lift (getTypeIn (space.getD presentationNamespace) name))
    replayAttributes fragment attributes
    if children.any isSubstantial then
      Write.startContent false
      replayNodes fragment children
      Write.endItems
    Write.endObject

/-- Write nodes one after the other. -/
def replayNodes (fragment : String) : List Xml.Node → Write Unit
  | [] => pure ()
  | n :: ns => do
    replayNode fragment n
    replayNodes fragment ns

end

/-- Write a fragment into the innermost collection. One without markup is a text with references. -/
def replayFragment (fragment : String) : Write Unit :=
  if fragment.toList.contains '<' then
    match Xml.parseFragment? fragmentScope fragment with
    | some nodes => replayNodes fragment nodes
    | none => throw (.unsupportedFragment fragment .malformed)
  else
    match Xml.unescape? fragment with
    | some text => Write.text text
    | none => throw (.unsupportedFragment fragment .malformed)

end FlowDoc.Render
