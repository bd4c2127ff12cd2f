import FlowDoc.Markdown.Autolink

/-!
# Joined texts

Texts that follow each other become one, and mail addresses in them become links. The texts inside a link or an image
stay as they were read.
-/

namespace FlowDoc.Markdown

/-- Add a text to the inlines after it. -/
def joinText (s : String) : List Inline → List Inline
  | .text t :: is => .text (s ++ t) :: is
  | is => .text s :: is

mutual

/-- Join the texts inside an inline. -/
def joinInside : Inline → Inline
  | .styled style children => .styled style (joinTexts children)
  | i => i

/-- Join the texts of inlines. -/
def joinTexts : List Inline → List Inline
  | [] => []
  | .text s :: is => joinText s (joinTexts is)
  | i :: is => joinInside i :: joinTexts is

end

mutual

/-- Link the mail addresses in the texts inside an inline. -/
def linkMailInside : Inline → Inline
  | .styled style children => .styled style (linkMail children)
  | i => i

/-- Link the mail addresses in the texts of inlines. -/
def linkMail : List Inline → List Inline
  | [] => []
  | .text s :: is => splitMail s.length s.toList ++ linkMail is
  | i :: is => linkMailInside i :: linkMail is

end

end FlowDoc.Markdown
