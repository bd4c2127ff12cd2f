import FlowDoc.Markdown.FrontMatter
import FlowDoc.Markdown.Joined
import FlowDoc.Markdown.Span
import FlowDoc.Markdown.Structure
import FlowDoc.Markdown.Task

/-!
# Reading Markdown

A document is read in passes: its blocks first, with the targets that they define; then the inlines of their texts,
joined; then the boxes of tasks; and mail addresses in running text last.
-/

namespace FlowDoc.Markdown

/-- The text of a document without its metadata. -/
def bodyOf (x : Extensions) (source : String) : List Char :=
  let cs := source.toList
  if x.frontMatter then (skipFrontMatter? cs).getD cs else cs

/-- The least allowance, in bytes, for the targets that labels stand for. A longer text allows as many bytes as it
has, so that short labels of long targets cannot make the tree much larger than its text. -/
def leastAllowance : Nat := 100000

/-- The syntax tree of a document. -/
def parse (x : Extensions) (source : String) : List (Block (List Inline)) :=
  let cs := bodyOf x source
  let (blocks, references) := readBlocks x.tables cs
  let spans (content : List Char) : StateM Nat (List Inline) := joinTexts <$> readInlines x references content
  let allowance := max leastAllowance (cs.foldl (fun n c => n + c.utf8Size) 0)
  let blocks := (Block.mapListM spans blocks |>.run allowance).1
  let blocks := if x.tasklist then markTasksList blocks else blocks
  if x.autolink then Block.mapList linkMail blocks else blocks

end FlowDoc.Markdown
