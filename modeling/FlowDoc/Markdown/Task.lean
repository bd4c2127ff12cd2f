import FlowDoc.Text.Space
import FlowDoc.Markdown.Character
import FlowDoc.Markdown.Syntax

/-!
# Tasks

An item of a list is a task if its text begins with a box, `[ ]` or `[x]`, and white space or nothing after it. The box
is taken from the text, which may leave none.
-/

namespace FlowDoc.Markdown

/-- Read a box, and the white space after it: whether it is checked, and the rest of the text. -/
def readBox? (cs : List Char) : Option (Bool × List Char) :=
  match cs.dropWhile isWhite with
  | '[' :: c :: ']' :: rest =>
    let checked := c == 'x' || c == 'X'
    if !checked && c != ' ' then none
    else match rest with
      | [] => some (checked, [])
      | c :: rest => if isWhite c then some (checked, rest) else none
  | _ => none

/-- Make a task of an item if its first text begins with a box. -/
def markTask : Item (Block (List Inline)) → Item (Block (List Inline))
  | ⟨task, .paragraph (.text s :: is) :: blocks⟩ =>
    match readBox? s.toList with
    | some (checked, rest) => ⟨some checked, .paragraph (.text (String.ofList rest) :: is) :: blocks⟩
    | none => ⟨task, .paragraph (.text s :: is) :: blocks⟩
  | item => item

mutual

/-- Make tasks of the items in a block. -/
def markTasks : Block (List Inline) → Block (List Inline)
  | .quote blocks => .quote (markTasksList blocks)
  | .list start items => .list start (markTasksItems items)
  | b => b

def markTasksList : List (Block (List Inline)) → List (Block (List Inline))
  | [] => []
  | b :: bs => markTasks b :: markTasksList bs

def markTasksItems : List (Item (Block (List Inline))) → List (Item (Block (List Inline)))
  | [] => []
  | ⟨task, blocks⟩ :: items => markTask ⟨task, markTasksList blocks⟩ :: markTasksItems items

end

end FlowDoc.Markdown
