import FlowDoc.Markdown.Syntax

/-!
# Emphasis

The inlines of a text in which runs of delimiters are still to be matched. A run that may close looks back for the
nearest run that may open with it; what lies between the two becomes one inline. Delimiters that match none are text.
-/

namespace FlowDoc.Markdown

/-- A run of delimiters. -/
structure DelimiterRun where
  mark : Char
  /-- How many there were. -/
  length : Nat
  canOpen : Bool
  canClose : Bool

/-- A part of a text. -/
inductive Piece
  | inline (i : Inline)
  | delimiters (r : DelimiterRun)

/-- The text of delimiters. -/
def delimiterText (mark : Char) (count : Nat) : Inline := .text (String.ofList (List.replicate count mark))

/-- A run that may open, of which `count` delimiters are left, and the inlines after it, in reverse. -/
structure Opener where
  run : DelimiterRun
  count : Nat
  after : List Inline

namespace Opener

/-- The inlines of a run that opens nothing, in reverse. -/
def close (o : Opener) : List Inline := o.after ++ [delimiterText o.run.mark o.count]

/-- Whether a run may be opened by another. If one of them might do both, their lengths must not add up to a multiple
of three that they are not themselves. -/
def matchesRun (o : Opener) (r : DelimiterRun) : Bool :=
  o.run.mark == r.mark &&
    !((r.canOpen || o.run.canClose) && (o.run.length + r.length) % 3 == 0 &&
      !(o.run.length % 3 == 0 && r.length % 3 == 0))

end Opener

/-- The part of a text that is read: its runs that may still open, innermost first, and the inlines before them, in
reverse. -/
structure Nest where
  openers : List Opener := []
  before : List Inline := []

namespace Nest

/-- Add an inline. -/
def add (i : Inline) (n : Nest) : Nest :=
  match n.openers with
  | o :: os => { n with openers := { o with after := i :: o.after } :: os }
  | [] => { n with before := i :: n.before }

/-- The inlines, in reverse, when nothing opens any more. -/
def close (n : Nest) : List Inline := n.openers.flatMap Opener.close ++ n.before

/-- Split at the innermost run that matches one: the runs inside it, itself, and those around it. -/
def split? (r : DelimiterRun) : List Opener → Option (List Opener × Opener × List Opener)
  | [] => none
  | o :: os =>
    if o.matchesRun r then some ([], o, os)
    else (split? r os).map fun (inner, opener, outer) => (o :: inner, opener, outer)

/-- What `count` delimiters of a kind make of the text between them. -/
def styleOf (mark : Char) (count : Nat) : Style :=
  if mark == '~' then .strikethrough
  else if mark == '^' then .superscript
  else if count = 1 then .emphasis
  else .strong

/-- Keep what no run opened of another one: it may open itself, or is text. -/
def keep (r : DelimiterRun) (count : Nat) (n : Nest) : Nest :=
  if count = 0 then n
  else if r.canOpen then { n with openers := ⟨r, count, []⟩ :: n.openers }
  else n.add (delimiterText r.mark count)

/-- Close runs with the `count` delimiters left of another, two at a time where there are two. Runs for a strike through
must be used up by each other; where they are not, nothing else is matched either. -/
def closeRun? (r : DelimiterRun) : (fuel count : Nat) → Nest → Option Nest
  | 0, count, n => some (n.keep r count)
  | fuel + 1, count, n =>
    match if count = 0 then none else split? r n.openers with
    | none => some (n.keep r count)
    | some (inner, opener, outer) =>
      let used := if 2 ≤ count && 2 ≤ opener.count then 2 else 1
      if r.mark == '~' && !(opener.count == used && count == used) then none
      else
        let children := (inner.flatMap Opener.close ++ opener.after).reverse
        let styled := Inline.styled (styleOf r.mark used) children
        let n := if opener.count = used then { n with openers := outer }
          else { n with openers := { opener with count := opener.count - used, after := [] } :: outer }
        closeRun? r fuel (count - used) (n.add styled)

/-- Take the parts of a text. -/
def take : Nest → List Piece → Nest
  | n, [] => n
  | n, .inline i :: ps => take (n.add i) ps
  | n, .delimiters r :: ps =>
    if r.canClose then
      match n.closeRun? r r.length r.length with
      | some n => take n ps
      | none => (Piece.delimiters r :: ps).foldl literal n
    else take (n.keep r r.length) ps
where
  /-- Add a part as it stands. -/
  literal (n : Nest) : Piece → Nest
    | .inline i => n.add i
    | .delimiters r => n.add (delimiterText r.mark r.length)

end Nest

/-- The inlines of a text. -/
def inlinesOf (pieces : List Piece) : List Inline := (Nest.take {} pieces).close.reverse

end FlowDoc.Markdown
