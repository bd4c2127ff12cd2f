import FlowDoc.Render.Replay
import FlowDoc.Render.Shape

/-!
# Handlers of inlines

Text, breaks, code spans, emphasis, links, raw markup and task markers. Each answers a node of another kind with a
mismatch.
-/

namespace FlowDoc.Render

open Xaml
open Style (Role)

/-- What emphasis becomes. -/
inductive EmphasisTarget
  | element (type : ElementType)
  | styled (role : Role)
  /-- Nothing: its children stand alone. -/
  | unwrapped
  deriving DecidableEq

/-- What a run of delimiters means. -/
def emphasisTarget (delimiter : Char) (count : Nat) : EmphasisTarget :=
  if delimiter = '*' ∨ delimiter = '_' then
    if count = 2 then .element .bold else if count = 1 then .element .italic else .unwrapped
  else if delimiter = '~' then .styled .strikeThrough
  else if delimiter = '^' then
    if count = 2 then .styled .superscript else if count = 1 then .styled .subscript else .unwrapped
  else if delimiter = '+' then .styled .inserted
  else if delimiter = '=' then .styled .marked
  else .unwrapped

def text : InlineHandler
  | _, .text s => Write.text s
  | _, _ => mismatch "text"

/-- A hard break is an object, a soft one a space. -/
def lineBreak : InlineHandler
  | _, .lineBreak hard => if hard then Write.lineBreak else Write.char ' '
  | _, _ => mismatch "line_break"

def code : InlineHandler
  | _, .code s => object .span do
    Write.style .code
    content true [Write.text s]
  | _, _ => mismatch "code"

def emphasis : InlineHandler
  | _, .emphasis delimiter count children =>
    match emphasisTarget delimiter count with
    | .element type => object type (content false children)
    | .styled role => object .span do
      Write.style role
      content false children
    | .unwrapped => inOrder children
  | _, _ => mismatch "emphasis"

def delimiter : InlineHandler
  | _, .delimiter literal children => do
    Write.literal literal
    inOrder children
  | _, _ => mismatch "delimiter"

/-- A link to a target, with the target as its tool tip if there is no title. -/
def hyperlink (target : String) (title : Option String) (body : Write Unit) : Write Unit :=
  object .hyperlink do
    Write.style .hyperlink
    Write.member (.name "NavigateUri") (.uri target)
    Write.member (.name "ToolTip") (.text (title.getD target))
    body

/-- An image; what stands for it as text is left out. -/
def image (target : String) (title : Option String) : Write Unit :=
  object .image do
    Write.style .image
    Write.member? (.attached "ToolTipService" "ToolTip") (title.map Scalar.text)
    Write.member (.name "Source") (.uri target)

def link : InlineHandler
  | o, .link url title isImage children =>
    let target := o.navigate url
    let title := title.filter (!·.isEmpty)
    if isImage then image target title else hyperlink target title (content false children)
  | _, _ => mismatch "link"

/-- The address of an autolink: that of a mailbox has a scheme of its own. -/
def autolinkTarget (url : String) (isEmail : Bool) : String :=
  if isEmail && (Text.stripPrefix? "mailto:".toList url.toList).isNone then "mailto:" ++ url else url

def autolink : InlineHandler
  | o, .autolink url isEmail =>
    hyperlink (o.navigate (autolinkTarget url isEmail)) (some url) (content false [Write.text url])
  | _, _ => mismatch "autolink"

def rawInline : InlineHandler
  | o, .raw s =>
    match o.rawMarkup with
    | .replay => replayFragment s
    | .text => Write.literal s
    | .skip => pure ()
  | _, _ => mismatch "raw"

/-- An empty span that carries the state of the task as its tag. -/
def taskMarker : InlineHandler
  | _, .task checked => object .span do
    Write.style .taskList
    Write.member (.name "Tag") (.bool checked)
  | _, _ => mismatch "task_list"

end FlowDoc.Render
