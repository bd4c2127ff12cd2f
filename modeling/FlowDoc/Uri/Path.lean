import FlowDoc.Uri.Percent

/-!
# Paths

A path is read segment by segment: `.` stays where it is, `..` drops the last segment, and any other segment is added.
In a file address a drive letter is the root: it is never dropped, and a bar after it becomes a colon.
-/

namespace FlowDoc.Uri

/-- How the scheme of an address is treated. -/
inductive SchemeKind
  | file
  /-- A well-known scheme with a host, such as that of the web. -/
  | special
  | other
  deriving DecidableEq

namespace SchemeKind

def ofName (scheme : String) : SchemeKind :=
  if scheme == "file" then file
  else if ["http", "https", "ws", "wss", "ftp"].contains scheme then special
  else other

def isSpecial (k : SchemeKind) : Bool := k != other

/-- A slash, or a backslash where it is one. -/
def isSlash (k : SchemeKind) (c : Char) : Bool := c == '/' || (k.isSpecial && c == '\\')

end SchemeKind

/-- A letter and a colon or bar. -/
def isDriveLetter : List Char → Bool
  | [a, b] => a.isAlpha && (b == ':' || b == '|')
  | _ => false

/-- A letter and a colon. -/
def isNormalizedDrive (cs : List Char) : Bool := isDriveLetter cs && cs.getLast? == some ':'

/-- Whether a text begins with a drive letter as a segment of its own. -/
def startsWithDrive (cs : List Char) : Bool :=
  isDriveLetter (cs.take 2) && match cs[2]? with
    | none => true
    | some c => ['/', '\\', '?', '#'].contains c

/-- The characters up to and with the last slash. -/
def uptoLastSlash (path : List Char) : List Char := (path.reverse.dropWhile (· != '/')).reverse

def endsWithSlash (path : List Char) : Bool := path.getLast? == some '/'

/-- Drop what follows the last slash, unless it is a drive. -/
def dropSegment (kind : SchemeKind) (path : List Char) : List Char :=
  let kept := uptoLastSlash path
  if kind = .file && isNormalizedDrive (path.drop kept.length) then path else kept

/-- Whether the final slash of a path ends a segment that `..` may drop: it is not the root's, nor a drive's. -/
def finalSlashDrops (path : List Char) : Bool :=
  let kept := uptoLastSlash path.dropLast
  !kept.isEmpty && !startsWithDrive (path.drop kept.length)

def isDot (segment : List Char) : Bool :=
  let s := segment.map Char.toLower
  s == ['.'] || s == ['%', '2', 'e']

def isDoubleDot (segment : List Char) : Bool :=
  let s := segment.map Char.toLower
  [".." , "%2e%2e", "%2e.", ".%2e"].any fun d => s == d.toList

/-- Add a slash at the end if there is none. -/
def closeSegment (path : List Char) : List Char := if endsWithSlash path then path else path ++ ['/']

/-- Go one segment up. -/
def goUp (kind : SchemeKind) (path : List Char) (slash : Bool) : List Char :=
  let path := if endsWithSlash path && finalSlashDrops path then path.dropLast else path
  let path := dropSegment kind path
  if slash then closeSegment path else path

/-- Add an encoded segment, followed by a slash or the end. -/
def addSegment (kind : SchemeKind) (path : List Char) (segment : List Char) (slash : Bool) : List Char :=
  let path := if kind = .file && !segment.isEmpty && isNormalizedDrive (path.drop 1) then path ++ ['/'] else path
  if isDoubleDot segment then goUp kind path slash
  else if isDot segment then closeSegment path
  else
    let segment := if kind = .file && path.length = 1 && isDriveLetter segment then segment.take 1 ++ [':'] else segment
    path ++ segment ++ (if slash then ['/'] else [])

/-- The segments of a text, cut at its slashes. -/
def segments (kind : SchemeKind) (cs : List Char) : List (List Char) := cs.splitOnP kind.isSlash

/-- Add segments, the last of them not followed by a slash. -/
def addSegments (kind : SchemeKind) (path : List Char) : List (List Char) → List Char
  | [] => path
  | [s] => addSegment kind path (encode inPath s) false
  | s :: rest => addSegments kind (addSegment kind path (encode inPath s) true) rest

/-- Read a text on from a path. The path of a file has one slash at its root. -/
def readPath (kind : SchemeKind) (path : List Char) (cs : List Char) : List Char :=
  let read := addSegments kind path (segments kind cs)
  if kind = .file then '/' :: read.dropWhile (· == '/') else read

/-- Whether a path read from the root holds a drive at its start. -/
def holdsDrive (path : List Char) : Bool := startsWithDrive (path.drop 1)

end FlowDoc.Uri
