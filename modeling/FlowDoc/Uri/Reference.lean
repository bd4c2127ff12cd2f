import FlowDoc.Uri.Address

/-!
# References

What a link may point at. A target that is not a well-formed reference is replaced by `#`, so a broken link stays a
(dead) link; a relative one is joined to the base address, if there is one.
-/

namespace FlowDoc.Uri

/-- Characters that no reference holds. -/
def isForbidden (c : Char) : Bool :=
  Text.isSpace c || Text.isControl c || ['"', '<', '>', '\\', '^', '`', '{', '|', '}'].contains c

/-- An address against which the form of relative references is tried. -/
def probe : Address := { scheme := "http", authority := some { host := "relative.invalid" }, path := ['/'] }

/-- Whether a text is an address or a relative reference. -/
def isWellFormed [Domains] (s : String) : Bool :=
  !s.isEmpty && !s.toList.any isForbidden && hasWholeEscapes s &&
    match parse s with
    | .ok _ => true
    | .error .relativeWithoutBase => (probe.join s).isOk
    | .error _ => false

/-- A relative reference joined to the base. Addresses and bare fragments stay as they are. -/
def resolve [Domains] (base? : Option Address) (s : String) : String :=
  if s.toList.head? == some '#' then s
  else match parse s, base? with
    | .error .relativeWithoutBase, some base =>
      match base.join s with
      | .ok a => a.toString
      | .error _ => s
    | _, _ => s

/-- The target that is written for a link. -/
def navigate [Domains] (base? : Option Address) (s : String) : String :=
  if s.toList.head? == some '#' then s
  else if isWellFormed s then resolve base? s
  else "#"

/-- Read an address that others can be relative to. -/
def parseBase [Domains] (s : String) : Except RenderError Address :=
  match parse s with
  | .error fault => .error (.invalidBaseUri s (.notAbsolute fault))
  | .ok a => if a.isOpaque then .error (.invalidBaseUri s .opaquePath) else .ok a

end FlowDoc.Uri
