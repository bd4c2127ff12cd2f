import FlowDoc.Style.Role

/-!
# Themes

A theme says which resource key each role has and where the keys live. The keys known to a `KeyClass` are members of a
class of the application and are written as static references to it; every other key is written by its bare name.
-/

namespace FlowDoc.Style

/-- The keys that replace the built-in ones, at most one a role. -/
structure Overrides where
  entries : List (Role × ResourceKey) := []
  deriving DecidableEq

namespace Overrides

/-- The key that replaces the built-in one. -/
def find? (o : Overrides) (r : Role) : Option ResourceKey := o.entries.lookup r

/-- Replace the key of a role. -/
def insert (o : Overrides) (r : Role) (k : ResourceKey) : Overrides :=
  ⟨(r, k) :: o.entries.filter (·.1 != r)⟩

@[simp] theorem find?_insert_self (o : Overrides) (r : Role) (k : ResourceKey) : (o.insert r k).find? r = some k := by
  simp [insert, find?]

theorem find?_insert_of_ne (o : Overrides) {r s : Role} (k : ResourceKey) (h : s ≠ r) :
    (o.insert r k).find? s = o.find? s := by
  have hs : (s == r) = false := by simp [h]
  simp only [insert, find?, List.lookup_cons, hs]
  induction o.entries with
  | nil => rfl
  | cons e es ih =>
    obtain ⟨t, l⟩ := e
    by_cases ht : t = r
    · subst ht
      simpa [List.lookup_cons, hs] using ih
    · have ht' : (t != r) = true := by simp [ht]
      simp only [List.filter_cons, ht', if_true, List.lookup_cons, ih]

/-- Overrides by role name, a later one in place of an earlier one of the same role. -/
def ofNames : List (String × String) → Except RenderError Overrides :=
  List.foldlM (fun o (entry : String × String) => (Role.ofName entry.1).map fun r => o.insert r ⟨entry.2⟩) {}

/-- The key of a role. -/
def resolve (o : Overrides) (r : Role) : ResourceKey := (o.find? r).getD r.defaultKey

def isOverridden (o : Overrides) (r : Role) : Bool := (o.find? r).isSome

end Overrides

/-- The class that has style keys as static members. -/
structure KeyClass where
  typeName : String := "MarkdownXaml"
  pre : String := "xmarkdig"
  clrNamespace : String := "Neo.Markdig.Xaml"
  assembly : String := "Neo.Markdig.Xaml"
  /-- Keys declared beside the built-in ones. -/
  extra : List ResourceKey := []
  deriving DecidableEq

namespace KeyClass

/-- The keys of the class, the built-in ones first. -/
def keys (c : KeyClass) : List ResourceKey := Role.all.map Role.defaultKey ++ c.extra

def contains (c : KeyClass) (k : ResourceKey) : Bool := c.keys.contains k

/-- Declare a further key; one that is there already changes nothing. -/
def withKey (c : KeyClass) (k : ResourceKey) : KeyClass :=
  if c.contains k then c else { c with extra := c.extra ++ [k] }

/-- The namespace under which the class is found. -/
def namespaceUri (c : KeyClass) : String := "clr-namespace:" ++ c.clrNamespace ++ ";assembly=" ++ c.assembly

/-- The name of a key as a member of the class. -/
def staticReference (c : KeyClass) (k : ResourceKey) : String := c.pre ++ ":" ++ c.typeName ++ "." ++ k.name

end KeyClass

/-- Which keys the roles have and where the keys live. -/
structure Theme where
  overrides : Overrides := {}
  keyClass : KeyClass := {}
  deriving DecidableEq

namespace Theme

def resolve (t : Theme) (r : Role) : ResourceKey := t.overrides.resolve r

/-- The key that a reference stands for. -/
def keyOf (t : Theme) : Ref → ResourceKey
  | .role r => t.resolve r
  | .key k => k

/-- A role's line of the listing: its name, padded, how its key is written, and a mark if it was overridden. -/
def listingLine (t : Theme) (r : Role) : String :=
  let key := t.resolve r
  let reference := if t.keyClass.contains key then "\x7bx:Static " ++ t.keyClass.staticReference key ++ "\x7d" else key.name
  let padding := String.ofList (List.replicate (14 - r.name.length) ' ')
  "  " ++ r.name ++ padding ++ " " ++ reference ++ (if t.overrides.isOverridden r then "  (override)" else "") ++ "\n"

/-- The listing of all roles with the references written for them. -/
def listing (t : Theme) : String :=
  "Resource keys: xmlns:" ++ t.keyClass.pre ++ "=\"" ++ t.keyClass.namespaceUri ++ "\"\n\n" ++
    String.join (Role.all.map t.listingLine)

end Theme

end FlowDoc.Style
