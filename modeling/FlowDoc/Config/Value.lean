import FlowDoc.Decimal.Binary64

/-!
# Configuration values

The values of a configuration before their meaning is known. A table holds one value a key, in the order the keys came.
Statements: `get?_put_self` and `get?_put_of_ne` say what a key of a table holds after another was put there.
-/

namespace FlowDoc.Config

/-- What is kept under keys, one a key. -/
abbrev Entries (α : Type) := List (String × α)

namespace Entries

variable {α : Type}

def get? (es : Entries α) (key : String) : Option α := es.lookup key

/-- Keep `a` under a key, in the place of what was there. -/
def put (key : String) (a : α) : Entries α → Entries α
  | [] => [(key, a)]
  | (k, b) :: es => if k = key then (key, a) :: es else (k, b) :: put key a es

@[simp] theorem get?_put_self (es : Entries α) (key : String) (a : α) : (es.put key a).get? key = some a := by
  induction es with
  | nil => simp [put, get?]
  | cons e es ih =>
    obtain ⟨k, b⟩ := e
    by_cases h : k = key
    · simp [put, h, get?]
    · have h' : (key == k) = false := by simp [Ne.symm h]
      simpa [put, h, get?, List.lookup_cons, h'] using ih

theorem get?_put_of_ne (es : Entries α) {key other : String} (a : α) (h : other ≠ key) :
    (es.put key a).get? other = es.get? other := by
  induction es with
  | nil => simp [put, get?, h]
  | cons e es ih =>
    obtain ⟨k, b⟩ := e
    by_cases hk : k = key
    · have h' : (other == key) = false := by simp [h]
      simp [put, hk, get?, List.lookup_cons, h']
    · simp only [put, hk, if_false, get?, List.lookup_cons]
      exact congrArg (fun r => match other == k with | true => some b | false => r) ih

end Entries

/-- A value of a configuration. -/
inductive Value
  | nil
  | bool (b : Bool)
  | int (n : Int)
  | float (x : Binary64)
  | text (s : String)
  | list (items : List Value)
  | table (entries : List (String × Value))

namespace Value

/-- What a table holds; all else holds nothing. -/
def entries : Value → Entries Value
  | table es => es
  | _ => []

/-- The items of a list; all else has none. -/
def items : Value → List Value
  | list xs => xs
  | _ => []

end Value

end FlowDoc.Config
