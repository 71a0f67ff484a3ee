import Vekst.Arithmetic.Wrapping
import Vekst.Relational.Grouping

/-! # Values of a `jsonb` column, and how Go reads them into structs -/

inductive Jsonb where
  | null
  | bool (b : Bool)
  /-- A numeric, with so many digits behind the point. -/
  | number (unscaled : Int) (scale : Nat)
  | string (s : String)
  | array (items : List Jsonb)
  | object (members : List (String × Jsonb))

namespace Jsonb

/-! ## `json.Unmarshal`

A value is read over what is there; `null` leaves it. -/

def readString (s : String) : Jsonb → Option String
  | null => some s
  | string s => some s
  | _ => none

def readInt64 (n : Int64) : Jsonb → Option Int64
  | null => some n
  | number n 0 => if Wrapping.Fits n then some (.ofInt n) else none
  | _ => none

def readSlice {α : Type} (read : Jsonb → Option α) : Jsonb → Option (List α)
  | null => some []
  | array items => items.mapM read
  | _ => none

/-- A pointer, which `null` clears. -/
def readPointer {α : Type} (read : α → Jsonb → Option α) (zero : α) (a : Option α) :
    Jsonb → Option (Option α)
  | null => some none
  | value => (read (a.getD zero) value).map some

theorem readPointer_ne_null {α : Type} {read : α → Jsonb → Option α} {zero : α} {a : Option α}
    {value : Jsonb} (present : value ≠ .null) :
    readPointer read zero a value = (read (a.getD zero) value).map some := by
  cases value with
  | null => exact absurd rfl present
  | _ => rfl

/-- A field of a struct, and how a member of its name is read into it. -/
structure StructField (α : Type) where
  name : String
  read : Jsonb → α → Option α

section Places

variable {α : Type} {fields : List (StructField α)} {states : String → Jsonb → α → Prop}
  {known : String → Jsonb → Prop} {a b : α} {value : Jsonb} {members : List (String × Jsonb)}

/-- What is stated of a field is settled as the field is read, and by no other. -/
structure Placed (fields : List (StructField α)) (states : String → Jsonb → α → Prop)
    (known : String → Jsonb → Prop) : Prop where
  own : ∀ f ∈ fields, ∀ value a b, f.read value a = some b → (states f.name value b ↔ known f.name value)
  other : ∀ f ∈ fields, ∀ g ∈ fields, f.name ≠ g.name → ∀ value read a b, g.read read a = some b →
    (states f.name value b ↔ states f.name value a)

end Places

end Jsonb
