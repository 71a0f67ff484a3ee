import Vekst.Arithmetic.Wrapping
import Vekst.Text.Utf8

/-! # Values of JSON as Go writes and reads them -/

inductive Json where
  | null
  | number (n : Int)
  | string (s : Utf8.Text)
  | array (items : List Json)
  | object (fields : List (String × Json))

namespace Json

/-! ## Writing -/

/-- Bytes that are no UTF-8 are written as replacement characters. -/
def ofString (s : List UInt8) : Json := .string (Utf8.text s)

def ofInt64 (n : Int64) : Json := .number n.toInt

/-- A slice that nothing was appended to is `nil`. -/
def ofSlice {α : Type} (write : α → Json) (items : List α) : Json :=
  if items = [] then .null else .array (items.map write)

/-! ## Reading

`null` leaves the zero value that is there. -/

/-- The members of a struct's fields; those that the object lacks are left as they are. -/
def members : Json → Option (String → Json)
  | null => some fun _ => null
  | object fields => some fun name => (fields.lookup name).getD null
  | _ => none

def readString : Json → Option (List UInt8)
  | null => some []
  | string s => some (Utf8.encode s)
  | _ => none

def readInt64 : Json → Option Int64
  | null => some 0
  | number n => if Wrapping.Fits n then some (.ofInt n) else none
  | _ => none

def readSlice {α : Type} (read : Json → Option α) : Json → Option (List α)
  | null => some []
  | array items => items.mapM read
  | _ => none

def readPointer {α : Type} (read : Json → Option α) : Json → Option (Option α)
  | null => some none
  | value => (read value).map some

/-! ## What is written is read -/

variable {α β : Type} {write : α → Json} {read : Json → Option β}

@[simp] theorem readString_ofString (s : List UInt8) :
    readString (ofString s) = some (Utf8.encode (Utf8.text s)) := rfl

@[simp] theorem readInt64_ofInt64 (n : Int64) : readInt64 (ofInt64 n) = some n := by
  simp [readInt64, ofInt64, Wrapping.fits_toInt]

theorem readSlice_ofSlice {f : α → β} (pointwise : ∀ a, read (write a) = some (f a))
    (items : List α) : readSlice read (ofSlice write items) = some (items.map f) := by
  have each : ∀ items : List α, (items.map write).mapM read = some (items.map f) := by
    intro items
    induction items with
    | nil => rfl
    | cons a items ih => simp [pointwise, ih]
  unfold ofSlice
  split
  case isTrue empty => simp [empty, readSlice]
  case isFalse => exact each items

theorem readPointer_ne_null {value : Json} (present : value ≠ .null) :
    readPointer read value = (read value).map some := by
  cases value with
  | null => exact absurd rfl present
  | _ => rfl

end Json
