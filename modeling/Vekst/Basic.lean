import Mathlib.Data.Nat.Digits.Defs

namespace Vekst

/-- Identifiers drawn by `gen_random_uuid`: 128 bits, of which equality and order are used. -/
abbrev UUID := Nat

/-- `uuid.Nil`, which the source stores as `NULL`. -/
abbrev UUID.zero : UUID := 0

/-- The 32 hexadecimal digits in their five groups. -/
def UUID.text (id : UUID) : String :=
  let digits := (Nat.toDigits 16 id).leftpad 32 '0'
  let group (start width : Nat) := (digits.drop start).take width
  String.ofList (List.intercalate ['-']
    [group 0 8, group 8 4, group 12 4, group 16 4, group 20 12])

/-- A reading of the database clock. -/
abbrev Timestamp := Nat

/-- An amount of one currency in its minor units. -/
structure Money where
  currencyCode : String
  minorUnits : Int64
deriving DecidableEq, Repr

end Vekst
