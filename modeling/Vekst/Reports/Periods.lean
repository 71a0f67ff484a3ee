import Mathlib.Data.List.Sort
import Mathlib.Data.String.Basic
import Vekst.Calendar.Date
import Vekst.Reports.Pnl
import Vekst.Text.Scan

namespace Vekst.Reports
open Calendar Decimal

abbrev Granularity.monthly : Granularity := ⟨"month"⟩
abbrev Granularity.quarterly : Granularity := ⟨"quarter"⟩
abbrev Granularity.yearly : Granularity := ⟨"year"⟩

/-- `%04d-%02d` of a year and a month. -/
def monthText (m : Month) : String :=
  String.ofList (paddedInt 4 m.year ++ '-' :: padded 2 m.number)

def quarterText (year : Int) (quarter : Nat) : String :=
  String.ofList (paddedInt 4 year ++ '-' :: 'Q' :: Nat.toDigits 10 quarter)

def yearText (year : Int) : String := String.ofList (paddedInt 4 year)

/-- `Sscanf` under `%4d-%2d`; what follows the second number is not looked at. -/
def scanMonth (text : List Char) : Option (Int × Int) := do
  let (year, rest) ← Scan.int 4 text
  let rest ← Scan.literal '-' rest
  let (number, _) ← Scan.int 2 rest
  return (year, number)

def parseMonth (month : String) : Except Failure Month :=
  if month.utf8ByteSize ≠ 7 then .error (.notAMonth month)
  else match scanMonth month.toList with
    | none => .error (.notAMonth month)
    | some (year, number) =>
        if valid : 1 ≤ number ∧ number ≤ 12 then .ok ⟨year, number.toNat, by omega⟩
        else .error (.namesMonth month number)

/-- The switch of `Label`: the column a month belongs to. -/
def Granularity.column (g : Granularity) (m : Month) : Except Failure String :=
  if g = .monthly then .ok (monthText m)
  else if g = .quarterly then .ok (quarterText m.year ((m.number - 1) / 3 + 1))
  else if g = .yearly then .ok (yearText m.year)
  else .error (.notAGranularity g.name)

def Granularity.label (g : Granularity) (month : String) : Except Failure String := do
  let m ← parseMonth month
  g.column m

/-- The loop of `Months`, which ends at the first text after `toMonth` if there is one. -/
def monthsFrom : Nat → Month → String → Option (List String)
  | 0, _, _ => none
  | fuel + 1, m, toMonth =>
      if toMonth < monthText m then some []
      else (monthsFrom fuel m.next toMonth).map (monthText m :: ·)

/-- More months than lie before any text that starts with a digit or a sign. -/
def monthsFuel : Nat := 12 * 110000

def months (fromMonth toMonth : String) : Except Failure (List String) := do
  if toMonth < fromMonth then .error (.periodIsAfter fromMonth toMonth)
  let m ← parseMonth fromMonth
  let _ ← parseMonth toMonth
  match monthsFrom monthsFuel m toMonth with
  | none => .error (.doesNotReturn toMonth)
  | some out => .ok (out.insertionSort (· ≤ ·))

def addLabel (out : List String) (label : String) : List String :=
  if label ∈ out then out else out ++ [label]

def periods (fromMonth toMonth : String) (g : Granularity) : Except Failure (List String) := do
  let months ← months fromMonth toMonth
  let labels ← months.mapM g.label
  return labels.foldl addLabel []

end Vekst.Reports
