import Vekst.Calendar.Date
import Vekst.Failure
import Vekst.Basic
import Vekst.Text.Scan

namespace Vekst.Ingest
open Calendar

/-- One row of a parsed statement, as far as it is stored. -/
structure Row where
  /-- The line of the original file, from one. -/
  lineNo : Int
  bookedOn : String
  documentNo : String
  counterpartyName : String
  counterpartyTaxID : String
  counterpartyAccount : String
  description : String
  regulatedCode : String
  debit : Money
  credit : Money
deriving DecidableEq, Repr

/-- What a parser makes of a file, as far as it is stored. -/
structure Statement where
  account : String
  currency : String
  holder : String
  rows : List Row
deriving DecidableEq, Repr

/-! ## ParseDate -/

inductive Part where
  | day
  | month
  | year
  | literal (c : Char)
deriving DecidableEq, Repr

def dateLayouts : List (List Part) := [
  [.day, .literal '.', .month, .literal '.', .year],
  [.year, .literal '-', .month, .literal '-', .day],
  [.day, .literal '/', .month, .literal '/', .year],
  [.day, .literal '-', .month, .literal '-', .year]]

/-- Exactly so many digits. -/
def fixedNumber (width : Nat) (text : List Char) : Option (Nat × List Char) :=
  let digits := text.take width
  if digits.length = width && digits.all Char.isDigit then
    some (Decimal.value digits, text.drop width)
  else none

/-- Reads a layout to the end of the text, into a year, a month and a day. -/
def readLayout : List Part → List Char → Nat × Nat × Nat → Option (Nat × Nat × Nat)
  | [], [], found => some found
  | [], _ :: _, _ => none
  | .day :: rest, text, (year, month, _) => do
      let (day, text) ← fixedNumber 2 text
      readLayout rest text (year, month, day)
  | .month :: rest, text, (year, _, day) => do
      let (month, text) ← fixedNumber 2 text
      readLayout rest text (year, month, day)
  | .year :: rest, text, (_, month, day) => do
      let (year, text) ← fixedNumber 4 text
      readLayout rest text (year, month, day)
  | .literal c :: rest, text, found => do
      let text ← Scan.literal c text
      readLayout rest text found

def dateOf (year month day : Nat) : Option Date :=
  if valid : (1 ≤ month ∧ month ≤ 12) ∧ 1 ≤ day ∧ day ≤ daysIn year month then
    some ⟨year, month, day, valid.1, valid.2⟩
  else none

def trimSpace (text : List Char) : List Char :=
  ((text.dropWhile Scan.isSpace).reverse.dropWhile Scan.isSpace).reverse

def parseDate (raw : String) : Except Failure Date :=
  let text := trimSpace raw.toList
  match dateLayouts.findSome? fun layout => do
    let (year, month, day) ← readLayout layout text (0, 0, 0)
    dateOf year month day
  with
  | some date => .ok date
  | none => .error (.notADate (String.ofList text))

end Vekst.Ingest
