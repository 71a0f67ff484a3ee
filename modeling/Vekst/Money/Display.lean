import Vekst.Calendar.Decimal
import Vekst.Money.Exponents

namespace Vekst.Money

/-! ## Amounts as the client shows them -/

inductive Locale where
  | en
  | ru
deriving DecidableEq, Repr

/-- What the client takes from `Intl.NumberFormat`: a `BigInt` formatted, and the decimal part of
the number 1.1, where it has one. -/
structure Intl where
  format : Locale → Int → List Char
  decimal : Locale → Option (List Char)

/-- U+2212. -/
def minus : Char := '−'

def decimalSeparator (intl : Intl) (locale : Locale) : List Char :=
  (intl.decimal locale).getD ['.']

/-- `BigInt` of a decimal text: an empty one is zero. No amount is written in another radix. -/
def bigInt (s : List Char) : Option Int :=
  let digits := if s.head? = some '-' || s.head? = some '+' then s.tail else s
  if s = [] then some 0
  else if digits = [] || !digits.all Char.isDigit then none
  else some (if s.head? = some '-' then -(Decimal.value digits : Int) else Decimal.value digits)

/-- Absent where `BigInt` throws. -/
def formatMinorUnits (intl : Intl) (minorUnits : List Char) (exponent : Nat) (locale : Locale) :
    Option (List Char) := do
  let negative := minorUnits.head? = some '-'
  let digits := (if negative then minorUnits.drop 1 else minorUnits).leftpad (exponent + 1) '0'
  let whole := digits.take (digits.length - exponent)
  let fraction := if exponent = 0 then [] else digits.drop (digits.length - exponent)
  let grouped := intl.format locale (← bigInt whole)
  let body := if fraction ≠ [] then grouped ++ decimalSeparator intl locale ++ fraction else grouped
  return if negative then minus :: body else body

/-- `exponentOf`, under the upper case of the code. -/
def exponentOf (toUpperCase : String → String) (code : String) : Option Nat :=
  exponent (toUpperCase code)

/-- Absent where an error is thrown: of an unknown currency, or by `BigInt`. -/
def formatMoney (intl : Intl) (toUpperCase : String → String) (currencyCode : String)
    (minorUnits : List Char) (locale : Locale) : Option (List Char) := do
  let exponent ← exponentOf toUpperCase currencyCode
  formatMinorUnits intl minorUnits exponent locale

end Vekst.Money
