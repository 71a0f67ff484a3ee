import Vekst.Calendar.Decimal
import Vekst.Money.Exponents

namespace Vekst.Money

/-! ## Decimal text into minor units -/

/-- `strconv.ParseInt` to base ten and 64 bits. -/
def parseInt (s : List Char) : Option Int64 :=
  let (negative, digits) := match s with
    | '-' :: digits => (true, digits)
    | '+' :: digits => (false, digits)
    | digits => (false, digits)
  let n : Int := if negative then -(Decimal.value digits : Int) else Decimal.value digits
  if digits ≠ [] ∧ digits.all Char.isDigit ∧ -2 ^ 63 ≤ n ∧ n < 2 ^ 63 then some (.ofInt n) else none

def pow10 (exp : Nat) : Int64 := .ofNat (10 ^ exp)

def negIf (neg : Bool) (n : Int64) : Int64 := if neg then -n else n

/-- `Parse`; nothing that is modelled reads the text of its errors. -/
def parse (currencyCode : String) (decimal : List Char) : Option Money := do
  let exp ← exponent currencyCode
  let neg := decimal.head? = some '-'
  let s := if neg then decimal.tail else decimal
  let whole := s.takeWhile (· ≠ '.')
  let hasFrac := whole.length < s.length
  let frac := s.drop (whole.length + 1)
  if exp = 0 then
    if hasFrac then none
    else
      let n ← parseInt whole
      return ⟨currencyCode, negIf neg n⟩
  else if exp < frac.length then none
  else
    let wholeN ← parseInt whole
    let fracN ← parseInt (frac ++ List.replicate (exp - frac.length) '0')
    return ⟨currencyCode, negIf neg (wholeN * pow10 exp + fracN)⟩

/-! ## Minor units into decimal text -/

/-- `strconv.FormatInt` to base ten. -/
def formatInt (n : Int64) : List Char := Decimal.paddedInt 0 n.toInt

/-- `Format`; a code that the table does not hold is an error. -/
def format (m : Money) : Option (List Char) := do
  let exp ← exponent m.currencyCode
  if exp = 0 then return formatInt m.minorUnits
  let neg := m.minorUnits < 0
  let units := if neg then -m.minorUnits else m.minorUnits
  let scale := pow10 exp
  let s := formatInt (units / scale) ++ '.' :: Decimal.paddedInt exp (units % scale).toInt
  return if neg then '-' :: s else s

end Vekst.Money
