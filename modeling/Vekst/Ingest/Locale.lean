import Vekst.Ingest.Statement
import Vekst.Money.Decimal

namespace Vekst.Ingest

/-! ## locale.go -/

/-- The spaces between thousands: a space, a no-break space and a figure space. -/
def thousandSpaces : List Char := [' ', '\u00a0', '\u2007']

/-- `^\d+(\.\d+)?$`. -/
def plainDecimal (s : List Char) : Bool :=
  let whole := s.takeWhile Char.isDigit
  whole ≠ [] && match s.drop whole.length with
    | [] => true
    | c :: frac => c = '.' && frac ≠ [] && frac.all Char.isDigit

/-- What stands before the last mark of a kind, and what stands behind it. -/
def cutLast (mark : Char) (s : List Char) : Option (List Char × List Char) :=
  if mark ∈ s then
    let behind := (s.reverse.takeWhile (· ≠ mark)).reverse
    some (s.take (s.length - behind.length - 1), behind)
  else none

/-- The number without its spaces, and its sign. -/
def unsignedText (s : List Char) : Bool × List Char :=
  let s := trimSpace (s.filter (· ∉ thousandSpaces))
  let neg := s.head? = some '-'
  let s := if neg then s.tail else s
  (neg, if s.head? = some '+' then s.tail else s)

/-- The mark that comes last is the decimal one, and the other groups thousands; a comma alone is
the decimal mark. -/
def decimalByPosition (s : List Char) : List Char :=
  match cutLast ',' s, cutLast '.' s with
  | some (whole, frac), some (whole', frac') =>
      if whole'.length < whole.length then whole.filter (· ≠ '.') ++ '.' :: frac
      else whole'.filter (· ≠ ',') ++ '.' :: frac'
  | some (whole, frac), none => whole ++ '.' :: frac
  | none, _ => s

def decimalFromLocale (s : List Char) : Option (List Char) :=
  if trimSpace (s.filter (· ∉ thousandSpaces)) = [] then some ['0']
  else
    let (neg, t) := unsignedText s
    let t := decimalByPosition t
    if plainDecimal t then some (if neg then '-' :: t else t) else none

def parseAmount (currencyCode : String) (raw : List Char) : Option Money :=
  (decimalFromLocale raw).bind (Money.parse currencyCode)

end Vekst.Ingest
