import Mathlib.Algebra.Order.Ring.Unbundled.Rat
import Vekst.Normalize.Unicode
import Vekst.Text.Csv

namespace Vekst.Eval
open Regex Normalize

/-! ## sources.py -/

def date (u : Tables) : Pattern :=
  let digit := Pattern.set u.isDigit
  .sequence [digit, digit, .set (· = '.'), digit, digit, .set (· = '.'),
    .sequence (List.replicate 4 digit)]

def isHeader (row : List Text) : Bool := row.head?.any ("Дата док".toList.isPrefixOf ·)

end Vekst.Eval
