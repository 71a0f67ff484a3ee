import Vekst.Text.Regex
import Vekst.Text.Scan

namespace Vekst.Normalize
open Regex

/-- The white space of Python's `str.isspace`, which its `\s` is: the information separators FS, GS,
RS and US beside Unicode's `White_Space`. -/
def isPythonSpace (c : Char) : Bool := (0x1c ≤ c.toNat && c.toNat ≤ 0x1f) || Scan.isSpace c

/-- The Unicode data both languages read alike. -/
structure Tables where
  nfkc : Text → Text
  /-- The full upper-case mapping. -/
  upper : Text → Text
  /-- Category Nd. -/
  isDigit : Char → Bool
  /-- Category L. -/
  isLetter : Char → Bool
  /-- Category N. -/
  isNumber : Char → Bool
  number_of_digit : ∀ c, isDigit c → isNumber c
  letter_apart : ∀ c, isLetter c → isPythonSpace c = false
  number_apart : ∀ c, isNumber c → isPythonSpace c = false ∧ c ≠ '-'

/-- A letter, a number or an underscore: `\w` of Python's `re` on text. -/
def Tables.isWord (u : Tables) (c : Char) : Bool := c = '_' || u.isLetter c || u.isNumber c

end Vekst.Normalize
