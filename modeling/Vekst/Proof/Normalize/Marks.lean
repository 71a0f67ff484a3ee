import Mathlib.Algebra.GroupWithZero.Nat
import Vekst.Proof.Normalize.Idempotence

namespace Vekst.Normalize
open Regex

/-! ## What the tables promise of white space and quotation marks -/

/-- The straight quotation mark, or what is read as one. -/
def isMark (c : Char) : Bool := (quotePairs.lookup c).getD c == '"'

/-- White space and quotation marks keep to themselves in Unicode's normal form and in its upper
case. -/
structure Tables.Marked (u : Tables) : Prop where
  /-- Nothing combines with white space, before it or behind it. -/
  nfkc_cut {x y : Text} {c : Char} : Scan.isSpace c →
    u.nfkc (x ++ c :: y) = u.nfkc x ++ u.nfkc [c] ++ u.nfkc y
  nfkc_blank {c d : Char} : Scan.isSpace c → d ∈ u.nfkc [c] → Scan.isSpace d
  upper_blank {c : Char} : Scan.isSpace c → u.upper [c] = [c]
  /-- Quotation marks take no part in a composition. -/
  nfkc_marks (x y : Text) :
    (u.nfkc (x ++ y)).countP isMark = (u.nfkc x).countP isMark + (u.nfkc y).countP isMark
  upper_marks (c : Char) : (u.upper [c]).count '"' = [c].count '"'

section Trimmed

variable {u : Tables} {s x y lead trail : Text}

/-! ## Preparing a text with blanks at its ends -/

end Trimmed

/-! ## The quotation marks of a description -/

section Counted

variable {u : Tables} {s : Text}

end Counted

end Vekst.Normalize
