import Vekst.Normalize.Unicode

namespace Vekst.Normalize
open Regex

/-! ## normalize.go -/

/-- Bank boilerplate, matched after upper-casing. -/
def noise : List Text := [
  "ЧАСТИЧНАЯ ОПЛАТА.".toList,
  "RACHUNEK KONTRAHENTA:".toList,
  "TYTUL:".toList,
  "TYTUŁ:".toList,
  "/ROC/".toList,
  "/PURP/".toList,
  "/URI/".toList]

def quotePairs : List (Char × Char) := "«»“”„‘’\u00a0".toList.zip "\"\"\"\"\"'' ".toList

def quotes (s : Text) : Text := s.map fun c => (quotePairs.lookup c).getD c

/-- NFKC, the quotes and the upper case, in this order. -/
def prepare (u : Tables) (s : Text) : Text := u.upper (quotes (u.nfkc s))

def isSeparator (c : Char) : Bool := Scan.isSpace c || c = '-'

/-- The loop over the runes: `skip` of them are already written or fallen away. -/
def joinFrom (separator digit : Char → Bool) : Nat → Option Char → Text → Text
  | _, _, [] => []
  | skip + 1, _, r :: rest => joinFrom separator digit skip (some r) rest
  | 0, last, r :: rest =>
      if !separator r || !last.any digit then r :: joinFrom separator digit 0 (some r) rest
      else
        -- A run of separators falls away only when a digit follows it as well.
        let run := (r :: rest).takeWhile separator
        let next := (r :: rest).drop run.length
        (if next.head?.any digit then [] else run) ++
          joinFrom separator digit (run.length - 1) (some r) rest

def joinDigitGroups (u : Tables) (s : Text) : Text := joinFrom isSeparator u.isDigit 0 none s

def collapseSpaces (s : Text) : Text := [' '].intercalate (fields Scan.isSpace s)

def description (u : Tables) (s : Text) : Text :=
  if s = [] then []
  else collapseSpaces (joinDigitGroups u (noise.foldl (fun s n => replaceAll n [' '] s) (prepare u s)))

end Vekst.Normalize
