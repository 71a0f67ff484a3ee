import Vekst.Normalize.Forms

namespace Vekst.Eval
open Regex Normalize

/-! ## norm.py -/

def noisePatterns : List Pattern := [
  .text "ЧАСТИЧНАЯ ОПЛАТА.".toList,
  .text "RACHUNEK KONTRAHENTA:".toList,
  .text "TYTUL:".toList,
  .text "TYTUŁ:".toList,
  .text "/ROC/".toList,
  .text "/PURP/".toList,
  .text "/URI/".toList]

def quotePairs : List (Char × Char) := "«»“”„‘’\u00a0".toList.zip "\"\"\"\"\"'' ".toList

def translate (s : Text) : Text := s.map fun c => (quotePairs.lookup c).getD c

def space : Pattern := .set isPythonSpace

/-- `(?<=\d)[\s\-]+(?=\d)`. -/
def digitGap (u : Tables) : Pattern :=
  .seq (.behind u.isDigit)
    (.seq (.many (fun c => isPythonSpace c || c = '-') 1) (.ahead (.set u.isDigit)))

def spaces : Pattern := .many isPythonSpace 1

def normalizeDescription (u : Tables) (s : Text) : Text :=
  if s = [] then []
  else
    let s := noisePatterns.foldl (fun s p => sub p [' '] s) (u.upper (translate (u.nfkc s)))
    strip isPythonSpace (sub spaces [' '] (sub (digitGap u) [] s))

def legalForms : List Pattern := formsOver isPythonSpace

/-- `_LF`. -/
def legalForm : Pattern :=
  .sequence [.alt .start space, .oneOf legalForms, .ahead (.alt space .finish)]

/-- `_ADDR`. -/
def address (u : Tables) : Pattern :=
  .alt (.sequence [.alt .start space, .oneOf (addressMarkers.map .text), .boundary u.isWord])
    (.alt (.set (· = ',')) (.seq (.behind isPythonSpace) (.many u.isDigit 2)))

/-- The name without its address; the first token is never cut. -/
def stripAddress (u : Tables) (name : Text) : Text :=
  if name = [] then name
  else
    let head := name.takeWhile (· ≠ ' ')
    let rest := name.drop head.length
    match search (address u) rest with
    | some at_ => strip isPythonSpace (head ++ rest.take at_)
    | none => strip isPythonSpace name

def counterpartyKey (u : Tables) (name taxID account : Text) : Text × Tier :=
  let tid := sub (.set fun c => !u.isDigit c) [] taxID
  if tid ≠ [] ∧ tid ≠ ['0'] ∧ 8 ≤ tid.length then ("tax:".toList ++ tid, .taxID)
  else
    let n := u.upper (translate (u.nfkc (stripAddress u name)))
    let n := sub (.set (· ∈ quoteChars)) [' '] n
    let n := sub legalForm [' '] n
    let n := sub (.set fun c => !u.isWord c && !isPythonSpace c) [' '] n
    let n := sub spaces [] n
    if n ≠ [] then ("name:".toList ++ n, .name)
    else
      let acc := sub (.set fun c => !u.isWord c) [] (u.upper account)
      if acc ≠ [] then ("acct:".toList ++ acc, .account) else ([], .none)

end Vekst.Eval
