import Vekst.Normalize.Description
import Vekst.Normalize.Forms

namespace Vekst.Normalize
open Regex

/-! ## Legal forms -/

/-- `\s` of Go's `regexp`, which is of ASCII alone. -/
def isRegexpSpace (c : Char) : Bool := c ∈ ['\t', '\n', '\x0c', '\r', ' ']

def legalForms : List Pattern := formsOver isRegexpSpace

/-- `(?:\s|$)` behind a form. -/
def formBoundary (rest : Text) : Bool := rest.head?.all isRegexpSpace

/-- Where a legal form at the start of a text ends. -/
def formEnd (s : Text) : Option Nat :=
  legalForms.findSome? fun form => (form.lengths [] s).find? fun n => formBoundary (s.drop n)

/-- The loop over the runes: `skip` of them belong to the form just removed. -/
def stripFormsFrom : Nat → Bool → Text → Text
  | _, _, [] => []
  | skip + 1, _, _ :: rest => stripFormsFrom skip false rest
  | 0, first, r :: rest =>
      let end_ := (if first then formEnd (r :: rest) else none).or
        (if Scan.isSpace r then (formEnd rest).map (1 + ·) else none)
      match end_ with
      | none => r :: stripFormsFrom 0 false rest
      | some n => ' ' :: stripFormsFrom (n - 1) false rest

def stripLegalForms (s : Text) : Text := stripFormsFrom 0 true s

/-! ## Addresses -/

/-- Whether the text opens with an address marker that ends on a word boundary. -/
def hasMarker (u : Tables) (s : Text) : Bool := addressMarkers.any fun m =>
  m.isPrefixOf s && m.getLast?.any u.isWord != (s.drop m.length).head?.any u.isWord

def digitRun (u : Tables) (s : Text) : Nat := (s.takeWhile u.isDigit).length

/-- The loop over the runes, behind the one before; at the start there is none. -/
def findAddressFrom (u : Tables) : Option Char → Text → Option Nat
  | _, [] => none
  | prev, r :: rest =>
      if prev.isNone && hasMarker u (r :: rest) then some 0
      else if Scan.isSpace r && hasMarker u rest then some 0
      else if r = ',' then some 0
      else if prev.any Scan.isSpace && 2 ≤ digitRun u (r :: rest) then some 0
      else (findAddressFrom u (some r) rest).map (1 + ·)

def findAddress (u : Tables) (s : Text) : Option Nat := findAddressFrom u none s

/-- The name without its address; the first token is never cut. -/
def stripAddress (u : Tables) (name : Text) : Text :=
  let head := name.takeWhile (· ≠ ' ')
  let rest := name.drop head.length
  match findAddress u rest with
  | some at_ => strip Scan.isSpace (head ++ rest.take at_)
  | none => strip Scan.isSpace name

/-! ## Keys -/

def keepDigits (u : Tables) (s : Text) : Text := s.filter u.isDigit

/-- The tax identifier, the name and the account in turn. -/
def counterpartyKey (u : Tables) (name taxID account : Text) : Text × Tier :=
  let tid := keepDigits u taxID
  if tid ≠ [] ∧ tid ≠ ['0'] ∧ 8 ≤ tid.length then ("tax:".toList ++ tid, .taxID)
  else
    let n := prepare u (stripAddress u name)
    let n := n.map fun r => if r ∈ quoteChars then ' ' else r
    let n := stripLegalForms n
    let n := n.map fun r => if !u.isWord r && !Scan.isSpace r then ' ' else r
    let n := (fields Scan.isSpace n).flatten
    if n ≠ [] then ("name:".toList ++ n, .name)
    else
      let acc := (u.upper account).filter u.isWord
      if acc = [] then ([], .none) else ("acct:".toList ++ acc, .account)

end Vekst.Normalize
