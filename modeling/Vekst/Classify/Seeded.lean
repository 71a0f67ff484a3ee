import Vekst.Classify.Matcher
import Vekst.Eval.Build

namespace Vekst.Classify
open Ledger Relational

/-! ## The migrations that fill in the categories and the template rules -/

/-- 00005's update: the shared row that a row's code, less its last two characters, names. -/
def parentOf (seed : List Eval.SeedCategory) (c : Eval.SeedCategory) : Option Eval.SeedCategory :=
  if 2 < c.code.length then
    seed.find? fun p => p.taxonomyVersion = c.taxonomyVersion &&
      p.code = String.ofList (c.code.toList.take (c.code.length - 2))
  else none

/-- The seed joined to the shared categories by code: a code that does not resolve drops its rule. -/
def resolved (shared : List CategoryRow) (seed : List Eval.SeedRule) :
    List (Eval.SeedRule × CategoryRow) :=
  innerJoin seed shared fun v c => c.taxonomyVersion = v.taxonomyVersion && c.code = v.categoryCode

end Vekst.Classify
