import Vekst.Ingest.Statement

namespace Vekst.Ingest

/-! ## What a validation found -/

inductive ValidationOutcome where
  | valid
  | validWithWarnings
  | rejected
deriving DecidableEq, Repr

structure ValidationError where
  /-- Zero for what no one line says. -/
  line : Int
  field : String
  code : String
  raw : String
deriving DecidableEq, Repr

structure BalanceMismatchDetail where
  opening : Int64
  movements : Int64
  closing : Int64
  difference : Int64
  currency : String
deriving DecidableEq, Repr

structure ValidationWarning where
  code : String
  balance : Option BalanceMismatchDetail
deriving DecidableEq, Repr

structure ValidationResult where
  outcome : ValidationOutcome
  rowCount : Nat
  errors : List ValidationError
  warnings : List ValidationWarning
  /-- Absent when the file declares no balances. -/
  balanceCheckPassed : Option Bool
deriving DecidableEq, Repr

def codeAccountUnresolved : String := "account_unresolved"

def codeMixedCurrency : String := "mixed_currency"

def decideOutcome (rowCount : Nat) (errors : List ValidationError)
    (warnings : List ValidationWarning) (balanceCheckPassed : Option Bool) : ValidationResult where
  outcome :=
    if 0 < errors.length then .rejected
    else if 0 < warnings.length then .validWithWarnings
    else .valid
  rowCount := rowCount
  errors := errors
  warnings := warnings
  balanceCheckPassed := balanceCheckPassed

/-- Folds what became of the statement's account into a validation. -/
def mergeAccountResolution (result : ValidationResult) (resolved mixedCurrency : Bool) :
    ValidationResult :=
  let errors := if resolved then result.errors
    else result.errors ++ [⟨0, "account", codeAccountUnresolved, ""⟩]
  let warnings := if mixedCurrency then result.warnings ++ [⟨codeMixedCurrency, none⟩]
    else result.warnings
  decideOutcome result.rowCount errors warnings result.balanceCheckPassed

end Vekst.Ingest
