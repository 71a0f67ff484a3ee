import Vekst.Ledger.Classification

namespace Vekst.Classify
open Ledger

/-! ## The boundary with the engine -/

structure Category where
  code : String
  name : String
  requiresAllocation : Bool
deriving DecidableEq, Repr

structure Condition where
  field : String
  op : String
  value : String
  amountValue : Option Money
deriving DecidableEq, Repr

structure Rule where
  priority : Int
  categoryCode : String
  scope : String
  sourceKind : String
  all : List Condition
deriving DecidableEq, Repr

structure VendorMemory where
  key : String
  categoryCode : String
  displayName : String
deriving DecidableEq, Repr

/-- A transaction as the engine sees it. -/
structure Txn where
  transactionID : String
  sourceKind : String
  descriptionNorm : String
  counterpartyKey : String
  direction : String
  amount : Money
  regulatedCode : String
  accountID : String
deriving DecidableEq, Repr

structure BatchRequest where
  requestID : String
  taxonomyVersion : String
  rulesetVersion : String
  normalizeVersion : String
  categories : List Category
  rules : List Rule
  vendors : List VendorMemory
  txns : List Txn
  threshold : ℚ
deriving DecidableEq, Repr

structure Proposal where
  transactionID : String
  categoryCode : String
  engineLayer : String
  confidence : ℚ
  evidence : String
deriving DecidableEq, Repr

structure BatchResponse where
  engineVersion : String
  rulesetVersion : String
  proposals : List Proposal
deriving DecidableEq, Repr

/-- `direction`, which the table generates from the sign of the amount. -/
def direction (t : TransactionRow) : String := if 0 ≤ t.amountMinor then "income" else "expense"

def toClassifyBatch (txns : List TransactionRow) : List Txn :=
  txns.map fun t => {
    transactionID := t.id.text
    sourceKind := t.sourceKind.text
    descriptionNorm := t.descriptionNorm
    counterpartyKey := t.counterpartyKey
    direction := direction t
    amount := ⟨t.currency, t.amountMinor⟩
    regulatedCode := t.regulatedCode
    accountID := t.accountID.text }

/-- Everything the engine reasons with, read once a run. -/
structure BatchContext where
  categories : List Category
  rules : List Rule
  vendors : List VendorMemory
  /-- Code to row, in the order read: a repeated code keeps its last row. -/
  codes : List (String × UUID)
deriving DecidableEq, Repr

def BatchContext.category (context : BatchContext) (code : String) : Option UUID :=
  context.codes.reverse.lookup code

end Vekst.Classify
