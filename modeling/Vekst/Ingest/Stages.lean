import Vekst.Ingest.Upload
import Vekst.Ingest.Validate

namespace Vekst.Ingest.Priorbank
open Ledger

/-! ## One object, read by two jobs -/

/-- The row as the tables store it. -/
def Row.stored (r : Row) : Ingest.Row where
  lineNo := r.lineNo
  bookedOn := String.ofList r.bookedOn
  documentNo := String.ofList r.documentNo
  counterpartyName := String.ofList r.counterpartyName
  counterpartyTaxID := String.ofList r.counterpartyTaxID
  counterpartyAccount := String.ofList r.counterpartyAccount
  description := String.ofList r.description
  regulatedCode := String.ofList r.regulatedCode
  debit := r.debit
  credit := r.credit

def Statement.stored (st : Statement) : Ingest.Statement where
  account := String.ofList st.account
  currency := st.currency
  holder := String.ofList st.holder
  rows := st.rows.map Row.stored

/-- The validation of a statement with its account folded in, which may be on file in another
currency. -/
def validated (time : TimeReader) (st : Statement) (now : Instant) (params : Option Parameters)
    (mixedCurrency : Bool) : ValidationResult :=
  let found := st.account ≠ []
  mergeAccountResolution (validateStatementWithParams time st now params) found
    (found && mixedCurrency)

/-- The statement that the validate job accepts. -/
def accepted (enc : Encodings) (time : TimeReader) (raw : Bytes) (params : Option Parameters)
    (order : Order) (now : Instant) (mixedCurrency : Bool) : Option Statement :=
  (parseWithParams enc raw params order).filter fun st =>
    nextStatus (validated time st now params mixedCurrency) = .validated

/-- What the persist job builds of a statement's rows. -/
def candidates (site : Site) (accountID : UUID) (batch : ImportBatchRow) (st : Ingest.Statement) :
    Except Failure (List Dedup.Candidate) :=
  st.rows.mapM fun r =>
    (buildTransaction site accountID batch st.currency r).map fun txn => ⟨r.lineNo, txn⟩

end Vekst.Ingest.Priorbank
