import Vekst.Calendar.Decimal
import Vekst.Ledger.Store
import Vekst.Money.Exponents

namespace Vekst.Ledger
open Calendar Decimal Isolation

/-- A conversion into the organisation's base currency; the source reads the rate from text. -/
structure FXConversion where
  rate : ℚ
  rateOn : Date
  base : Money
deriving DecidableEq, Repr

/-- A transaction before it is stored. -/
structure Transaction where
  entityID : UUID
  accountID : UUID
  batchID : UUID
  lineNo : Int
  sourceKind : SourceKind
  /-- Empty for a bank payment, which stands alone on its line. -/
  documentRef : String
  postingNo : Int
  bookedOn : Date
  valueOn : Option Date
  amount : Money
  /-- Absent when the row is already in the base currency. -/
  fx : Option FXConversion
  counterpartyRaw : String
  counterpartyKey : String
  descriptionRaw : String
  descriptionNorm : String
  normalizeVersion : String
  regulatedCode : String
  bankRef : String
  dedupHash : String
deriving DecidableEq, Repr

/-! ## dedup.go -/

def fieldSeparator : String := "\x1f"

def dateText (d : Date) : String :=
  String.ofList (paddedInt 4 d.year ++ '-' :: padded 2 d.month ++ '-' :: padded 2 d.day)

def contentKey (t : Transaction) : String :=
  fieldSeparator.intercalate [
    t.accountID.text,
    dateText t.bookedOn,
    toString t.amount.minorUnits.toInt,
    t.amount.currencyCode,
    t.descriptionNorm,
    t.bankRef,
    t.documentRef,
    toString t.postingNo]

/-- What `DedupHash` digests. -/
def occurrenceKey (key : String) (occurrence : Nat) : String :=
  key ++ fieldSeparator ++ toString occurrence

/-- The digest, SHA-256 in hexadecimal, is a parameter. -/
def dedupHash (sha256 : String → String) (t : Transaction) (occurrence : Nat) : String :=
  sha256 (occurrenceKey (contentKey t) occurrence)

/-! ## insert.go -/

/-- The parameters of `InsertTransaction`, in the row they make. -/
def toInsertParams (id : UUID) (now : Timestamp) (t : Transaction) :
    Except Failure TransactionRow := do
  let currency ← Money.currencyCheck t.amount
  if t.lineNo ≤ 0 then .error (.noLine t.lineNo)
  let plain : TransactionRow := {
    id
    entityID := t.entityID
    accountID := t.accountID
    batchID := t.batchID
    lineNo := t.lineNo
    sourceKind := t.sourceKind
    documentRef := if t.documentRef = "" then none else some t.documentRef
    postingNo := t.postingNo
    bookedOn := t.bookedOn
    valueOn := t.valueOn
    amountMinor := t.amount.minorUnits
    currency
    fxRate := none
    fxRateOn := none
    baseAmountMinor := none
    baseCurrency := none
    counterpartyRaw := t.counterpartyRaw
    counterpartyKey := t.counterpartyKey
    descriptionRaw := t.descriptionRaw
    descriptionNorm := t.descriptionNorm
    normalizeVersion := t.normalizeVersion
    regulatedCode := t.regulatedCode
    bankRef := t.bankRef
    dedupHash := t.dedupHash
    createdAt := now }
  match t.fx with
  | none => return plain
  | some fx =>
      let baseCurrency ← Money.currencyCheck fx.base
      return { plain with
        fxRate := some fx.rate
        fxRateOn := some fx.rateOn
        baseAmountMinor := some fx.base.minorUnits
        baseCurrency := some baseCurrency }

def isCurrencyShape (code : String) : Bool :=
  code.toList.length = 3 && code.toList.all fun c => 'A' ≤ c && c ≤ 'Z'

/-- The CHECKs of the table, its keys and its two immediate triggers. -/
def checkTransaction (d : Database) (row : TransactionRow) : Except Failure Unit := do
  require (0 ≤ row.postingNo) "transactions_posting_no_check"
  require (isCurrencyShape row.currency) "transactions_currency_check"
  require (row.baseCurrency.all isCurrencyShape) "transactions_base_currency_check"
  require (row.dedupHash ≠ "") "transactions_dedup_hash_check"
  require ((row.documentRef.isNone && row.postingNo = 0) ||
    (row.documentRef.isSome && 0 < row.postingNo)) "txn_grain"
  require ([row.fxRate.isSome, row.fxRateOn.isSome, row.baseAmountMinor.isSome,
    row.baseCurrency.isSome].count true ∈ [0, 4]) "txn_fx_is_all_or_nothing"
  require (row.baseCurrency.all (· ≠ row.currency)) "txn_fx_is_a_conversion"
  require (row.fxRate.all (0 < ·)) "txn_fx_rate_is_positive"
  require (0 < row.lineNo) "txn_line_no_is_a_line"
  require (d.transactions.all (·.id ≠ row.id)) "transactions_pkey"
  require (d.accounts.any (·.id = row.accountID)) "transactions_org_id_account_id_fkey"
  require (d.batches.any (·.id = row.batchID)) "transactions_org_id_batch_id_fkey"
  require (d.batches.any fun batch => batch.id = row.batchID && batch.sourceKind = row.sourceKind)
    "txn_source_kind_matches_batch"
  -- A row that names no base currency passes unread.
  require (row.baseCurrency.all (· = d.baseCurrency)) "txn_base_currency_is_the_orgs"

def insertTransaction (id : UUID) (now : Timestamp) (t : Transaction) : Tx TransactionRow :=
  Prog.exec fun d => do
    let row ← toInsertParams id now t
    checkTransaction d row
    return ([.insertTransaction row], row)

/-- `Insert`, each row under the next identifier drawn. -/
def insert (draw : Nat → UUID) (now : Timestamp) (txns : List Transaction) :
    Tx (List TransactionRow) :=
  txns.zipIdx.mapM fun (t, i) => insertTransaction (draw i) now t

end Vekst.Ledger
