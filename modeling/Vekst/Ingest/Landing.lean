import Vekst.Ingest.Stages
import Vekst.Text.Utf8

namespace Vekst.Ingest
open Isolation Ledger

/-! ## The validate job on the strings of a file -/

/-- A string of Go: bytes, in UTF-8 or not. -/
abbrev GoString := Bytes

/-- Columns of type `text` refuse U+0000 and what is no UTF-8. -/
def textStores (s : GoString) : Bool := 0 ∉ s && Utf8.valid s

/-- Columns of type `jsonb` refuse U+0000; `encoding/json` writes nothing that is no UTF-8. -/
def jsonbStores (s : GoString) : Bool := 0 ∉ s

structure ParsedRow where
  lineNo : Nat
  bookedOn : GoString
  documentNo : GoString
  counterpartyName : GoString
  counterpartyTaxID : GoString
  counterpartyAccount : GoString
  description : GoString
  regulatedCode : GoString
  debit : Money
  credit : Money
  debitRaw : GoString
  creditRaw : GoString
deriving DecidableEq, Repr

/-- A statement with its strings as the file has them. -/
structure Parsed where
  format : String
  account : GoString
  currency : String
  holder : GoString
  declaredRowCount : Option Nat
  periodFrom : GoString
  periodTo : GoString
  opening : Money
  closing : Money
  declaredDebit : Money
  declaredCredit : Money
  hasDeclaredBalance : Bool
  rows : List ParsedRow
deriving DecidableEq, Repr

/-- The strings of a row's payload. -/
def ParsedRow.cells (r : ParsedRow) : List GoString :=
  [r.bookedOn, r.documentNo, r.counterpartyName, r.counterpartyTaxID, r.counterpartyAccount,
    r.description, r.regulatedCode, r.debitRaw, r.creditRaw]

def ParsedRow.text (enc : Encodings) (r : ParsedRow) : Priorbank.Row where
  lineNo := r.lineNo
  bookedOn := enc.utf8 r.bookedOn
  documentNo := enc.utf8 r.documentNo
  counterpartyName := enc.utf8 r.counterpartyName
  counterpartyTaxID := enc.utf8 r.counterpartyTaxID
  counterpartyAccount := enc.utf8 r.counterpartyAccount
  description := enc.utf8 r.description
  regulatedCode := enc.utf8 r.regulatedCode
  debit := r.debit
  credit := r.credit
  debitRaw := enc.utf8 r.debitRaw
  creditRaw := enc.utf8 r.creditRaw

def Parsed.text (enc : Encodings) (st : Parsed) : Priorbank.Statement where
  format := st.format
  account := enc.utf8 st.account
  currency := st.currency
  holder := enc.utf8 st.holder
  declaredRowCount := st.declaredRowCount
  periodFrom := enc.utf8 st.periodFrom
  periodTo := enc.utf8 st.periodTo
  opening := st.opening
  closing := st.closing
  declaredDebit := st.declaredDebit
  declaredCredit := st.declaredCredit
  hasDeclaredBalance := st.hasDeclaredBalance
  rows := st.rows.map (ParsedRow.text enc)

/-! ## Statements on what the file says -/

def untranslatableCharacter : Failure := .fatal "22P05"

def characterNotInRepertoire : Failure := .fatal "22021"

/-- A payload that `jsonb` refuses is refused with all the others. -/
def persistPayloads (enc : Encodings) (draw : Nat → UUID) (batchID : UUID)
    (rows : List ParsedRow) : PipelineTx Nat :=
  if rows.all fun r => r.cells.all jsonbStores then
    persistRawRows draw batchID (rows.map fun r => (r.text enc).stored)
  else Prog.fail untranslatableCharacter

/-- Whether the account of the statement is on file in another currency; one that is not on file
is created. -/
def resolveParsed (enc : Encodings) (id entityID : UUID) (st : Parsed) : Tx Bool := do
  if !textStores st.account then Prog.fail characterNotInRepertoire
  let externalRef := String.ofList (enc.utf8 st.account)
  match ← Prog.query fun d => .ok (findAccountByExternalRef d entityID externalRef) with
  | some existing => return existing.currency ≠ st.currency
  | none =>
      let name := if st.holder = [] then st.account else st.holder
      if !textStores name then Prog.fail characterNotInRepertoire
      let _ ← insertAccount
        { id, entityID, name := String.ofList (enc.utf8 name), currency := st.currency,
          externalRef := some externalRef }
      return false

/-- A statement that was refused has aborted the transaction, so that its failure, taken for an
unresolved account, is met again at the next statement. -/
def resolveParsedInto (enc : Encodings) (id entityID : UUID) (st : Parsed)
    (result : ValidationResult) : PipelineTx ValidationResult :=
  if st.account = [] then return mergeAccountResolution result false false
  else do
    let mixedCurrency ← onLedger (resolveParsed enc id entityID st)
    return mergeAccountResolution result true mixedCurrency

def maxReportedErrors : Nat := 100

def maxRawLength : Nat := 200

def capRaw (s : String) : GoString := (Utf8.encode s.toList).take maxRawLength

/-- The strings of the report. -/
def reportStores (result : ValidationResult) : Bool :=
  (result.errors.take maxReportedErrors).all fun e => jsonbStores (capRaw e.raw)

def insertReport (id batchID : UUID) (result : ValidationResult) : PipelineTx Unit :=
  if reportStores result then insertValidation id batchID result
  else Prog.fail untranslatableCharacter

/-- The receipt, the status and the next job, in one transaction. -/
def landParsed (enc : Encodings) (draws : Draws) (batch : ImportBatchRow) (batchID : UUID)
    (st : Parsed) (found : ValidationResult) : PipelineTx Unit := do
  let _ ← persistPayloads enc (draws.id 4) batchID st.rows
  let result ← resolveParsedInto enc (draws.id Stream.accounts.number 0) batch.entityID st found
  insertReport (draws.id 5 0) batchID result
  Prog.ofExcept (checkTransitions (nextStatus result))
  let affected ← onLedger (setImportBatchStatus batchID (nextStatus result) none)
  Prog.ofExcept (exactlyOneRow affected)
  if nextStatus result = .validated then enqueue .persistImport batchID

/-- What the object store is asked for, the bytes of a batch's object. -/
abbrev LandingJob :=
  Isolation.Job Pipeline Change Failure UUID Bytes Unit (Except Failure Unit)

def failLanding (batchID : UUID) (code : String) : LandingJob :=
  inTx .done do
    let affected ← onLedger (setImportBatchStatus batchID .failed (some code))
    Prog.ofExcept (exactlyOneRow affected)

/-- `Work` once the object is read. -/
def landObject (enc : Encodings) (time : Priorbank.TimeReader)
    (parse : Bytes → Option Parameters → Option Parsed) (draws : Draws) (batch : ImportBatchRow)
    (batchID : UUID) (params : Option Parameters) (now : Priorbank.Instant) (raw : Bytes) :
    LandingJob :=
  match parse raw params with
  | none => failLanding batchID failureUnrecognizedFormat
  | some st => inTx .done (landParsed enc draws batch batchID st
      (Priorbank.validateStatementWithParams time (st.text enc) now params))

/-- `Work` of the validate job, under the batch's profile at that moment. -/
def validateObject (enc : Encodings) (time : Priorbank.TimeReader)
    (parse : Bytes → Option Parameters → Option Parsed) (draws : Draws) (batchID : UUID)
    (params : Option Parameters) (now : Priorbank.Instant) : LandingJob :=
  inTx (fun
      | .error .noRows => .done (.ok ())
      | .error e => .done (.error e)
      | .ok batch =>
          if batch.status ≠ .uploaded then .done (.ok ())
          else .ask batchID fun
            | .error e => .done (.error e)
            | .ok raw => landObject enc time parse draws batch batchID params now raw)
    (onLedger (Prog.query (getImportBatch · batchID)))

end Vekst.Ingest
