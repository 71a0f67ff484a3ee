import Vekst.Dedup.Lookup
import Vekst.Dedup.Transfer
import Vekst.Job

namespace Vekst.Ingest
open Calendar Isolation Ledger Dedup

/-! ## state.go -/

def transitions : BatchStatus → List BatchStatus
  | .awaitingUpload => [.uploaded, .abandoned, .failed]
  | .uploaded => [.parsing, .failed]
  | .parsing => [.parsed, .failed]
  | .parsed => [.validating, .failed]
  | .validating => [.validated, .rejected, .failed]
  | .validated => [.persisting, .failed]
  | .persisting => [.imported, .failed]
  | .abandoned => []
  | .rejected => []
  | .imported => []
  | .failed => []

def checkTransition (current next : BatchStatus) : Except Failure Unit :=
  if next ∈ transitions current then .ok () else .error .illegalTransition

/-! ## Statements on accounts and batches -/

/-- The row the id names; every other row is invisible to the organisation. -/
def getImportBatch (d : Database) (batchID : UUID) : Except Failure ImportBatchRow :=
  match d.batches.find? (·.id = batchID) with
  | some batch => .ok batch
  | none => .error .noRows

def holdsFile (status : BatchStatus) : Bool :=
  status ∈ [.awaitingUpload, .abandoned, .failed]

def checkBatch (d : Database) (row : ImportBatchRow) : Except Failure Unit := do
  require (holdsFile row.status || row.fileSHA256.isSome) "import_batches_measured_past_upload"
  require (row.status ≠ .imported || row.fileSHA256.isNone || d.batches.all fun other =>
      other.id = row.id || other.status ≠ .imported || other.fileSHA256 ≠ row.fileSHA256)
    "import_batches_file_once"

def setImportBatchStatus (batchID : UUID) (status : BatchStatus) (failureCode : Option String) :
    Tx Nat :=
  Prog.exec fun d => do
    let rows := (d.batches.filter (·.id = batchID)).map fun batch => { batch with status, failureCode }
    rows.forM (checkBatch d)
    return (rows.map .updateBatch, rows.length)

def findAccountByExternalRef (d : Database) (entityID : UUID) (externalRef : String) :
    Option AccountRow :=
  d.accounts.find? fun a => a.entityID = entityID && a.externalRef = some externalRef

def checkAccount (d : Database) (row : AccountRow) : Except Failure Unit := do
  require (row.name.toList.any (· ≠ ' ')) "accounts_name_check"
  require (isCurrencyShape row.currency) "accounts_currency_check"
  require (d.accounts.all (·.id ≠ row.id)) "accounts_pkey"
  require (row.externalRef.isNone || d.accounts.all fun other =>
      !(other.entityID = row.entityID && other.externalRef = row.externalRef))
    "accounts_org_id_entity_id_external_ref_key"

def insertAccount (row : AccountRow) : Tx AccountRow :=
  Prog.exec fun d => do
    checkAccount d row
    return ([.insertAccount row], row)

/-- The account of a statement, created when the entity has none of that identifier, and whether
the one on file is of another currency. -/
def resolveAccount (id entityID : UUID) (st : Statement) : Tx (UUID × Bool) := do
  if st.account = "" then Prog.fail .accountUnresolved
  match ← Prog.query fun d => .ok (findAccountByExternalRef d entityID st.account) with
  | some existing => return (existing.id, existing.currency ≠ st.currency)
  | none =>
      let name := if st.holder = "" then st.account else st.holder
      let created ← insertAccount
        { id, entityID, name, currency := st.currency, externalRef := some st.account }
      return (created.id, false)

/-! ## persistjob.go -/

def failurePersistReparseFailed : String := "persist_reparse_failed"

def failureAlreadyImported : String := "already_imported"

/-- A parsed row as a transaction of the bank grain; no conversion is recorded. -/
def buildTransaction (site : Site) (accountID : UUID) (batch : ImportBatchRow) (currency : String)
    (r : Row) : Except Failure Transaction := do
  let bookedOn ← parseDate r.bookedOn
  return {
    entityID := batch.entityID
    accountID
    batchID := batch.id
    lineNo := r.lineNo
    sourceKind := batch.sourceKind
    documentRef := ""
    postingNo := 0
    bookedOn
    valueOn := none
    amount := ⟨currency,
      if r.debit.minorUnits ≠ 0 then -r.debit.minorUnits else r.credit.minorUnits⟩
    fx := none
    counterpartyRaw := r.counterpartyName
    counterpartyKey := site.counterpartyKey r.counterpartyName r.counterpartyTaxID
      r.counterpartyAccount
    descriptionRaw := r.description
    descriptionNorm := site.normalizeDescription r.description
    normalizeVersion
    regulatedCode := r.regulatedCode
    bankRef := r.documentNo
    dedupHash := "" }

/-- What the lookups sort a batch into. -/
structure Sorted where
  toInsert : List Transaction
  skips : List Skip
deriving DecidableEq, Repr

/-- The lookup of one row against everything already imported. -/
def lookUp (batchID : UUID) (sorted : Sorted) (c : Candidate) : Tx Sorted := do
  match ← findByHash c.txn.dedupHash with
  | some found => return { sorted with skips := sorted.skips ++ [{
      batchID
      lineNo := c.lineNo
      postingNo := c.txn.postingNo
      level := levelD3
      dedupHash := c.txn.dedupHash
      matched := some found }] }
  | none => return { sorted with toInsert := sorted.toInsert ++ [c.txn] }

/-- The identifiers of one kind of row. -/
inductive Stream where
  | accounts
  | skips
  | transactions
  | transfers
deriving DecidableEq, Repr

def Stream.number : Stream → Nat
  | .accounts => 0
  | .skips => 1
  | .transactions => 2
  | .transfers => 3

/-- Everything after the file is parsed, in one transaction. -/
def persistRows (site : Site) (draws : Draws) (batch : ImportBatchRow) (st : Statement) :
    Tx Unit := do
  let (accountID, _) ← resolveAccount (draws.id Stream.accounts.number 0) batch.entityID st
  let candidates ← Prog.ofExcept (st.rows.mapM fun r =>
    (buildTransaction site accountID batch st.currency r).map fun txn => ⟨r.lineNo, txn⟩)
  let withHashes := partition site.sha256 candidates
  let sorted ← withHashes.foldlM (lookUp batch.id) ⟨[], []⟩
  sorted.skips.zipIdx.forM fun (s, i) => insertSkip (draws.id Stream.skips.number i) s
  let inserted ← insert (draws.id Stream.transactions.number) (draws.now 1) sorted.toInsert
  inserted.zipIdx.forM fun (t, i) => do
    let _ ← detectAndPair (draws.id Stream.transfers.number i) (draws.now 1) batch.entityID t
  Prog.ofExcept (checkTransition .validated .persisting)
  Prog.ofExcept (checkTransition .persisting .imported)
  let affected ← setImportBatchStatus batch.id .imported none
  Prog.ofExcept (exactlyOneRow affected)
  Prog.exec fun _ => .ok ([.enqueueClassify batch.id], ())

def isFileOnceViolation (e : Failure) : Bool := e = .constraint "import_batches_file_once"

def failImport (batchID : UUID) (code : String) : Job :=
  inTx (fun | .ok () => .done (.ok .done) | .error e => .done (.error e)) do
    let affected ← setImportBatchStatus batchID .failed (some code)
    Prog.ofExcept (exactlyOneRow affected)

/-- `Work` once the batch is read. -/
def persistBatch (site : Site) (draws : Draws) (batch : ImportBatchRow) : Job :=
  if batch.status ≠ .validated then .done (.ok .done)
  else .ask (.object batch.id) fun
    | .error e => .done (.error e)
    | .ok (.proposals _) => .done (.error .transient)
    | .ok (.statement none) => failImport batch.id failurePersistReparseFailed
    | .ok (.statement (some st)) =>
        inTx (fun
            | .ok () => .done (.ok .done)
            | .error e =>
                if isFileOnceViolation e then failImport batch.id failureAlreadyImported
                else .done (.error e))
          (persistRows site draws batch st)

def persistImport (site : Site) (batchID : UUID) (draws : Draws) : Job :=
  inTx (fun
      | .error .noRows => .done (.ok .done)
      | .error e => .done (.error e)
      | .ok batch => persistBatch site draws batch)
    (Prog.query (getImportBatch · batchID))

end Vekst.Ingest
