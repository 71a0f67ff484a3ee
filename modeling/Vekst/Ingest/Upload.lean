import Vekst.Ingest.Pipeline

namespace Vekst.Ingest
open Isolation Ledger

def failureUploadMissing : String := "upload_missing"

def failureFileTooLarge : String := "file_too_large"

def failureUnrecognizedFormat : String := "unrecognized_format"

def finish : Attempt := .done (.ok ())

def enqueue (task : Task) (batchID : UUID) : PipelineTx Unit :=
  Prog.exec fun _ => .ok ([.enqueue ⟨task, batchID⟩], ())

/-- The terminal failure a job writes, whatever the status by then. -/
def fail (batchID : UUID) (code : String) : Attempt :=
  inTx .done do
    let affected ← onLedger (setImportBatchStatus batchID .failed (some code))
    Prog.ofExcept (exactlyOneRow affected)

/-! ## service.go -/

def confirmImportUpload (userID batchID : UUID) : PipelineJob :=
  inTx (fun
      | .error e => .done (.error e)
      | .ok () => inTx (fun
          | .error .noRows => .done (.error (.coded "batch_not_found"))
          | .error e => .done (.error e)
          | .ok batch => .done (.ok (.confirmed batch))) do
        let batch ← onLedger (Prog.query (getImportBatch · batchID))
        enqueue .measureUpload batchID
        return batch)
    (onLedger (Reports.bindMember userID))

/-! ## measure.go -/

def findImportedBatchAlreadyHoldingThisFile (d : Database) (sha256 : String) : Option UUID :=
  (d.batches.find? fun batch => batch.fileSHA256 = some sha256 && batch.status = .imported).map (·.id)

/-- The one place the status becomes `uploaded`, whatever it was. -/
def recordUploadMeasurement (batchID : UUID) (content : Content) : Tx Nat :=
  Prog.exec fun d => do
    let rows := (d.batches.filter (·.id = batchID)).map fun batch =>
      { batch with fileSHA256 := some content.sha256, status := .uploaded }
    rows.forM fun row => do
      require (0 < content.length) "import_batches_byte_length_check"
      checkBatch d row
    return (rows.map .updateBatch, rows.length)

def recordMeasurement (batchID : UUID) (content : Content) : PipelineTx Unit := do
  let affected ← onLedger (recordUploadMeasurement batchID content)
  Prog.ofExcept (exactlyOneRow affected)
  enqueue .validateImport batchID

/-- `Work` from the object's bytes on. -/
def measureContent (uploadMaxBytes : Nat) (batchID : UUID) (content : Content) : Attempt :=
  if uploadMaxBytes < content.length then
    .ask (.delete batchID) fun
      | .ok .deleted => fail batchID failureFileTooLarge
      | .ok _ => .done (.error .transient)
      | .error e => .done (.error e)
  else
    inTx (fun
        | .error e => .done (.error e)
        | .ok (some _) => fail batchID failureAlreadyImported
        | .ok none => inTx .done (recordMeasurement batchID content))
      (onLedger (Prog.query fun d =>
        .ok (findImportedBatchAlreadyHoldingThisFile d content.sha256)))

/-- `Work` once the batch is read. -/
def measureBatch (uploadMaxBytes : Nat) (batchID : UUID) (batch : ImportBatchRow) : Attempt :=
  if batch.status ≠ .awaitingUpload ∧ batch.status ≠ .uploaded then finish
  else .ask (.head batchID) fun
    | .ok (.present false) => fail batchID failureUploadMissing
    | .ok (.present true) => .ask (.get batchID) fun
        | .ok (.content none) => fail batchID failureUploadMissing
        | .ok (.content (some content)) => measureContent uploadMaxBytes batchID content
        | .ok _ => .done (.error .transient)
        | .error e => .done (.error e)
    | .ok _ => .done (.error .transient)
    | .error e => .done (.error e)

/-- What each job does with the batch it reads first; one that is gone is nothing to do. -/
def withBatch (batchID : UUID) (work : ImportBatchRow → Attempt) : Attempt :=
  inTx (fun
      | .error .noRows => finish
      | .error e => .done (.error e)
      | .ok batch => work batch)
    (onLedger (Prog.query (getImportBatch · batchID)))

def measureUpload (uploadMaxBytes : Nat) (batchID : UUID) : Attempt :=
  withBatch batchID (measureBatch uploadMaxBytes batchID)

/-! ## rawrows.go, validatejob.go -/

def checkRawRow (batches : List ImportBatchRow) (rawRows : List RawRow) (row : RawRow) :
    Except Failure Unit := do
  require (0 < row.lineNo) "raw_rows_line_no_check"
  require (rawRows.all (·.id ≠ row.id)) "raw_rows_pkey"
  require (batches.any (·.id = row.batchID)) "raw_rows_org_id_batch_id_fkey"
  require (rawRows.all fun old => !(old.batchID = row.batchID && old.lineNo = row.lineNo))
    "raw_rows_org_id_batch_id_line_no_key"

/-- One row for each parsed line, in one statement. -/
def persistRawRows (draw : Nat → UUID) (batchID : UUID) (rows : List Row) : PipelineTx Nat :=
  if rows = [] then return 0
  else Prog.exec fun p => do
    let made := rows.zipIdx.map fun (r, i) => (⟨draw i, batchID, r.lineNo, r⟩ : RawRow)
    let _ ← made.foldlM (fun seen row => do
      checkRawRow p.ledger.batches seen row
      return seen ++ [row]) p.rawRows
    return (made.map .insertRawRow, made.length)

def checkValidation (p : Pipeline) (row : ValidationRow) : Except Failure Unit := do
  require (
      (row.overriddenBy.isNone && row.overrideReason.isNone && row.overriddenAt.isNone) ||
      (row.result.outcome = .validWithWarnings && row.overriddenBy.isSome &&
        row.overrideReason.isSome && row.overriddenAt.isSome))
    "import_validations_override_only_over_warnings"
  require (
      (row.result.outcome = .rejected && 0 < row.result.errors.length) ||
      (row.result.outcome = .validWithWarnings && row.result.errors.length = 0 &&
        0 < row.result.warnings.length) ||
      (row.result.outcome = .valid && row.result.errors.length = 0 &&
        row.result.warnings.length = 0))
    "import_validations_counts_match_outcome"
  require (p.validations.all (·.id ≠ row.id)) "import_validations_pkey"
  require (p.ledger.batches.any (·.id = row.batchID)) "import_validations_org_id_batch_id_fkey"
  require (p.validations.all (·.batchID ≠ row.batchID)) "import_validations_org_id_batch_id_key"

def insertValidation (id batchID : UUID) (result : ValidationResult) : PipelineTx Unit :=
  Prog.exec fun p => do
    let row : ValidationRow := {
      id
      batchID
      result
      overriddenBy := none
      overrideReason := none
      overriddenAt := none }
    checkValidation p row
    return ([.insertValidation row], ())

/-- The account of the statement in the validation; any other failure to resolve it aborts the
transaction. -/
def resolveInto (id entityID : UUID) (st : Statement) (result : ValidationResult) :
    PipelineTx ValidationResult :=
  if st.account = "" then return mergeAccountResolution result false false
  else do
    let (_, mixedCurrency) ← onLedger (resolveAccount id entityID st)
    return mergeAccountResolution result true mixedCurrency

def nextStatus (result : ValidationResult) : BatchStatus :=
  if result.outcome = .rejected then .rejected else .validated

def checkTransitions (next : BatchStatus) : Except Failure Unit := do
  checkTransition .uploaded .parsing
  checkTransition .parsing .parsed
  checkTransition .parsed .validating
  checkTransition .validating next

/-- The receipt, the status and the next job, in one transaction. -/
def landBatch (draws : Draws) (batch : ImportBatchRow) (batchID : UUID) (st : Statement)
    (found : ValidationResult) : PipelineTx Unit := do
  let _ ← persistRawRows (draws.id 4) batchID st.rows
  let result ← resolveInto (draws.id Stream.accounts.number 0) batch.entityID st found
  insertValidation (draws.id 5 0) batchID result
  Prog.ofExcept (checkTransitions (nextStatus result))
  let affected ← onLedger (setImportBatchStatus batchID (nextStatus result) none)
  Prog.ofExcept (exactlyOneRow affected)
  if nextStatus result = .validated then enqueue .persistImport batchID

/-- `Work` once the batch is read. -/
def validateBatch (draws : Draws) (batchID : UUID) (batch : ImportBatchRow) : Attempt :=
  if batch.status ≠ .uploaded then finish
  else .ask (.validate batchID (draws.now 0)) fun
    | .ok (.validated none) => fail batchID failureUnrecognizedFormat
    | .ok (.validated (some (st, found))) =>
        inTx .done (landBatch draws batch batchID st found)
    | .ok _ => .done (.error .transient)
    | .error e => .done (.error e)

def validateImport (batchID : UUID) (draws : Draws) : Attempt :=
  withBatch batchID (validateBatch draws batchID)

/-! ## persistjob.go, expire.go -/

def coreReply : StoreReply → Except Failure Reply
  | .core reply => .ok reply
  | _ => .error .transient

/-- The persist job among the pipeline's; it has no loop to return to. -/
def amongPipeline : Embedding Database Pipeline Write Change Failure Question StoreQuestion Reply
    StoreReply Label Entry Outcome (Except Failure Unit) where
  view := Pipeline.ledger
  inject := Change.ledger
  ask := .core
  hear := coreReply
  enter _ := .done (.error .transient)
  report outcome := outcome.map fun _ => ()

def abandonExpiredBatch (batchID : UUID) : Tx Bool :=
  Prog.exec fun d => do
    let rows := (d.batches.filter fun batch => batch.id = batchID && batch.status = .awaitingUpload).map
      fun batch => { batch with status := .abandoned }
    rows.forM (checkBatch d)
    return (rows.map .updateBatch, !rows.isEmpty)

def expireBatch (batchID : UUID) : PipelineJob :=
  inTx (fun
      | .error e => .done (.error e)
      | .ok false => .done (.ok .expired)
      | .ok true => .ask (.delete batchID) fun
          | .ok .deleted => .done (.ok .expired)
          | .ok _ => .done (.error .transient)
          | .error e => .done (.error e))
    (onLedger (abandonExpiredBatch batchID))

def attempt (site : Site) (uploadMaxBytes : Nat) (job : QueuedJob) (draws : Draws) : Attempt :=
  match job.task with
  | .measureUpload => measureUpload uploadMaxBytes job.batchID
  | .validateImport => validateImport job.batchID draws
  | .persistImport => (persistImport site job.batchID draws).lift amongPipeline

def pipelineBody (site : Site) (uploadMaxBytes : Nat) : Entry → PipelineJob
  | .confirmImportUpload userID batchID => confirmImportUpload userID batchID
  | .work number job draws =>
      (attempt site uploadMaxBytes job draws).map (Except.map fun _ => .worked number)
  | .expireBatch batchID => expireBatch batchID

end Vekst.Ingest
