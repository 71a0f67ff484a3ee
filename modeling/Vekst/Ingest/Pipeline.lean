import Vekst.Ingest.Persist
import Vekst.Ingest.Validation
import Vekst.Isolation.Embed
import Vekst.Jobs

namespace Vekst.Ingest
open Isolation Ledger

/-! ## The import pipeline: the ledger, and the tables and the queue its jobs hand a batch through -/

structure RawRow where
  id : UUID
  batchID : UUID
  lineNo : Int
  payload : Row
deriving DecidableEq, Repr

structure ValidationRow where
  id : UUID
  batchID : UUID
  /-- The report, with the outcome and the counts the row also stores. -/
  result : ValidationResult
  overriddenBy : Option UUID
  overrideReason : Option String
  overriddenAt : Option Timestamp
deriving DecidableEq, Repr

inductive Task where
  | measureUpload
  | validateImport
  | persistImport
deriving DecidableEq, Repr

structure QueuedJob where
  task : Task
  batchID : UUID
deriving DecidableEq, Repr

structure Pipeline where
  ledger : Database
  rawRows : List RawRow
  validations : List ValidationRow
  /-- The jobs River has been given for the batches, oldest first. -/
  queue : List QueuedJob
deriving DecidableEq, Repr

inductive Change where
  | ledger (write : Write)
  | insertRawRow (row : RawRow)
  | insertValidation (row : ValidationRow)
  | enqueue (job : QueuedJob)
deriving DecidableEq, Repr

def Pipeline.apply (p : Pipeline) : Change → Pipeline
  | .ledger write => { p with ledger := p.ledger.apply write }
  | .insertRawRow row => { p with rawRows := p.rawRows ++ [row] }
  | .insertValidation row => { p with validations := p.validations ++ [row] }
  | .enqueue job => { p with queue := p.queue ++ [job] }

inductive PipelineLock where
  | ledger (lock : Lock)
  | rawRow (batchID : UUID) (lineNo : Int)
  | validation (batchID : UUID)
deriving DecidableEq, Repr

def Change.locks : Change → List PipelineLock
  | .ledger write => write.locks.map .ledger
  | .insertRawRow row => [.rawRow row.batchID row.lineNo]
  | .insertValidation row => [.validation row.batchID]
  | .enqueue _ => []

def Change.ledgerWrite : Change → Option Write
  | .ledger write => some write
  | _ => none

instance : Store Pipeline Change Failure PipelineLock where
  apply := Pipeline.apply
  locks := Change.locks
  check p changes := oneLivePerTransaction p.ledger (changes.filterMap Change.ledgerWrite)

/-- What the bounded read of an object delivered, and its digest. -/
structure Content where
  length : Nat
  sha256 : String
deriving DecidableEq, Repr

inductive StoreQuestion where
  | head (batchID : UUID)
  | get (batchID : UUID)
  | delete (batchID : UUID)
  /-- The object of a batch, parsed under its profile and validated at a clock reading. -/
  | validate (batchID : UUID) (now : Timestamp)
  | core (question : Question)
deriving DecidableEq, Repr

inductive StoreReply where
  | present (found : Bool)
  | content (found : Option Content)
  | deleted
  /-- Absent when no parser reads the object. -/
  | validated (parsed : Option (Statement × ValidationResult))
  | core (reply : Reply)
deriving DecidableEq, Repr

inductive Entry where
  | confirmImportUpload (userID batchID : UUID)
  /-- An attempt at the queue's job of this number. -/
  | work (number : Nat) (job : QueuedJob) (draws : Draws)
  | expireBatch (batchID : UUID)

inductive Finished where
  | confirmed (batch : ImportBatchRow)
  | worked (number : Nat)
  | expired
deriving DecidableEq, Repr

abbrev PipelineOutcome := Except Failure Finished

abbrev PipelineJob :=
  Isolation.Job Pipeline Change Failure StoreQuestion StoreReply Entry PipelineOutcome

/-- An attempt at a job of the queue, which only succeeds or fails. -/
abbrev Attempt :=
  Isolation.Job Pipeline Change Failure StoreQuestion StoreReply Entry (Except Failure Unit)

abbrev PipelineSystem :=
  Isolation.System Pipeline Change Failure StoreQuestion StoreReply Entry PipelineOutcome

abbrev PipelineEvent := Isolation.Event Failure StoreReply Entry

/-- A transaction body on all the tables. -/
abbrev PipelineTx (α : Type) := Prog Pipeline Change Failure α

/-- The statements of the ledger's tables among the pipeline's. -/
def onLedger {α : Type} (p : Tx α) : PipelineTx α := p.lift Pipeline.ledger Change.ledger

def Pipeline.idle (p : Pipeline) : PipelineSystem := ⟨p, []⟩

/-- The status of a batch, if there is one of that id. -/
def Pipeline.statusOf (p : Pipeline) (batchID : UUID) : Option BatchStatus :=
  (p.ledger.batches.find? (·.id = batchID)).map (·.status)

end Vekst.Ingest
