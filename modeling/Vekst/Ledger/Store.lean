import Vekst.Arithmetic.Wrapping
import Vekst.Failure
import Vekst.Isolation.System
import Vekst.Ledger.Schema

namespace Vekst.Ledger
open Isolation

/-- The row versions a statement leaves: a row inserted, or the new version of the row of its id. -/
inductive Write where
  | insertAccount (row : AccountRow)
  | updateBatch (row : ImportBatchRow)
  | insertTransaction (row : TransactionRow)
  | insertClassification (row : ClassificationRow)
  | updateClassification (row : ClassificationRow)
  | insertDedupSkip (row : DedupSkipRow)
  | insertTransfer (row : InternalTransferRow)
  | updateTransfer (row : InternalTransferRow)
  | insertTransferMember (row : TransferMemberRow)
  | insertDecision (row : ReviewDecisionRow)
  | updateDecision (row : ReviewDecisionRow)
  | upsertVendor (row : VendorRow)
  | deleteVendor (keyVersion key : String)
  | insertRun (row : ClassificationRunRow)
  | updateRun (row : ClassificationRunRow)
  | enqueueClassify (batchID : UUID)
  /-- No row: the transaction looked for this dedup hash and found none stored. -/
  | missed (dedupHash : String)
deriving DecidableEq, Repr

def replaceBy {α : Type} (id : α → UUID) (row : α) (rows : List α) : List α :=
  rows.map fun old => if id old = id row then row else old

def Database.apply (d : Database) : Write → Database
  | .insertAccount row => { d with accounts := d.accounts ++ [row] }
  | .updateBatch row => { d with batches := replaceBy (·.id) row d.batches }
  | .insertTransaction row => { d with transactions := d.transactions ++ [row] }
  | .insertClassification row => { d with classifications := d.classifications ++ [row] }
  | .updateClassification row =>
      { d with classifications := replaceBy (·.id) row d.classifications }
  | .insertDedupSkip row => { d with dedupSkips := d.dedupSkips ++ [row] }
  | .insertTransfer row => { d with transfers := d.transfers ++ [row] }
  | .updateTransfer row => { d with transfers := replaceBy (·.id) row d.transfers }
  | .insertTransferMember row => { d with transferMembers := d.transferMembers ++ [row] }
  | .insertDecision row => { d with decisions := d.decisions ++ [row] }
  | .updateDecision row => { d with decisions := replaceBy (·.id) row d.decisions }
  | .upsertVendor row => { d with
      vendors := (d.vendors.filter fun v => !(v.keyVersion = row.keyVersion && v.key = row.key)) ++
        [row] }
  | .deleteVendor keyVersion key => { d with
      vendors := d.vendors.filter fun v => !(v.keyVersion = keyVersion && v.key = key) }
  | .insertRun row => { d with runs := d.runs ++ [row] }
  | .updateRun row => { d with runs := replaceBy (·.id) row d.runs }
  | .enqueueClassify batchID => { d with classifyJobs := d.classifyJobs ++ [batchID] }
  | .missed _ => d

/-- Rows and unique-index entries an open transaction holds against the others. -/
inductive Lock where
  | accountRef (entityID : UUID) (externalRef : String)
  | batch (id : UUID)
  | importedFile (sha256 : String)
  | row (id : UUID)
  | transferMember (txnID : UUID)
  | skip (batchID : UUID) (lineNo postingNo : Int)
  | liveDecision (keyVersion counterpartyKey : String)
  | vendor (keyVersion key : String)
  | run (batchID : UUID)
deriving DecidableEq, Repr

def Write.locks : Write → List Lock
  | .insertAccount row => match row.externalRef with
      | some externalRef => [.row row.id, .accountRef row.entityID externalRef]
      | none => [.row row.id]
  | .updateBatch row => match row.status, row.fileSHA256 with
      | .imported, some sha256 => [.batch row.id, .importedFile sha256]
      | _, _ => [.batch row.id]
  | .insertTransaction row => [.row row.id]
  | .insertClassification row => [.row row.id]
  | .updateClassification row => [.row row.id]
  | .insertDedupSkip row => [.row row.id, .skip row.batchID row.lineNo row.postingNo]
  | .insertTransfer row => [.row row.id]
  | .updateTransfer row => [.row row.id]
  | .insertTransferMember row => [.transferMember row.txnID]
  | .insertDecision row => [.row row.id, .liveDecision row.keyVersion row.counterpartyKey]
  | .updateDecision row => [.row row.id]
  | .upsertVendor row => [.vendor row.keyVersion row.key]
  | .deleteVendor keyVersion key => [.vendor keyVersion key]
  | .insertRun row => [.run row.batchID]
  | .updateRun row => [.run row.batchID]
  | .enqueueClassify _ => []
  | .missed _ => []

/-- The transactions whose one-live trigger a write queues for the commit: an insert, or an update
of `superseded_by`. A retraction updates neither of the trigger's columns. -/
def Write.oneLiveFires : Write → Option UUID
  | .insertClassification row => some row.transactionID
  | .updateClassification row => if row.supersededBy.isSome then some row.transactionID else none
  | _ => none

/-- `classifications_one_live_per_transaction`, counting the rows the commit sees. -/
def oneLivePerTransaction (d : Database) (writes : List Write) : Except Failure Unit :=
  if (writes.filterMap Write.oneLiveFires).all fun txnID => (d.liveOf txnID).length ≤ 1 then .ok ()
  else .error (.constraint "classifications_one_live_per_transaction")

instance : Store Database Write Failure Lock where
  apply := Database.apply
  locks := Write.locks
  check := oneLivePerTransaction

/-! ## What statements share -/

/-- A constraint of the schema, checked by the statement itself. -/
def require (holds : Bool) (name : String) : Except Failure Unit :=
  if holds then .ok () else .error (.constraint name)

/-- The `::bigint` cast, which a sum or a negation of bigints may leave. -/
def bigint (n : ℤ) : Except Failure Int64 :=
  if Wrapping.Fits n then .ok (Int64.ofInt n) else .error .outOfBigint

/-- A transaction body on the organisation's rows. -/
abbrev Tx (α : Type) := Prog Database Write Failure α

end Vekst.Ledger
