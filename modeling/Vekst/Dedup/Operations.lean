import Mathlib.Data.Finset.Dedup
import Vekst.Ingest.Persist

namespace Vekst.Dedup
open Isolation Ledger

/-- What is done to an organisation's transactions and pairs, a database transaction at a time. -/
inductive Operation where
  | persist (batchID : UUID) (draws : Draws) (st : Ingest.Statement)
  | insert (draw : Nat → UUID) (now : Timestamp) (txns : List Transaction)
  | detectAndPair (id : UUID) (now : Timestamp) (txnID : UUID)
  | dismiss (now : Timestamp) (transferID userID : UUID)

def findTransaction (d : Database) (txnID : UUID) : Except Failure TransactionRow :=
  match d.transactions.find? (·.id = txnID) with
  | some txn => .ok txn
  | none => .error .noRows

def Operation.body (site : Site) : Operation → Tx Unit
  | .persist batchID draws st => do
      let batch ← Prog.query (Ingest.getImportBatch · batchID)
      Ingest.persistRows site draws batch st
  | .insert draw now txns => do
      let _ ← Ledger.insert draw now txns
  | .detectAndPair id now txnID => do
      let txn ← Prog.query (findTransaction · txnID)
      let _ ← Dedup.detectAndPair id now txn.entityID txn
  | .dismiss now transferID userID => do
      let _ ← Dedup.dismiss now transferID userID

/-- One operation, which leaves nothing behind when it fails. -/
def Operation.step (site : Site) (d : Database) (op : Operation) : Database :=
  match (op.body site).run Database.apply d with
  | .ok (_, after) => after
  | .error _ => d

def performAll (site : Site) (d : Database) (ops : List Operation) : Database :=
  ops.foldl (Operation.step site) d

/-- The organisation before its first import. -/
def withoutTransactions (d : Database) : Database :=
  { d with transactions := [], transfers := [], transferMembers := [] }

/-! ## Batches of stored rows -/

/-- A batch of rows is stored, and a pair is looked for on each. -/
def arrive (draw : UUID → UUID) (now : Timestamp) (batch : List TransactionRow) : Tx Unit := do
  batch.forM fun t => Prog.exec fun _ => .ok ([.insertTransaction t], ())
  batch.forM fun t => do
    let _ ← detectAndPair (draw t.id) now t.entityID t

def arriveAll (draw : UUID → UUID) (now : Timestamp) (batches : List (List TransactionRow)) :
    Tx Unit :=
  batches.forM (arrive draw now)

/-- The two sides of every pair, once all batches have arrived. -/
def pairsAfter (d : Database) (draw : UUID → UUID) (now : Timestamp)
    (batches : List (List TransactionRow)) : Except Failure (Finset (UUID × UUID)) :=
  ((arriveAll draw now batches).run Database.apply (withoutTransactions d)).map fun result =>
    (result.2.transfers.map fun it => (it.outTxnID, it.inTxnID)).toFinset

end Vekst.Dedup
