import Mathlib.Data.List.Sort
import Vekst.Dedup.Partition

namespace Vekst.Dedup
open Isolation Ledger

/-- A stored transaction and the batch that brought it. -/
structure Match where
  transactionID : UUID
  batchID : UUID
deriving DecidableEq, Repr

/-- `FindTransactionByDedupHash`: the most recent of the rows with the hash. -/
def findTransactionByDedupHash (d : Database) (hash : String) : Option TransactionRow :=
  ((d.transactions.filter (·.dedupHash = hash)).insertionSort
    fun a b => b.createdAt ≤ a.createdAt).head?

def findByHash (hash : String) : Tx (Option Match) :=
  Prog.exec fun d => match findTransactionByDedupHash d hash with
    | some t => .ok ([], some ⟨t.id, t.batchID⟩)
    | none => .ok ([.missed hash], none)

structure Skip where
  batchID : UUID
  lineNo : Int
  postingNo : Int
  level : String
  dedupHash : String
  matched : Option Match
deriving DecidableEq, Repr

abbrev levelD2 : String := "D2"
abbrev levelD3 : String := "D3"

def skipRow (id : UUID) (s : Skip) : DedupSkipRow where
  id := id
  batchID := s.batchID
  lineNo := s.lineNo
  postingNo := s.postingNo
  level := s.level
  dedupHash := s.dedupHash
  matchedTransactionID := s.matched.map (·.transactionID)
  matchedBatchID := s.matched.map (·.batchID)

def checkSkip (d : Database) (row : DedupSkipRow) : Except Failure Unit := do
  require (0 < row.lineNo) "dedup_skips_line_no_check"
  require (row.level ∈ [levelD2, levelD3]) "dedup_skips_level_check"
  require (row.dedupHash ≠ "") "dedup_skips_dedup_hash_check"
  require
    ((row.level = levelD2 && row.matchedTransactionID.isNone && row.matchedBatchID.isNone) ||
      (row.level = levelD3 && row.matchedTransactionID.isSome && row.matchedBatchID.isSome))
    "dedup_skips_d3_names_its_original"
  require (d.dedupSkips.all (·.id ≠ row.id)) "dedup_skips_pkey"
  require (d.batches.any (·.id = row.batchID)) "dedup_skips_org_id_batch_id_fkey"
  require (d.dedupSkips.all fun old =>
      !(old.batchID = row.batchID && old.lineNo = row.lineNo && old.postingNo = row.postingNo))
    "dedup_skips_org_id_batch_id_line_no_posting_no_key"

def insertSkip (id : UUID) (s : Skip) : Tx Unit :=
  Prog.exec fun d => do
    checkSkip d (skipRow id s)
    return ([.insertDedupSkip (skipRow id s)], ())

end Vekst.Dedup
