import Mathlib.Logic.Function.Basic
import Vekst.Ledger.Transaction

namespace Vekst.Dedup
open Ledger

structure Candidate where
  lineNo : Int
  txn : Transaction
deriving DecidableEq, Repr

/-- The loop of `Partition`, from what has been seen so far. -/
def partitionFrom (sha256 : String → String) (seen : String → Nat) :
    List Candidate → List Candidate
  | [] => []
  | c :: rest =>
      let key := contentKey c.txn
      let occurrence := seen key + 1
      { c with txn := { c.txn with dedupHash := dedupHash sha256 c.txn occurrence } } ::
        partitionFrom sha256 (Function.update seen key occurrence) rest

def partition (sha256 : String → String) (candidates : List Candidate) : List Candidate :=
  partitionFrom sha256 (fun _ => 0) candidates

end Vekst.Dedup
