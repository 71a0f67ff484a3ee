import Mathlib.Data.List.Sort
import Vekst.Ledger.Transaction

namespace Vekst.Dedup
open Isolation Ledger

/-- The days a pair's legs may lie apart. -/
def transferWindowDays : Int := 3

/-- The signed amount a pair is matched on. -/
def baseAmount (t : TransactionRow) : Int64 :=
  if t.fxRate.isSome then t.baseAmountMinor.getD 0 else t.amountMinor

def daysApart (a b : TransactionRow) : Nat := (a.bookedOn.dayNumber - b.bookedOn.dayNumber).natAbs

/-- The pairing rule of `TransferCandidatesForTransaction`. -/
def pairs (d : Database) (entityID : UUID) (txn : TransactionRow) (opposite : Int64)
    (c : TransactionRow) : Bool :=
  c.entityID = entityID && c.id ≠ txn.id && c.accountID ≠ txn.accountID &&
    c.sourceKind = txn.sourceKind && c.amount = opposite &&
    (daysApart c txn : Int) ≤ transferWindowDays &&
    !d.transferMembers.any (·.txnID = c.id)

def nearer (txn a b : TransactionRow) : Prop :=
  daysApart a txn < daysApart b txn ∨ daysApart a txn = daysApart b txn ∧ a.id ≤ b.id

instance (txn a b : TransactionRow) : Decidable (nearer txn a b) :=
  inferInstanceAs (Decidable (_ ∨ _))

def transferCandidates (d : Database) (entityID : UUID) (txn : TransactionRow) :
    Except Failure (List TransactionRow) := do
  let opposite ← bigint (-(baseAmount txn).toInt)
  return (d.transactions.filter (pairs d entityID txn opposite)).insertionSort (nearer txn)

/-- The pair and both its members, in one statement. -/
def insertInternalTransferPair (id : UUID) (now : Timestamp) (outTxnID inTxnID : UUID) :
    Tx InternalTransferRow :=
  Prog.exec fun d => do
    let pair : InternalTransferRow :=
      { id, outTxnID, inTxnID, detectedAt := now, dismissedBy := none, dismissedAt := none }
    require (outTxnID ≠ inTxnID) "internal_transfers_two_sides"
    require (d.transfers.all (·.id ≠ id)) "internal_transfers_pkey"
    require (d.transactions.any (·.id = outTxnID) && d.transactions.any (·.id = inTxnID))
      "internal_transfers_org_id_txn_id_fkey"
    require (d.transferMembers.all fun m => m.txnID ≠ outTxnID && m.txnID ≠ inTxnID)
      "internal_transfer_members_pkey"
    return ([.insertTransfer pair, .insertTransferMember ⟨outTxnID, id, .outgoing⟩,
      .insertTransferMember ⟨inTxnID, id, .incoming⟩], pair)

def detectAndPair (id : UUID) (now : Timestamp) (entityID : UUID) (txn : TransactionRow) :
    Tx (Option InternalTransferRow) := do
  let amount := baseAmount txn
  if amount = 0 then return none
  let candidates ← Prog.query (transferCandidates · entityID txn)
  match candidates with
  | [] => return none
  | candidate :: _ =>
      -- The leg with the positive amount is the money coming in.
      let (outID, inID) := if 0 < amount then (candidate.id, txn.id) else (txn.id, candidate.id)
      let pair ← insertInternalTransferPair id now outID inID
      return some pair

/-- `DismissInternalTransfer`, which finds no row once the pair is dismissed. -/
def dismiss (now : Timestamp) (transferID userID : UUID) : Tx InternalTransferRow :=
  Prog.exec fun d =>
    match d.transfers.find? fun it => it.id = transferID && it.dismissedAt.isNone with
    | none => .error .transferNotFound
    | some it =>
        let row := { it with dismissedBy := some userID, dismissedAt := some now }
        .ok ([.updateTransfer row], row)

/-- The organisation's undismissed pairs a transaction is a member of. -/
def activeTransfers (d : Database) (txnID : UUID) : List InternalTransferRow :=
  d.transfers.filter fun it =>
    it.dismissedAt.isNone && d.transferMembers.any fun m => m.transferID = it.id && m.txnID = txnID

end Vekst.Dedup
