import Mathlib.Data.Rat.Defs
import Vekst.Basic
import Vekst.Calendar.Date

namespace Vekst.Ledger
open Calendar

/-! ## Rows. One organisation's, and the shared ones: what row-level security lets it see. -/

inductive SourceKind where
  | ledger
  | bank
deriving DecidableEq, Repr

def SourceKind.text : SourceKind → String
  | .ledger => "ledger"
  | .bank => "bank"

inductive Role where
  | owner
  | admin
  | approver
  | viewer
deriving DecidableEq, Repr

structure Membership where
  userID : UUID
  role : Role
deriving DecidableEq, Repr

structure AccountRow where
  id : UUID
  entityID : UUID
  name : String
  currency : String
  externalRef : Option String
deriving DecidableEq, Repr

inductive BatchStatus where
  | awaitingUpload
  | abandoned
  | uploaded
  | parsing
  | parsed
  | validating
  | validated
  | rejected
  | persisting
  | imported
  | failed
deriving DecidableEq, Repr

structure ImportBatchRow where
  id : UUID
  entityID : UUID
  sourceKind : SourceKind
  status : BatchStatus
  fileSHA256 : Option String
  failureCode : Option String
deriving DecidableEq, Repr

structure TransactionRow where
  id : UUID
  entityID : UUID
  accountID : UUID
  batchID : UUID
  lineNo : Int
  sourceKind : SourceKind
  documentRef : Option String
  postingNo : Int
  bookedOn : Date
  valueOn : Option Date
  amountMinor : Int64
  currency : String
  fxRate : Option ℚ
  fxRateOn : Option Date
  baseAmountMinor : Option Int64
  baseCurrency : Option String
  counterpartyRaw : String
  counterpartyKey : String
  descriptionRaw : String
  descriptionNorm : String
  normalizeVersion : String
  regulatedCode : String
  bankRef : String
  dedupHash : String
  createdAt : Timestamp
deriving DecidableEq, Repr

/-- `coalesce(base_amount_minor, amount_minor)`, the amount every report sums. -/
def TransactionRow.amount (t : TransactionRow) : Int64 := t.baseAmountMinor.getD t.amountMinor

structure CategoryRow where
  id : UUID
  taxonomyVersion : String
  code : String
  name : String
  pnlSection : String
  isPNL : Bool
  isLeaf : Bool
  isComputed : Bool
  requiresAllocation : Bool
deriving DecidableEq, Repr

structure ClassificationRow where
  id : UUID
  transactionID : UUID
  categoryID : UUID
  engineLayer : String
  confidence : ℚ
  evidence : String
  taxonomyVersion : String
  rulesetVersion : String
  engineVersion : String
  normalizeVersion : String
  decidedBy : Option UUID
  decidedAt : Timestamp
  supersededBy : Option UUID
  retractedAt : Option Timestamp
  retractedBy : Option UUID
deriving DecidableEq, Repr

/-- `superseded_by IS NULL AND retracted_at IS NULL`. -/
def ClassificationRow.live (c : ClassificationRow) : Bool :=
  c.supersededBy.isNone && c.retractedAt.isNone

structure DedupSkipRow where
  id : UUID
  batchID : UUID
  lineNo : Int
  postingNo : Int
  level : String
  dedupHash : String
  matchedTransactionID : Option UUID
  matchedBatchID : Option UUID
deriving DecidableEq, Repr

structure InternalTransferRow where
  id : UUID
  outTxnID : UUID
  inTxnID : UUID
  detectedAt : Timestamp
  dismissedBy : Option UUID
  dismissedAt : Option Timestamp
deriving DecidableEq, Repr

inductive Side where
  | outgoing
  | incoming
deriving DecidableEq, Repr

structure TransferMemberRow where
  txnID : UUID
  transferID : UUID
  side : Side
deriving DecidableEq, Repr

structure ReviewDecisionRow where
  id : UUID
  counterpartyKey : String
  keyVersion : String
  outcome : String
  categoryID : Option UUID
  decidedBy : UUID
  coveredCount : Int
  coveredMinor : Int64
  coveredCurrency : String
  undoneAt : Option Timestamp
  undoneBy : Option UUID
deriving DecidableEq, Repr

structure VendorRow where
  id : UUID
  key : String
  keyVersion : String
  displayName : String
  categoryID : UUID
  decidedBy : Option UUID
deriving DecidableEq, Repr

inductive RunStatus where
  | running
  | classified
  | failed
deriving DecidableEq, Repr

structure ClassificationRunRow where
  id : UUID
  batchID : UUID
  status : RunStatus
  failureCode : Option String
  chunkCount : Nat
  classifiedCount : Nat
  reviewCount : Nat
  startedAt : Timestamp
  finishedAt : Option Timestamp
deriving DecidableEq, Repr

/-- The conditions of a stored rule, as `json.Unmarshal` reads the column. -/
structure MatcherCondition where
  field : String
  op : String
  value : String
  amount : Option Money
deriving DecidableEq, Repr

structure Matcher where
  sourceKind : String
  normalizeVersion : String
  all : List MatcherCondition
deriving DecidableEq, Repr

structure RuleRow where
  id : UUID
  taxonomyVersion : String
  rulesetVersion : String
  ownedByOrg : Bool
  scope : String
  priority : Int
  /-- Absent where the column does not unmarshal. -/
  matcher : Option Matcher
  categoryID : UUID
  active : Bool
deriving DecidableEq, Repr

structure Database where
  baseCurrency : String
  members : List Membership
  accounts : List AccountRow
  batches : List ImportBatchRow
  transactions : List TransactionRow
  categories : List CategoryRow
  classifications : List ClassificationRow
  dedupSkips : List DedupSkipRow
  transfers : List InternalTransferRow
  transferMembers : List TransferMemberRow
  decisions : List ReviewDecisionRow
  vendors : List VendorRow
  rules : List RuleRow
  runs : List ClassificationRunRow
  /-- The batches River's queue holds a classify job for. -/
  classifyJobs : List UUID
deriving DecidableEq, Repr

/-- An organisation with nothing but its reporting currency. -/
def Database.empty (baseCurrency : String) : Database where
  baseCurrency := baseCurrency
  members := []
  accounts := []
  batches := []
  transactions := []
  categories := []
  classifications := []
  dedupSkips := []
  transfers := []
  transferMembers := []
  decisions := []
  vendors := []
  rules := []
  runs := []
  classifyJobs := []

/-- The classifications of a transaction that are neither superseded nor retracted. -/
def Database.liveOf (d : Database) (txnID : UUID) : List ClassificationRow :=
  d.classifications.filter fun c => c.transactionID = txnID && c.live

end Vekst.Ledger
