import Vekst.Reports.DrillDown

namespace Vekst.Proto
open Reports Isolation Ledger

/-! ## The messages of the report -/

/-- `minor_units` crosses the wire as the decimal text of an integer: `BigInt` reads the text and
`toString` writes it back, so the integer stands for it here. -/
structure Money where
  minorUnits : Int
  currencyCode : String
deriving DecidableEq, Repr

inductive ReportBasis where
  | unspecified
  | ledger
  | bank
deriving DecidableEq, Repr

inductive ReportGranularity where
  | unspecified
  | month
  | quarter
  | year
deriving DecidableEq, Repr

inductive ReportBucketKind where
  | unspecified
  | unclassified
  | nonPNL
  | unallocated
  | otherBasis
deriving DecidableEq, Repr

inductive ReportAnswerKind where
  | unspecified
  | transactions
  | operands
deriving DecidableEq, Repr

structure ReportFigure where
  amount : Option Money
  percentOfRevenue : Option Float

structure ReportLine where
  code : String
  label : String
  formula : String
  computed : Bool
  byPeriod : List ReportFigure
  total : Option ReportFigure

structure ReportBucketLine where
  kind : ReportBucketKind
  byPeriod : List Money
  total : Option Money
deriving DecidableEq, Repr

structure ReconciliationLine where
  period : String
  opening : Option Money
  inflow : Option Money
  outflow : Option Money
  transfers : Option Money
  transferRowCount : Int32
  closing : Option Money
  balances : Bool
  derived : Bool

structure ReportVersions where
  taxonomy : List String
  ruleset : List String
  engine : List String
  normalize : List String
deriving DecidableEq, Repr

structure GetManagementPNLRequest where
  entityID : UUID
  fromMonth : String
  toMonth : String
  granularity : ReportGranularity
  basis : ReportBasis
deriving DecidableEq, Repr

structure GetManagementPNLResponse where
  basis : ReportBasis
  periods : List String
  lines : List ReportLine
  buckets : List ReportBucketLine
  versions : Option ReportVersions
  reconciliation : List ReconciliationLine

structure ListLineTransactionsRequest where
  entityID : UUID
  basis : ReportBasis
  granularity : ReportGranularity
  fromMonth : String
  toMonth : String
  period : String
  line : String
  cursor : String
  limit : Int
deriving DecidableEq, Repr

structure DrillTransaction where
  id : String
  bookedOn : String
  batchID : String
  lineNo : Int
  postingNo : Int
  documentRef : String
  amount : Option Money
  baseAmount : Option Money
  counterpartyRaw : String
  description : String
  regulatedCode : String
  sourceKind : String
  categoryCode : String
  categoryName : String
  engineLayer : String
  evidence : String
  confidence : Option ℚ
  decidedBy : String
deriving DecidableEq, Repr

structure ReportOperand where
  code : String
  label : String
  subtracted : Bool
deriving DecidableEq, Repr

structure ListLineTransactionsResponse where
  kind : ReportAnswerKind
  rowCount : Int32
  total : Option Money
  nextCursor : String
  operands : List ReportOperand
  transactions : List DrillTransaction

/-! ## Answering a request -/

/-- A figure of zero is a fact, so it is written like any other. -/
def toReportMoney (m : Vekst.Money) : Money := ⟨m.minorUnits.toInt, m.currencyCode⟩

/-- An amount of nothing in no currency is left out. -/
def toMoney (m : Vekst.Money) : Option Money :=
  if m.currencyCode = "" ∧ m.minorUnits = 0 then none
  else some (toReportMoney m)

def toFigure (f : Figure) : ReportFigure where
  amount := some (toReportMoney f.amount)
  percentOfRevenue := if f.hasPercentOfRevenue then some f.percentOfRevenue else none

def fromProtoBasis : ReportBasis → Except Vekst.Failure Basis
  | .ledger => .ok .ledger
  | .bank => .ok .bank
  | .unspecified => .error (.coded Code.unknownBasis)

def fromProtoGranularity : ReportGranularity → Except Vekst.Failure Granularity
  | .month => .ok .monthly
  | .quarter => .ok .quarterly
  | .year => .ok .yearly
  | .unspecified => .error (.coded Code.unknownGranularity)

def toProtoBucket : Bucket → ReportBucketKind
  | .unclassified => .unclassified
  | .nonPNL => .nonPNL
  | .unallocated => .unallocated
  | .otherBasis => .otherBasis

def toProtoAnswer : Reports.Answer → ReportAnswerKind
  | .operands => .operands
  | .transactions => .transactions

def toReportLine (l : Line) : ReportLine where
  code := l.code
  label := l.label
  formula := l.formula
  computed := l.computed
  byPeriod := l.byPeriod.map toFigure
  total := some (toFigure l.total)

def toBucketLine (r : Report) (kind : Bucket) : ReportBucketLine where
  kind := toProtoBucket kind
  byPeriod := (r.buckets kind).map toReportMoney
  total := some (toReportMoney (r.totals kind))

def toReconciliationLine (strip : Reconciliation) : ReconciliationLine where
  period := strip.period
  opening := some (toReportMoney strip.opening)
  inflow := some (toReportMoney strip.inflow)
  outflow := some (toReportMoney strip.outflow)
  transfers := some (toReportMoney strip.transfers)
  transferRowCount := Int32.ofInt strip.transferRowCount
  closing := some (toReportMoney strip.closing)
  balances := strip.balances
  derived := strip.derived

/-- The handler, for a caller who is signed in. -/
def getManagementPNL (userID : UUID) (msg : GetManagementPNLRequest) (d : Database) :
    Except Vekst.Failure GetManagementPNLResponse := do
  let basis ← fromProtoBasis msg.basis
  let granularity ← fromProtoGranularity msg.granularity
  let r ← Reports.managementPNL userID ⟨msg.entityID, msg.fromMonth, msg.toMonth, granularity, basis⟩ d
  return {
    basis := msg.basis
    periods := r.spec.periods
    lines := r.lines.map toReportLine
    buckets := bucketOrder.map (toBucketLine r)
    versions := some ⟨r.spec.taxonomyVersions, r.spec.rulesetVersions, r.spec.engineVersions,
      r.spec.normalizeVersions⟩
    reconciliation := r.reconciliation.map toReconciliationLine }

def toDrillTransaction (r : DrillRow) : DrillTransaction where
  id := r.id.text
  bookedOn := r.bookedOn
  batchID := r.batchID.text
  lineNo := r.lineNo
  postingNo := r.postingNo
  documentRef := r.documentRef
  amount := some (toReportMoney r.amount)
  baseAmount := toMoney r.baseAmount
  counterpartyRaw := r.counterpartyRaw
  description := r.description
  regulatedCode := r.regulatedCode
  sourceKind := r.sourceKind
  categoryCode := r.categoryCode
  categoryName := r.categoryName
  engineLayer := r.engineLayer
  evidence := r.evidence
  confidence := if r.hasConfidence then some r.confidence else none
  decidedBy := if r.decidedBy ≠ UUID.zero then r.decidedBy.text else ""

/-- `uuid.Parse`, which reads the cursor's identifier, is the parameter. -/
def listLineTransactions (parseUUID : String → Option UUID) (userID : UUID)
    (msg : ListLineTransactionsRequest) (d : Database) :
    Except Vekst.Failure ListLineTransactionsResponse := do
  let basis ← fromProtoBasis msg.basis
  let granularity ← fromProtoGranularity msg.granularity
  let line ← (parseLineRef msg.line).mapError fun _ => .coded Code.unknownLine
  let cursor ← (parseCursor parseUUID msg.cursor).mapError fun _ => .coded Code.badCursor
  let answer ← Service.lineTransactions userID
    ⟨msg.entityID, msg.fromMonth, msg.toMonth, granularity, basis⟩ msg.period line cursor
    msg.limit d
  return {
    kind := toProtoAnswer answer.kind
    rowCount := Int32.ofInt answer.rowCount
    total := some (toReportMoney answer.total)
    nextCursor := answer.nextCursor
    operands := answer.operands.map fun o => ⟨o.code, o.label, o.subtracted⟩
    transactions := answer.rows.map toDrillTransaction }

end Vekst.Proto
