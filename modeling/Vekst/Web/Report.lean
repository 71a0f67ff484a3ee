import Vekst.Web.Proto

namespace Vekst.Web
open Proto Ledger

/-- Structurally identical to the generated one. -/
abbrev Money := Proto.Money

/-- What a call of the client ends with when it throws. -/
inductive Failure where
  | mixedBasis
  | refused (cause : Vekst.Failure)
deriving DecidableEq, Repr

/-- The signed-in caller and the entity of the session. -/
structure Session where
  userID : UUID
  entityID : UUID
deriving DecidableEq, Repr

/-! ## data/imports.ts -/

inductive BatchState where
  | pending
  | parsing
  | imported
  | rejected
deriving DecidableEq, Repr

structure Batch where
  id : UUID
  sourceKind : SourceKind
  state : BatchState
deriving DecidableEq, Repr

def stateByStatus : BatchStatus → BatchState
  | .awaitingUpload | .uploaded => .pending
  | .parsing | .parsed | .validating | .validated | .persisting => .parsing
  | .rejected | .abandoned | .failed => .rejected
  | .imported => .imported

def batchFromProto (b : ImportBatchRow) : Batch where
  id := b.id
  sourceKind := b.sourceKind
  state := stateByStatus b.status

/-- The batches of the session's entity, if its user is a member. -/
def listBatches (session : Session) (d : Database) : Except Failure (List Batch) :=
  if d.members.any (·.userID = session.userID) then
    .ok ((d.batches.filter (·.entityID = session.entityID)).map batchFromProto)
  else .error (.refused (.coded "not_a_member"))

/-! ## data/report.ts: the report -/

/-- `new Map(entries).get(key)`: the last entry of a key is the one kept. -/
def mapGet {α : Type} (entries : List (String × α)) (key : String) : Option α :=
  (entries.reverse.find? (·.1 = key)).map (·.2)

def zeroMoney : Money := ⟨0, ""⟩

def money (m : Option Money) : Money := m.getD zeroMoney

def subMinorUnits (a b : Int) : Int := a - b

def deriveBasis (session : Session) (d : Database) : Except Failure ReportBasis := do
  let batches ← listBatches session d
  let kinds := ((batches.filter (·.state = .imported)).map (·.sourceKind)).dedup
  if 1 < kinds.length then .error .mixedBasis
  else return if .ledger ∈ kinds then .ledger else .bank

inductive Basis where
  | cash
  | accrual
deriving DecidableEq, Repr

def basisFromProto (b : ReportBasis) : Basis := if b = .ledger then .accrual else .cash

structure ReportLine where
  categoryID : String
  label : String
  computed : Bool
  values : List Money
  total : Money
  percentOfRevenue : Option Float

def figureMoney (f : Option ReportFigure) : Money := money (f.bind (·.amount))

def lineFromProto (l : Proto.ReportLine) : ReportLine where
  categoryID := l.code
  label := l.label
  computed := l.computed
  values := l.byPeriod.map fun f => figureMoney (some f)
  total := figureMoney l.total
  percentOfRevenue := l.total.bind (·.percentOfRevenue)

/-- `BUCKET_KIND`. -/
def bucketKind : ReportBucketKind → Option String
  | .unspecified => none
  | .unclassified => some "unclassified"
  | .nonPNL => some "non_pnl"
  | .unallocated => some "unallocated"
  | .otherBasis => some "other_basis"

structure ReportBucket where
  kind : String
  values : List Money
  total : Money
deriving DecidableEq, Repr

def bucketFromProto (b : ReportBucketLine) : Option ReportBucket :=
  (bucketKind b.kind).map fun kind => ⟨kind, b.byPeriod, money b.total⟩

structure Reconciliation where
  opening : Money
  moneyIn : Money
  moneyOut : Money
  transfers : Money
  closing : Money
deriving DecidableEq, Repr

/-- `BigInt(m?.minorUnits ?? "0")`. -/
def minorUnits (m : Option Money) : Int := (m.map (·.minorUnits)).getD 0

/-- Opening is the first period's, the movements are summed, and closing follows from the four. -/
def aggregateReconciliation (lines : List ReconciliationLine) : Reconciliation :=
  match lines with
  | [] => ⟨zeroMoney, zeroMoney, zeroMoney, zeroMoney, zeroMoney⟩
  | first :: _ =>
      let currency := (first.opening.map (·.currencyCode)).getD ""
      let sum (pick : ReconciliationLine → Option Money) :=
        lines.foldl (fun acc l => acc + minorUnits (pick l)) 0
      let opening := minorUnits first.opening
      let moneyIn := sum (·.inflow)
      let moneyOut := sum (·.outflow)
      let transfers := sum (·.transfers)
      let closing := opening + moneyIn - moneyOut - transfers
      { opening := ⟨opening, currency⟩
        moneyIn := ⟨moneyIn, currency⟩
        moneyOut := ⟨-moneyOut, currency⟩
        transfers := ⟨-transfers, currency⟩
        closing := ⟨closing, currency⟩ }

structure CashPeriod where
  period : String
  moneyIn : Money
  moneyOut : Money
  net : Money
deriving DecidableEq, Repr

def cashByPeriod (periods : List String) (lines : List ReconciliationLine) (currency : String) :
    List CashPeriod :=
  periods.map fun period =>
    let line := mapGet (lines.map fun l => (l.period, l)) period
    let moneyIn := minorUnits (line.bind (·.inflow))
    let moneyOut := -minorUnits (line.bind (·.outflow))
    ⟨period, ⟨moneyIn, currency⟩, ⟨moneyOut, currency⟩, ⟨moneyIn + moneyOut, currency⟩⟩

structure Provenance where
  taxonomyVersion : String
  rulesetVersion : String
  engineVersion : String
deriving DecidableEq, Repr

def provenanceFromProto (v : Option ReportVersions) : Provenance where
  taxonomyVersion := ", ".intercalate ((v.map (·.taxonomy)).getD [])
  rulesetVersion := ", ".intercalate ((v.map (·.ruleset)).getD [])
  engineVersion := ", ".intercalate ((v.map (·.engine)).getD [])

structure Report where
  currencyCode : String
  periods : List String
  basis : Basis
  lines : List ReportLine
  buckets : List ReportBucket
  netByPeriod : List Money
  netTotal : Money
  revenueTotal : Money
  expensesTotal : Money
  expensesByPeriod : List Money
  cash : List CashPeriod
  reconciliation : Reconciliation
  provenance : Provenance
  unreviewedAmount : Money

def netSales : String := "01"
def cm : String := "93"
def ni : String := "95"

/-- JavaScript's `||` on texts. -/
def orText (a b : String) : String := if a ≠ "" then a else b

def reportFromProto (basis : Basis) (periods : List String) (protoLines : List Proto.ReportLine)
    (protoBuckets : List ReportBucketLine) (protoReconciliation : List ReconciliationLine)
    (versions : Option ReportVersions) : Report :=
  let lines := protoLines.map lineFromProto
  let buckets := protoBuckets.filterMap bucketFromProto
  let byCode := mapGet (lines.map fun l => (l.categoryID, l))
  let revenue := byCode netSales
  let cm := byCode cm
  let ni := byCode ni
  let unclassified := buckets.find? (·.kind = "unclassified")
  let revenueTotal := (revenue.map (·.total)).getD zeroMoney
  let currency := orText revenueTotal.currencyCode
    (orText ((lines.head?.map (·.total.currencyCode)).getD "") "")
  let valueAt (line : Option ReportLine) (i : Nat) : Money :=
    (line.bind (·.values[i]?)).getD zeroMoney
  { currencyCode := currency
    periods := periods
    basis := basis
    lines := lines
    buckets := buckets
    netByPeriod := (ni.map (·.values)).getD (periods.map fun _ => ⟨0, currency⟩)
    netTotal := (ni.map (·.total)).getD ⟨0, currency⟩
    revenueTotal := revenueTotal
    expensesTotal :=
      ⟨subMinorUnits revenueTotal.minorUnits ((cm.map (·.total)).getD zeroMoney).minorUnits, currency⟩
    expensesByPeriod := (List.range periods.length).map fun i =>
      ⟨subMinorUnits (valueAt revenue i).minorUnits (valueAt cm i).minorUnits, currency⟩
    cash := cashByPeriod periods protoReconciliation currency
    reconciliation := aggregateReconciliation protoReconciliation
    provenance := provenanceFromProto versions
    unreviewedAmount := (unclassified.map (·.total)).getD ⟨0, currency⟩ }

/-- `getReport`, with the database to itself. -/
def getReport (session : Session) (fromMonth toMonth : String) (d : Database) :
    Except Failure Report := do
  let basis ← deriveBasis session d
  let res ← (getManagementPNL session.userID ⟨session.entityID, fromMonth, toMonth, .month, basis⟩
    d).mapError .refused
  return reportFromProto (basisFromProto res.basis) res.periods res.lines res.buckets
    res.reconciliation res.versions

/-! ## data/report.ts: one cell -/

structure DrilldownRow where
  id : String
  bookedOn : String
  description : String
  amount : Money
  categoryLabel : String
  layer : String
  confidence : Option ℚ
  evidence : Option String
deriving DecidableEq, Repr

/-- The amount is the source's own; the converted one is not read. -/
def rowFromProto (t : DrillTransaction) : DrilldownRow where
  id := t.id
  bookedOn := t.bookedOn
  description := t.description
  amount := money t.amount
  categoryLabel := t.categoryName
  layer := orText t.engineLayer "L0"
  confidence := t.confidence
  evidence := if t.evidence ≠ "" then some t.evidence else none

structure DrilldownOperand where
  categoryID : String
  label : String
  subtracted : Bool
deriving DecidableEq, Repr

def operandFromProto (o : ReportOperand) : DrilldownOperand := ⟨o.code, o.label, o.subtracted⟩

inductive DrilldownKind where
  | transactions
  | operands
deriving DecidableEq, Repr

structure Drilldown where
  categoryID : String
  categoryLabel : String
  period : String
  amount : Money
  kind : DrilldownKind
  rows : List DrilldownRow
  operands : List DrilldownOperand
  provenance : Provenance
deriving DecidableEq, Repr

/-- What the panel's route names. -/
structure DrilldownParams where
  categoryID : String
  period : String
  fromMonth : String
  toMonth : String
deriving DecidableEq, Repr

/-- `getDrilldown`, with the database to itself: one request, for the first 500 rows. -/
def getDrilldown (parseUUID : String → Option UUID) (session : Session) (params : DrilldownParams)
    (d : Database) : Except Failure Drilldown := do
  let basis ← deriveBasis session d
  let report ← getReport session params.fromMonth params.toMonth d
  let line := report.lines.find? (·.categoryID = params.categoryID)
  let res ← (listLineTransactions parseUUID session.userID {
    entityID := session.entityID
    basis
    granularity := .month
    fromMonth := params.fromMonth
    toMonth := params.toMonth
    period := params.period
    line := params.categoryID
    cursor := ""
    limit := 500 } d).mapError .refused
  return {
    categoryID := params.categoryID
    categoryLabel := (line.map (·.label)).getD params.categoryID
    period := params.period
    amount := money res.total
    kind := if res.kind = .operands then .operands else .transactions
    rows := res.transactions.map rowFromProto
    operands := res.operands.map operandFromProto
    provenance := report.provenance }

end Vekst.Web
