import Vekst.Reports.Queries

namespace Vekst.Reports
open Calendar Isolation Ledger

namespace Code
def forbidden : String := "report_forbidden"
def badRange : String := "report_bad_range"
def unknownBasis : String := "report_unknown_basis"
def unknownGranularity : String := "report_unknown_granularity"
def noBaseCurrency : String := "report_no_base_currency"
end Code

/-- What the request alone decides: the dates of the range and the columns. -/
structure Prepared where
  fromDate : Date
  toDate : Date
  periods : List String
deriving DecidableEq, Repr

def prepare (req : Request) : Except Vekst.Failure Prepared :=
  match monthRange req.fromMonth req.toMonth with
  | .error _ => .error (.coded Code.badRange)
  | .ok (fromDate, toDate) =>
      if req.basis ≠ .ledger ∧ req.basis ≠ .bank then .error (.coded Code.unknownBasis)
      else match periods req.fromMonth req.toMonth req.granularity with
        | .error _ => .error (.coded Code.unknownGranularity)
        | .ok periods => .ok ⟨fromDate, toDate, periods⟩

/-- Membership of the organisation; the role is read and discarded. -/
def bindMember (userID : UUID) : Tx Unit :=
  Prog.query fun d =>
    if d.members.any (·.userID = userID) then .ok () else .error (.coded Code.forbidden)

/-- A failure of the pure half, as the service returns it. -/
def lift {α : Type} (outcome : Except Failure α) : Except Vekst.Failure α :=
  outcome.mapError .report

def labelled (g : Granularity) (month : String) : Except Vekst.Failure String := lift (g.label month)

def appendDistinct (xs : List String) (x : String) : List String :=
  if x ∈ xs then xs else xs ++ [x]

/-- The balances at the boundaries between the periods, one more than the periods. -/
def boundaries (selections : List Selection) : List Date :=
  selections.map (·.fromDate) ++ (selections.getLast?.map (·.toDate.succ)).toList

def reconcilePeriod (baseCcy : String) (period : String) (sel : Selection)
    (opening closing : Int64) : Tx Reconciliation := do
  let r ← Prog.query (reconciliationForPeriod · sel.args)
  return {
    period
    opening := ⟨baseCcy, opening⟩
    inflow := ⟨baseCcy, r.inMinor⟩
    outflow := ⟨baseCcy, r.outMinor⟩
    transfers := ⟨baseCcy, r.transfersMinor⟩
    closing := ⟨baseCcy, closing⟩
    transferRowCount := r.transferRowCount
    derived := true
    balances := opening + r.inMinor - r.outMinor - r.transfersMinor = closing }

/-- The strip, period by period: each closing is the next period's opening. -/
def reconcilePeriods (baseCcy : String) :
    List (String × Selection) → List Int64 → Tx (List Reconciliation)
  | (period, sel) :: rest, opening :: closing :: later => do
      let line ← reconcilePeriod baseCcy period sel opening closing
      let lines ← reconcilePeriods baseCcy rest (closing :: later)
      return line :: lines
  | _, _ => return []

def reconciliation (req : Request) (periods : List String) (baseCcy : String) :
    Tx (List Reconciliation) := do
  if periods = [] then return []
  let selections ← Prog.ofExcept
    (lift (periods.mapM fun period => selectionFor req period (.sectionLine netSales)))
  let balances ← (boundaries selections).mapM fun before =>
    Prog.query fun d => openingBalanceBefore d req.entityID req.basis.name before
  reconcilePeriods baseCcy (periods.zip selections) balances

def otherKind (basis : Basis) : Basis := if basis = .ledger then .bank else .ledger

/-- The rows the three reads contribute, labelled with their columns. -/
def lineRow (req : Request) (baseCcy : String) (l : ReportLine) : Except Vekst.Failure Row :=
  (labelled req.granularity l.key.period).map fun period => {
    period
    categoryCode := l.key.categoryCode
    pnlSection := l.key.pnlSection
    amount := ⟨baseCcy, l.amountMinor⟩
    isPNL := l.key.isPNL
    requiresAllocation := l.key.requiresAllocation
    sourceKind := req.basis }

def totalRow (req : Request) (baseCcy : String) (sourceKind : Basis) (u : PeriodTotal) :
    Except Vekst.Failure Row :=
  (labelled req.granularity u.period).map fun period => {
    period
    categoryCode := ""
    pnlSection := ""
    amount := ⟨baseCcy, u.amountMinor⟩
    isPNL := false
    requiresAllocation := false
    sourceKind }

/-- Everything the transaction of `ManagementPNL` reads. -/
structure Read where
  rows : List Row
  spec : Spec
  strip : List Reconciliation
deriving DecidableEq, Repr

def readReport (req : Request) (prep : Prepared) : Tx Read := do
  let baseCcy ← Prog.query fun d => .ok d.baseCurrency
  if baseCcy = "" then Prog.fail (.coded Code.noBaseCurrency)
  let args : Args := ⟨req.entityID, req.basis.name, prep.fromDate, prep.toDate⟩
  let lines ← Prog.query (reportLines · args)
  let classified ← Prog.ofExcept (lines.mapM (lineRow req baseCcy))
  let unclassified ← Prog.query (reportUnclassifiedTotals · args)
  let unclassified ← Prog.ofExcept (unclassified.mapM (totalRow req baseCcy req.basis))
  let other ← Prog.query (reportOtherBasisTotals · args)
  let other ← Prog.ofExcept (other.mapM (totalRow req baseCcy (otherKind req.basis)))
  let strip ← reconciliation req prep.periods baseCcy
  let versions ← Prog.query fun d => .ok (reportVersions d args)
  return {
    rows := classified ++ unclassified ++ other
    spec := {
      basis := req.basis
      periods := prep.periods
      granularity := req.granularity
      fromMonth := req.fromMonth
      toMonth := req.toMonth
      baseCurrency := baseCcy
      taxonomyVersions := (versions.map (·.taxonomyVersion)).foldl appendDistinct []
      rulesetVersions := (versions.map (·.rulesetVersion)).foldl appendDistinct []
      engineVersions := (versions.map (·.engineVersion)).foldl appendDistinct []
      normalizeVersions := (versions.map (·.normalizeVersion)).foldl appendDistinct [] }
    strip }

/-- What becomes of the reads once the transaction has committed. -/
def finishReport (read : Read) : Except Vekst.Failure Report :=
  (lift (compute read.rows read.spec)).map fun report => { report with reconciliation := read.strip }

/-- `ManagementPNL` with the database to itself. -/
def managementPNL (userID : UUID) (req : Request) (d : Database) :
    Except Vekst.Failure Report := do
  let prep ← prepare req
  let _ ← (bindMember userID).run Database.apply d
  let (read, _) ← (readReport req prep).run Database.apply d
  finishReport read

end Vekst.Reports
