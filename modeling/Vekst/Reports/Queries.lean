import Vekst.Ledger.Classification
import Vekst.Relational.Grouping
import Vekst.Reports.Selection

namespace Vekst.Reports
open Calendar Decimal Relational Wrapping Ledger

/-- The parameters every read of the report shares. -/
structure Args where
  entityID : UUID
  sourceKind : String
  fromDate : Date
  toDate : Date
deriving DecidableEq, Repr

/-- `to_char(date, 'YYYY-MM')`, which counts years before the first back from one. -/
def toCharMonth (d : Date) : String :=
  String.ofList (paddedInt 4 (if d.year ≤ 0 then 1 - d.year else d.year) ++ '-' :: padded 2 d.month)

def exactSum (rows : List TransactionRow) : ℤ := (rows.map (·.amount.toInt)).sum

def Args.covers (args : Args) (t : TransactionRow) : Bool :=
  t.entityID = args.entityID && args.fromDate ≤ t.bookedOn && t.bookedOn ≤ args.toDate

/-- The transactions of the report's own basis in its range. -/
def scope (d : Database) (args : Args) : List TransactionRow :=
  d.transactions.filter fun t => args.covers t && t.sourceKind.text = args.sourceKind

/-! ## report.sql -/

structure ReportKey where
  period : String
  categoryCode : String
  pnlSection : String
  isPNL : Bool
  requiresAllocation : Bool
deriving DecidableEq, Repr

structure ReportLine where
  key : ReportKey
  amountMinor : Int64
deriving DecidableEq, Repr

def reportKey (row : (TransactionRow × ClassificationRow) × CategoryRow) : ReportKey where
  period := toCharMonth row.1.1.bookedOn
  categoryCode := row.2.code
  pnlSection := row.2.pnlSection
  isPNL := row.2.isPNL
  requiresAllocation := row.2.requiresAllocation

def classifiedRows (d : Database) (args : Args) :
    List ((TransactionRow × ClassificationRow) × CategoryRow) :=
  innerJoin (innerJoin (scope d args) d.classifications liveFor) d.categories
    fun row cat => cat.id = row.2.categoryID

def reportLines (d : Database) (args : Args) : Except Vekst.Failure (List ReportLine) :=
  ((groups reportKey (classifiedRows d args)).insertionSort fun a b =>
      a.1.period < b.1.period ∨ a.1.period = b.1.period ∧ a.1.categoryCode ≤ b.1.categoryCode).mapM
    fun group => (bigint (exactSum (group.2.map (·.1.1)))).map fun amount => ⟨group.1, amount⟩

structure PeriodTotal where
  period : String
  amountMinor : Int64
deriving DecidableEq, Repr

def periodTotals (rows : List TransactionRow) : Except Vekst.Failure (List PeriodTotal) :=
  ((groups (fun t => toCharMonth t.bookedOn) rows).insertionSort fun a b => a.1 ≤ b.1).mapM
    fun group => (bigint (exactSum group.2)).map fun amount => ⟨group.1, amount⟩

def reportUnclassifiedTotals (d : Database) (args : Args) :
    Except Vekst.Failure (List PeriodTotal) :=
  periodTotals ((scope d args).filter (unanswered d))

def reportOtherBasisTotals (d : Database) (args : Args) :
    Except Vekst.Failure (List PeriodTotal) :=
  periodTotals (d.transactions.filter fun t => args.covers t && t.sourceKind.text ≠ args.sourceKind)

structure VersionRow where
  taxonomyVersion : String
  rulesetVersion : String
  engineVersion : String
  normalizeVersion : String
deriving DecidableEq, Repr

def VersionRow.texts (v : VersionRow) : List String :=
  [v.taxonomyVersion, v.rulesetVersion, v.engineVersion, v.normalizeVersion]

def reportVersions (d : Database) (args : Args) : List VersionRow :=
  let versions := (innerJoin (scope d args) d.classifications liveFor).map fun row =>
    ⟨row.2.taxonomyVersion, row.2.rulesetVersion, row.2.engineVersion, row.2.normalizeVersion⟩
  versions.dedup.insertionSort fun a b => ¬ b.texts < a.texts

/-! ## drilldown.sql -/

/-- One row of the drill-down's joins; absent columns are the `NULL`s of the left joins. -/
structure CellRow where
  txn : TransactionRow
  classification : Option ClassificationRow
  category : Option CategoryRow
deriving DecidableEq, Repr

def cellRows (d : Database) (args : Args) : List CellRow :=
  (leftJoin (leftJoin (d.transactions.filter args.covers) d.classifications liveFor) d.categories
    fun row cat => row.2.any fun c => cat.id = c.categoryID).map
    fun row => ⟨row.1.1, row.1.2, row.2⟩

/-- The line predicate both queries spell out. A condition on an absent category is not true. -/
def CellRow.onLine (row : CellRow) (sourceKind line : String) : Bool :=
  (if line = "other_basis" then row.txn.sourceKind.text ≠ sourceKind
    else row.txn.sourceKind.text = sourceKind) &&
  if line = "other_basis" then true
  else if line = "unclassified" then row.classification.isNone
  else if line = "non_pnl" then
    row.classification.isSome && row.category.any fun cat =>
      !cat.isPNL || (!cat.requiresAllocation && (cat.pnlSection = "08" || cat.pnlSection = "09"))
  else if line = "unallocated" then
    row.classification.isSome && row.category.any fun cat => cat.isPNL && cat.requiresAllocation
  else
    row.classification.isSome && row.category.any fun cat =>
      cat.isPNL && !cat.requiresAllocation && cat.pnlSection = line

/-- The rows of a cell, before the cursor and the limit. -/
def onLine (d : Database) (args : Args) (line : String) : List CellRow :=
  (cellRows d args).filter (·.onLine args.sourceKind line)

def afterCursor (cursor : Option (Date × UUID)) (t : TransactionRow) : Bool :=
  match cursor with
  | none => true
  | some (bookedOn, id) => bookedOn < t.bookedOn || (t.bookedOn = bookedOn && id < t.id)

def lineTransactions (d : Database) (args : Args) (line : String)
    (cursor : Option (Date × UUID)) (rowLimit : Nat) : List CellRow :=
  (((onLine d args line).filter fun row => afterCursor cursor row.txn).insertionSort
    fun a b => earlier a.txn b.txn).take rowLimit

structure LineTotal where
  rowCount : Nat
  amountMinor : Int64
deriving DecidableEq, Repr

def lineTotal (d : Database) (args : Args) (line : String) : Except Vekst.Failure LineTotal :=
  let rows := onLine d args line
  (bigint (exactSum (rows.map (·.txn)))).map fun amount => ⟨rows.length, amount⟩

/-- The parameters a selection gives the queries. -/
def Selection.args (sel : Selection) : Args where
  entityID := sel.entityID
  sourceKind := sel.basis.name
  fromDate := sel.fromDate
  toDate := sel.toDate

structure ReconciliationRow where
  inMinor : Int64
  outMinor : Int64
  transfersMinor : Int64
  transferRowCount : Nat
deriving DecidableEq, Repr

/-- Each transaction beside its undismissed pair, if it is a member of one. -/
def transferRows (d : Database) (rows : List TransactionRow) :
    List (TransactionRow × Option InternalTransferRow) :=
  (leftJoin (leftJoin rows d.transferMembers fun t m => m.txnID = t.id) d.transfers
    fun row it => it.dismissedAt.isNone && row.2.any fun m => m.transferID = it.id).map
    fun row => (row.1.1, row.2)

def reconciliationForPeriod (d : Database) (args : Args) :
    Except Vekst.Failure ReconciliationRow := do
  let rows := transferRows d (scope d args)
  let ordinary := (rows.filter fun row => row.2.isNone).map (·.1)
  let legs := (rows.filter fun row => row.2.isSome).map (·.1)
  let inMinor ← bigint (exactSum (ordinary.filter fun t => 0 < t.amount))
  let outMinor ← bigint (-exactSum (ordinary.filter fun t => t.amount < 0))
  let transfersMinor ← bigint (-exactSum legs)
  return { inMinor, outMinor, transfersMinor, transferRowCount := legs.length }

def openingBalanceBefore (d : Database) (entityID : UUID) (sourceKind : String) (before : Date) :
    Except Vekst.Failure Int64 :=
  bigint (exactSum (d.transactions.filter fun t =>
    t.entityID = entityID && t.sourceKind.text = sourceKind && t.bookedOn < before))

end Vekst.Reports
