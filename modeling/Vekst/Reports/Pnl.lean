import Vekst.Basic
import Vekst.Reports.Failure
import Vekst.Arithmetic.Wrapping

namespace Vekst.Reports

/-! ## The lines of the report -/

abbrev netSales : String := "01"
abbrev cs : String := "02"
abbrev ocs : String := "03"
abbrev opex : String := "04"
abbrev oie : String := "05"
abbrev fr : String := "06"
abbrev cit : String := "07"
abbrev capex : String := "08"
abbrev outOfPNL : String := "09"

abbrev gm : String := "91"
abbrev nm : String := "92"
abbrev cm : String := "93"
abbrev ibt : String := "94"
abbrev ni : String := "95"

/-- One step of the chain, in the signs the ledger stores: `minus` names costs, which are added. -/
structure ComputedLine where
  code : String
  label : String
  formula : String
  plus : List String
  minus : List String
deriving DecidableEq, Repr

def chain : List ComputedLine := [
  ⟨gm, "GM", "NET SALES - CS", [netSales], [cs]⟩,
  ⟨nm, "NM", "GM - OCS", [gm], [ocs]⟩,
  ⟨cm, "CM", "NM - OPEX - OIE", [nm], [opex, oie]⟩,
  ⟨ibt, "IBT", "CM - FR", [cm], [fr]⟩,
  ⟨ni, "NI", "IBT - CIT", [ibt], [cit]⟩]

def sections : List String := [netSales, cs, ocs, opex, oie, fr, cit]

def order : List String := [netSales, cs, gm, ocs, nm, opex, oie, cm, fr, ibt, cit, ni]

def nonPNLSections : List String := [capex, outOfPNL]

/-- The source's `Basis` is an open string type; the service admits the two named values. -/
structure Basis where
  name : String
deriving DecidableEq, Repr

abbrev Basis.ledger : Basis := ⟨"ledger"⟩
abbrev Basis.bank : Basis := ⟨"bank"⟩

inductive Bucket where
  | unclassified
  | nonPNL
  | unallocated
  | otherBasis
deriving DecidableEq, Repr

def bucketOrder : List Bucket := [.unclassified, .nonPNL, .unallocated, .otherBasis]

def Bucket.name : Bucket → String
  | .unclassified => "unclassified"
  | .nonPNL => "non_pnl"
  | .unallocated => "unallocated"
  | .otherBasis => "other_basis"

/-- The line a cell is on. The source's struct sets exactly one of its two fields. -/
inductive LineRef where
  | sectionLine (code : String)
  | bucketLine (bucket : Bucket)
deriving DecidableEq, Repr

/-! ## Rows in, report out -/

structure Row where
  period : String
  /-- Empty when no live classification exists. -/
  categoryCode : String
  pnlSection : String
  amount : Money
  isPNL : Bool
  requiresAllocation : Bool
  sourceKind : Basis
deriving DecidableEq, Repr

structure Granularity where
  name : String
deriving DecidableEq, Repr

structure Spec where
  basis : Basis
  periods : List String
  granularity : Granularity
  fromMonth : String
  toMonth : String
  baseCurrency : String
  taxonomyVersions : List String
  rulesetVersions : List String
  engineVersions : List String
  normalizeVersions : List String
deriving DecidableEq, Repr

structure Figure where
  amount : Money
  percentOfRevenue : Float
  hasPercentOfRevenue : Bool

structure Line where
  code : String
  label : String
  formula : String
  computed : Bool
  byPeriod : List Figure
  total : Figure

structure Reconciliation where
  period : String
  opening : Money
  inflow : Money
  outflow : Money
  transfers : Money
  closing : Money
  transferRowCount : Nat
  derived : Bool
  balances : Bool
deriving DecidableEq, Repr

structure Report where
  spec : Spec
  lines : List Line
  buckets : Bucket → List Money
  totals : Bucket → Money
  reconciliation : List Reconciliation

/-! ## Compute -/

/-- One amount a period: the source's slices of length `len(spec.Periods)`. -/
abbrev Series (n : Nat) := Fin n → Int64

/-- The column of a period. A repeated label keeps its last column, as the source's map does. -/
def columnOf : (periods : List String) → String → Option (Fin periods.length)
  | [], _ => none
  | label :: rest, period => match columnOf rest period with
      | some column => some column.succ
      | none => if label = period then some ⟨0, Nat.zero_lt_succ _⟩ else none

/-- The section totals in stored signs, and the buckets beside them. -/
structure Tally (n : Nat) where
  sums : String → Series n
  buckets : Bucket → Series n

def Tally.zero (n : Nat) : Tally n where
  sums := fun _ _ => 0
  buckets := fun _ _ => 0

def Tally.cell {n : Nat} (tally : Tally n) : LineRef → Series n
  | .sectionLine code => tally.sums code
  | .bucketLine bucket => tally.buckets bucket

def addAt {n : Nat} (series : Series n) (column : Fin n) (amount : Int64) : Series n :=
  fun j => if j = column then series j + amount else series j

def Tally.add {n : Nat} (tally : Tally n) (column : Fin n) (amount : Int64) : LineRef → Tally n
  | .sectionLine code => { tally with
      sums := fun c => if c = code then addAt (tally.sums c) column amount else tally.sums c }
  | .bucketLine bucket => { tally with
      buckets := fun b =>
        if b = bucket then addAt (tally.buckets b) column amount else tally.buckets b }

/-- The switch of `Compute`: the one line or bucket a row lands on, tests in the source's order. -/
def place (spec : Spec) (row : Row) : Except Failure LineRef :=
  if row.sourceKind ≠ spec.basis then .ok (.bucketLine .otherBasis)
  else if row.categoryCode = "" then .ok (.bucketLine .unclassified)
  else if !row.isPNL then .ok (.bucketLine .nonPNL)
  else if row.requiresAllocation then .ok (.bucketLine .unallocated)
  else if row.pnlSection ∈ sections then .ok (.sectionLine row.pnlSection)
  else if row.pnlSection ∈ nonPNLSections then .ok (.bucketLine .nonPNL)
  else .error (.notASection row.categoryCode row.pnlSection)

def addRow (spec : Spec) (tally : Tally spec.periods.length) (row : Row) :
    Except Failure (Tally spec.periods.length) :=
  match columnOf spec.periods row.period with
  | none => .error (.rowNotRequested row.period)
  | some column =>
      if row.amount.currencyCode ≠ spec.baseCurrency then
        .error (.rowInAnotherCurrency row.amount.currencyCode spec.baseCurrency)
      else
        (place spec row).map (tally.add column row.amount.minorUnits)

def addInto {n : Nat} (dst src : Series n) : Series n := fun i => dst i + src i

def sum {n : Nat} (series : Series n) : Int64 := (List.ofFn series).sum

/-- A section's own totals, or an earlier computed line's. -/
def value {n : Nat} (sums computed : String → Series n) (code : String) : Series n :=
  if code ∈ sections then sums code else computed code

def runLine {n : Nat} (sums computed : String → Series n) (line : ComputedLine) :
    String → Series n :=
  let out := (line.plus ++ line.minus).foldl
    (fun out code => addInto out (value sums computed code)) (fun _ => 0)
  fun code => if code = line.code then out else computed code

def computedSeries {n : Nat} (sums : String → Series n) : String → Series n :=
  chain.foldl (runLine sums) (fun _ _ => 0)

/-- NET SALES is money in and already positive; every other section is a cost. -/
def present {n : Nat} (code : String) (series : Series n) : Series n :=
  if code = netSales then series else fun i => -series i

def figure (amount revenue : Int64) (currency : String) : Figure :=
  if revenue ≠ 0 then
    { amount := ⟨currency, amount⟩
      percentOfRevenue := amount.toFloat / revenue.toFloat * 100
      hasPercentOfRevenue := true }
  else
    { amount := ⟨currency, amount⟩, percentOfRevenue := 0, hasPercentOfRevenue := false }

def buildLine {n : Nat} (code label formula : String) (computed : Bool) (series revenue : Series n)
    (spec : Spec) : Line where
  code := code
  label := label
  formula := formula
  computed := computed
  byPeriod := List.ofFn fun i => figure (series i) (revenue i) spec.baseCurrency
  total := figure (sum series) (sum revenue) spec.baseCurrency

def toMoney {n : Nat} (series : Series n) (currency : String) : List Money :=
  List.ofFn fun i => ⟨currency, series i⟩

def sectionLabel (code : String) : String :=
  ([(netSales, "NET SALES"), (cs, "CS"), (ocs, "OCS"), (opex, "OPEX"), (oie, "OIE"), (fr, "FR"),
    (cit, "CIT"), (capex, "CAPEX"), (outOfPNL, "OUT OF P&L")].lookup code).getD ""

def lineOf {n : Nat} (spec : Spec) (tally : Tally n) (code : String) : Line :=
  match chain.find? (·.code = code) with
  | some line =>
      buildLine line.code line.label line.formula true (computedSeries tally.sums line.code)
        (tally.sums netSales) spec
  | none =>
      buildLine code (sectionLabel code) "" false (present code (tally.sums code))
        (tally.sums netSales) spec

def assemble (spec : Spec) (tally : Tally spec.periods.length) : Report where
  spec := spec
  lines := order.map (lineOf spec tally)
  buckets := fun bucket => toMoney (tally.buckets bucket) spec.baseCurrency
  totals := fun bucket => ⟨spec.baseCurrency, sum (tally.buckets bucket)⟩
  reconciliation := []

def compute (rows : List Row) (spec : Spec) : Except Failure Report :=
  if spec.baseCurrency = "" then .error .noBaseCurrency
  else if spec.periods = [] then .error .noPeriods
  else
    (rows.foldlM (addRow spec) (Tally.zero spec.periods.length)).map (assemble spec)

end Vekst.Reports
