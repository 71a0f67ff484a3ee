import Vekst.Proof.Reports.Reconciliation
import Vekst.Web.Report

namespace Vekst.Web
open Proto Reports Calendar Isolation Ledger Wrapping

/-! ## Looking a key up -/

theorem mapGet_of_mem {α : Type} {entries : List (String × α)}
    (distinct : (entries.map (·.1)).Nodup) {key : String} {a : α} (known : (key, a) ∈ entries) :
    mapGet entries key = some a := by
  unfold mapGet
  cases found : entries.reverse.find? (·.1 = key) with
  | none => simpa using List.find?_eq_none.mp found (key, a) (List.mem_reverse.mpr known)
  | some entry =>
      have member := List.mem_reverse.mp (List.mem_of_find?_eq_some found)
      have same : entry.1 = key := by simpa using List.find?_some found
      obtain rfl := List.inj_on_of_nodup_map distinct member known same
      rfl

/-! ## What the handler answers -/

theorem toReportMoney_minorUnits (m : Vekst.Money) :
    (toReportMoney m).minorUnits = m.minorUnits.toInt := rfl

/-- The request a message stands for. -/
structure Asked (msg : GetManagementPNLRequest) (req : Request) : Prop where
  basis : fromProtoBasis msg.basis = .ok req.basis
  granularity : fromProtoGranularity msg.granularity = .ok req.granularity
  entityID : req.entityID = msg.entityID
  fromMonth : req.fromMonth = msg.fromMonth
  toMonth : req.toMonth = msg.toMonth

theorem getManagementPNL_ok {userID : UUID} {msg : GetManagementPNLRequest} {req : Request}
    (asked : Asked msg req) {d : Database} {res : GetManagementPNLResponse}
    (answered : getManagementPNL userID msg d = .ok res) :
    ∃ r, Reports.managementPNL userID req d = .ok r ∧ res.periods = r.spec.periods ∧
      res.lines = r.lines.map toReportLine ∧ res.buckets = bucketOrder.map (toBucketLine r) ∧
      res.reconciliation = r.reconciliation.map toReconciliationLine := by
  have same : req = ⟨msg.entityID, msg.fromMonth, msg.toMonth, req.granularity, req.basis⟩ := by
    rw [← asked.entityID, ← asked.fromMonth, ← asked.toMonth]
  rw [same]
  unfold getManagementPNL at answered
  obtain ⟨basis, known, answered⟩ := bind_ok.mp answered
  obtain rfl := Except.ok.inj (asked.basis.symm.trans known)
  obtain ⟨granularity, known, answered⟩ := bind_ok.mp answered
  obtain rfl := Except.ok.inj (asked.granularity.symm.trans known)
  obtain ⟨r, computed, made⟩ := bind_ok.mp answered
  obtain rfl := Except.ok.inj made
  exact ⟨r, computed, rfl, rfl, rfl, rfl⟩

/-! ## The strip -/

section Strip
variable {d : Database} {req : Request} {first last : Month} {baseCcy : String}
  {periods : List String} {spans : List (Month × Month)} {strip : List Reports.Reconciliation}

@[simp] theorem minorUnits_some (m : Money) : minorUnits (some m) = m.minorUnits := rfl

theorem sum_map_sub {α : Type} (items : List α) (f g : α → ℤ) :
    (items.map fun a => f a - g a).sum = (items.map f).sum - (items.map g).sum := by
  simp only [sub_eq_add_neg, List.sum_map_add, List.sum_neg, List.map_map, Function.comp_def]

theorem foldl_minorUnits (pick : ReconciliationLine → Option Money)
    (lines : List ReconciliationLine) (acc : ℤ) :
    lines.foldl (fun acc l => acc + minorUnits (pick l)) acc =
      acc + (lines.map fun l => minorUnits (pick l)).sum := by
  induction lines generalizing acc with
  | nil => simp
  | cons line lines ih => rw [List.foldl_cons, ih, List.map_cons, List.sum_cons, add_assoc]

/-- From the first opening the movements lead to the last closing. -/
theorem telescopes {lines : List Reports.Reconciliation}
    (exact_ : ∀ line ∈ lines, line.opening.minorUnits.toInt + line.inflow.minorUnits.toInt -
      line.outflow.minorUnits.toInt - line.transfers.minorUnits.toInt =
        line.closing.minorUnits.toInt)
    (chain : lines.IsChain fun line next => line.closing = next.opening)
    {opening closing : Vekst.Money} (starts : lines.head?.map (·.opening) = some opening)
    (ends : lines.getLast?.map (·.closing) = some closing) :
    opening.minorUnits.toInt + (lines.map (·.inflow.minorUnits.toInt)).sum -
        (lines.map (·.outflow.minorUnits.toInt)).sum -
        (lines.map (·.transfers.minorUnits.toInt)).sum = closing.minorUnits.toInt := by
  induction lines generalizing opening with
  | nil => cases starts
  | cons line rest ih =>
      obtain rfl : line.opening = opening := Option.some.inj starts
      have own := exact_ line List.mem_cons_self
      cases rest with
      | nil =>
          obtain rfl : line.closing = closing := Option.some.inj ends
          simpa using own
      | cons next others =>
          obtain ⟨seam, later⟩ := List.isChain_cons_cons.mp chain
          rw [List.getLast?_cons_cons] at ends
          have tail := ih (fun other member => exact_ other (List.mem_cons_of_mem _ member)) later
            rfl ends
          rw [seam] at own
          simp only [List.map_cons, List.sum_cons] at tail ⊢
          omega

theorem aggregateReconciliation_ends {lines : List ReconciliationLine} {opening : Money}
    (starts : lines.head?.bind (·.opening) = some opening) :
    (aggregateReconciliation lines).opening = opening ∧
      (aggregateReconciliation lines).closing =
        ⟨opening.minorUnits + (lines.map fun l => minorUnits l.inflow).sum -
          (lines.map fun l => minorUnits l.outflow).sum -
          (lines.map fun l => minorUnits l.transfers).sum, opening.currencyCode⟩ := by
  cases lines with
  | nil => cases starts
  | cons line rest =>
      have own : line.opening = some opening := starts
      simp only [aggregateReconciliation, own, minorUnits_some, foldl_minorUnits, zero_add,
        Option.map_some, Option.getD_some, and_self]

/-- The strip starts at the first opening and, over every period, ends at the last closing. -/
theorem aggregate_strip (answered : Answered d req first last baseCcy periods spans strip) :
    ∃ opening closing, strip.head?.map (·.opening) = some opening ∧
      strip.getLast?.map (·.closing) = some closing ∧
      (aggregateReconciliation (strip.map toReconciliationLine)).opening = toReportMoney opening ∧
      (aggregateReconciliation (strip.map toReconciliationLine)).closing = toReportMoney closing := by
  obtain ⟨chain, head, final⟩ := @seams_strip d req baseCcy _ _ _ answered.tiles _ answered.columns
  rw [← answered.strip] at chain head final
  have some_ : strip ≠ [] := by
    rw [answered.strip, ne_eq, List.zipWith_eq_nil_iff]
    rintro (none_ | none_)
    · exact answered.some_ (List.eq_nil_of_length_eq_zero (by rw [← answered.columns, none_]; rfl))
    · exact answered.some_ none_
  have exact_ : ∀ line ∈ strip, line.opening.minorUnits.toInt + line.inflow.minorUnits.toInt -
      line.outflow.minorUnits.toInt - line.transfers.minorUnits.toInt =
        line.closing.minorUnits.toInt := by
    intro line member
    rw [answered.strip] at member
    obtain ⟨i, known, rfl⟩ := List.mem_iff_getElem.mp member
    rw [List.getElem_zipWith]
    rw [List.length_zipWith, lt_min_iff] at known
    have inside := List.getElem_mem known.2
    exact exact_stripLine (answered.tiles.within inside).2.1 (answered.fits _ inside) baseCcy _
  have opening := head _ (List.head?_eq_some_head some_)
  have closing := final _ (List.getLast?_eq_some_getLast some_)
  have starts : strip.head?.map (·.opening) =
      some ⟨baseCcy, Int64.ofInt (balanceBefore d req first.firstDay)⟩ := by
    rw [List.head?_eq_some_head some_, Option.map_some, opening]
  have ends : strip.getLast?.map (·.closing) =
      some ⟨baseCcy, Int64.ofInt (balanceBefore d req last.next.firstDay)⟩ := by
    rw [List.getLast?_eq_some_getLast some_, Option.map_some, closing]
  have total := telescopes exact_ chain starts ends
  have wire : (strip.map toReconciliationLine).head?.bind (·.opening) =
      some (toReportMoney ⟨baseCcy, Int64.ofInt (balanceBefore d req first.firstDay)⟩) := by
    cases strip with
    | nil => cases starts
    | cons line rest => exact congrArg (Option.map toReportMoney) starts
  obtain ⟨first_, last_⟩ := aggregateReconciliation_ends wire
  refine ⟨_, _, starts, ends, first_, last_.trans ?_⟩
  simp only [List.map_map, Function.comp_def, toReconciliationLine, minorUnits_some,
    toReportMoney_minorUnits, total]
  rfl

theorem periods_strip (answered : Answered d req first last baseCcy periods spans strip) :
    strip.map (·.period) = periods := by
  have columns := answered.columns
  rw [answered.strip]
  apply List.ext_getElem
  · simp [columns]
  · simp [stripLine]

end Strip

/-! ## Cash by period -/

theorem cashByPeriod_eq {lines : List ReconciliationLine}
    (distinct : (lines.map (·.period)).Nodup) (currency : String) :
    cashByPeriod (lines.map (·.period)) lines currency = lines.map fun l =>
      ⟨l.period, ⟨minorUnits l.inflow, currency⟩, ⟨-minorUnits l.outflow, currency⟩,
        ⟨minorUnits l.inflow + -minorUnits l.outflow, currency⟩⟩ := by
  rw [cashByPeriod, List.map_map]
  apply List.map_congr_left
  intro l known
  have keys : ((lines.map fun l => (l.period, l)).map (·.1)).Nodup := by
    rw [List.map_map]
    exact distinct
  have found := mapGet_of_mem keys (List.mem_map.mpr ⟨l, known, rfl⟩)
  simp only [Function.comp_apply, found, Option.bind_some]

/-- Month by month the nets add up to all that came in less all that went out. -/
theorem sum_cash {lines : List ReconciliationLine} (distinct : (lines.map (·.period)).Nodup)
    (currency : String) :
    ((cashByPeriod (lines.map (·.period)) lines currency).map (·.net.minorUnits)).sum =
      (lines.map fun l => minorUnits l.inflow).sum -
        (lines.map fun l => minorUnits l.outflow).sum := by
  rw [cashByPeriod_eq distinct, List.map_map, ← sum_map_sub]
  rfl

/-! ## Expenses -/

section Expenses
variable (d : Database) (req : Request) (args : Args)

/-- What the transactions of some sections add up to in a column, in the sign the ledger stores. -/
def columnSum (codes : List String) (period : String) : ℤ :=
  (codes.map fun code => exactSum (sectionRows d req args period code)).sum

/-- What they add up to over the periods. -/
def rangeSum (codes periods : List String) : ℤ :=
  (periods.map (columnSum d req args codes)).sum

/-- The cost sections above CM. -/
def expenseSections : List String := [cs, ocs, opex, oie]

def marginSections : List String := Reports.netSales :: expenseSections

theorem rangeSum_margin (periods : List String) :
    rangeSum d req args marginSections periods =
      rangeSum d req args [Reports.netSales] periods + rangeSum d req args expenseSections periods := by
  rw [rangeSum, rangeSum, rangeSum, ← List.sum_map_add]
  congr 1
  apply List.map_congr_left
  intro period _
  simp [columnSum, marginSections]

variable {d req args}

theorem lineFromProto_buildLine {n : Nat} (code label formula : String) (computed : Bool)
    (series revenue : Series n) (spec : Spec) :
    (lineFromProto (toReportLine
        (buildLine code label formula computed series revenue spec))).total =
      ⟨(sum series).toInt, spec.baseCurrency⟩ ∧
    (lineFromProto (toReportLine
        (buildLine code label formula computed series revenue spec))).values =
      List.ofFn fun i => ⟨(series i).toInt, spec.baseCurrency⟩ := by
  refine ⟨?_, ?_⟩
  · simp [lineFromProto, toReportLine, buildLine, figureMoney, toFigure, toReportMoney, money]
  · simp [lineFromProto, toReportLine, buildLine, figureMoney, toFigure, toReportMoney, money,
      Function.comp_def]

/-- A line of the table, under the code the client looks it up by. -/
theorem mapGet_line {n : Nat} (spec : Spec) (tally : Tally n) {code : String}
    (printed : code ∈ order) :
    mapGet ((((order.map (lineOf spec tally)).map toReportLine).map lineFromProto).map
      fun l => (l.categoryID, l)) code =
        some (lineFromProto (toReportLine (lineOf spec tally code))) := by
  have coded : ∀ code, (lineFromProto (toReportLine (lineOf spec tally code))).categoryID = code :=
    fun code => lineOf_code spec tally code
  apply mapGet_of_mem
  · have keys : order.Nodup := by decide
    simpa [Function.comp_def, coded] using keys
  · simp only [List.map_map, List.mem_map, Function.comp_apply]
    exact ⟨code, printed, by rw [coded]⟩

/-- The client's expenses are what the series of NET SALES and of CM leave. -/
theorem expenses_eq (basis : Basis) (spec : Spec) (tally : Tally spec.periods.length)
    (buckets : List ReportBucketLine) (strip : List ReconciliationLine)
    (versions : Option ReportVersions) :
    (reportFromProto basis spec.periods ((order.map (lineOf spec tally)).map toReportLine) buckets
        strip versions).expensesTotal.minorUnits =
      (sum (tally.sums Reports.netSales)).toInt -
        (sum (computedSeries tally.sums Reports.cm)).toInt ∧
    (reportFromProto basis spec.periods ((order.map (lineOf spec tally)).map toReportLine) buckets
        strip versions).expensesByPeriod.map (·.minorUnits) =
      List.ofFn fun i => (tally.sums Reports.netSales i).toInt -
        (computedSeries tally.sums Reports.cm i).toInt := by
  have revenue := @mapGet_line spec.periods.length spec tally netSales (by decide)
  have margin := @mapGet_line spec.periods.length spec tally cm (by decide)
  have revenueLine := lineOf_section spec tally (show Reports.netSales ∈ sections by decide)
  have marginLine := lineOf_computed spec tally
    (show (⟨Reports.cm, "CM", "NM - OPEX - OIE", [nm], [opex, oie]⟩ : ComputedLine) ∈ chain by decide)
  rw [show lineOf spec tally netSales = _ from revenueLine] at revenue
  rw [show lineOf spec tally cm = _ from marginLine] at margin
  have kept : present Reports.netSales (tally.sums Reports.netSales) =
      tally.sums Reports.netSales := if_pos rfl
  rw [kept] at revenue
  refine ⟨?_, ?_⟩
  · simp only [reportFromProto, revenue, margin, Option.map_some, Option.getD_some, subMinorUnits,
      lineFromProto_buildLine]
  · simp only [reportFromProto, revenue, margin, Option.bind_some, subMinorUnits,
      lineFromProto_buildLine]
    apply List.ext_getElem
    · simp
    · intro i known known'
      have inside : i < spec.periods.length := by simpa using known
      simp [inside]

/-- The series of NET SALES and of CM, in words: the exact sums of their columns. -/
theorem series_eq {spec : Spec} (distinct : spec.periods.Nodup) (basis : spec.basis = req.basis)
    {lines totals others : List Row} (rows : RowsOf d req args lines totals others)
    {tally : Tally spec.periods.length}
    (folded : (lines ++ totals ++ others).foldlM (addRow spec) (Tally.zero spec.periods.length) =
      .ok tally) (i : Fin spec.periods.length) :
    tally.sums Reports.netSales i =
      Int64.ofInt (columnSum d req args [Reports.netSales] (spec.periods.get i)) ∧
    computedSeries tally.sums Reports.cm i =
      Int64.ofInt (columnSum d req args marginSections (spec.periods.get i)) := by
  have cell : ∀ code, tally.sums code i =
      Int64.ofInt (exactSum (sectionRows d req args (spec.periods.get i) code)) := fun code => by
    rw [← exactCell_eq_sectionRows basis rows]
    exact cell_eq_exact distinct folded (.sectionLine code) i
  refine ⟨?_, ?_⟩
  · simp [columnSum, cell]
  · have above : sectionsBefore Reports.cm = marginSections := by decide
    have margin := computedSeries_eq tally.sums
      (show (⟨Reports.cm, "CM", "NM - OPEX - OIE", [nm], [opex, oie]⟩ : ComputedLine) ∈ chain by
        decide) i
    rw [margin, above, columnSum, ofInt_sum, List.map_map]
    congr 1
    exact List.map_congr_left fun code _ => cell code

/-- A total of wrapped columns is the wrapped total. -/
theorem sum_columns {periods : List String} {series : Series periods.length} {f : String → ℤ}
    (columns : ∀ i, series i = Int64.ofInt (f (periods.get i))) :
    sum series = Int64.ofInt (periods.map f).sum := by
  rw [sum, show series = fun i => Int64.ofInt (f (periods.get i)) from funext columns,
    ofInt_sum, List.map_map]
  exact congrArg List.sum (List.ofFn_getElem_eq_map periods fun period => Int64.ofInt (f period))

variable (d req args) in
/-- The int64 words lose as much of NET SALES as they lose of CM: over the range, and added up over
the columns. -/
structure LosesAlike (periods : List String) : Prop where
  range : lost (rangeSum d req args [Reports.netSales] periods) =
    lost (rangeSum d req args marginSections periods)
  columns : (periods.map fun p => lost (columnSum d req args [Reports.netSales] p)).sum =
    (periods.map fun p => lost (columnSum d req args marginSections p)).sum

/-- Nothing is lost where every column and every total fits. -/
theorem losesAlike_of_fits {periods : List String}
    (columns : ∀ p ∈ periods, Fits (columnSum d req args [Reports.netSales] p) ∧
      Fits (columnSum d req args marginSections p))
    (revenue : Fits (rangeSum d req args [Reports.netSales] periods))
    (margin : Fits (rangeSum d req args marginSections periods)) :
    LosesAlike d req args periods := by
  refine ⟨by rw [lost_of_fits revenue, lost_of_fits margin], congrArg List.sum ?_⟩
  apply List.map_congr_left
  intro p member
  rw [lost_of_fits (columns p member).1, lost_of_fits (columns p member).2]

/-- The client's expenses add up, over the columns and over the sections, exactly where the words
lose the same of both lines. -/
theorem expenses_iff {periods : List String} {revenue margin : Series periods.length}
    (revenueColumns : ∀ i, revenue i =
      Int64.ofInt (columnSum d req args [Reports.netSales] (periods.get i)))
    (marginColumns : ∀ i, margin i =
      Int64.ofInt (columnSum d req args marginSections (periods.get i))) :
    ((sum revenue).toInt - (sum margin).toInt =
        (List.ofFn fun i => (revenue i).toInt - (margin i).toInt).sum ∧
      (sum revenue).toInt - (sum margin).toInt = -rangeSum d req args expenseSections periods) ↔
    LosesAlike d req args periods := by
  have revenueTotal : (sum revenue).toInt = rangeSum d req args [Reports.netSales] periods -
      lost (rangeSum d req args [Reports.netSales] periods) := by
    rw [sum_columns revenueColumns, toInt_ofInt_eq]
    rfl
  have marginTotal : (sum margin).toInt = rangeSum d req args marginSections periods -
      lost (rangeSum d req args marginSections periods) := by
    rw [sum_columns marginColumns, toInt_ofInt_eq]
    rfl
  have columns : (List.ofFn fun i => (revenue i).toInt - (margin i).toInt).sum =
      rangeSum d req args [Reports.netSales] periods -
        (periods.map fun p => lost (columnSum d req args [Reports.netSales] p)).sum -
        (rangeSum d req args marginSections periods -
          (periods.map fun p => lost (columnSum d req args marginSections p)).sum) := by
    simp only [revenueColumns, marginColumns, toInt_ofInt_eq]
    have listed := List.ofFn_getElem_eq_map periods fun p =>
      columnSum d req args [Reports.netSales] p - lost (columnSum d req args [Reports.netSales] p) -
        (columnSum d req args marginSections p - lost (columnSum d req args marginSections p))
    rw [rangeSum, rangeSum, ← sum_map_sub, ← sum_map_sub, ← sum_map_sub, ← listed]
    rfl
  have sections := rangeSum_margin d req args periods
  rw [revenueTotal, marginTotal, columns]
  constructor
  · rintro ⟨byPeriod, bySection⟩
    exact ⟨by omega, by omega⟩
  · rintro ⟨range, byColumn⟩
    exact ⟨by omega, by omega⟩

end Expenses

/-! ## The client's report restates the server's -/

def shownReport (res : GetManagementPNLResponse) : Report :=
  reportFromProto (basisFromProto res.basis) res.periods res.lines res.buckets res.reconciliation
    res.versions

/-- The strip, the cash by period and the expenses say what the answer and the ledger say. -/
structure Restates (d : Database) (req : Request) (args : Args) (res : GetManagementPNLResponse) :
    Prop where
  strip : ∃ first last, res.reconciliation.head? = some first ∧
    res.reconciliation.getLast? = some last ∧
    first.opening = some (shownReport res).reconciliation.opening ∧
    last.closing = some (shownReport res).reconciliation.closing
  cash : ((shownReport res).cash.map (·.net.minorUnits)).sum =
    (res.reconciliation.map fun l => minorUnits l.inflow).sum -
      (res.reconciliation.map fun l => minorUnits l.outflow).sum
  byPeriod : (shownReport res).expensesTotal.minorUnits =
    ((shownReport res).expensesByPeriod.map (·.minorUnits)).sum
  bySection : (shownReport res).expensesTotal.minorUnits =
    -rangeSum d req args expenseSections res.periods

/-- The strip and the cash restate every answer to a request for months; the expenses do exactly
where no more of NET SALES is lost to int64 than of CM. -/
theorem client_restates_iff {d : Database} (keys : PairKeys d) {userID : UUID}
    {msg : GetManagementPNLRequest} {req : Request} (asked : Asked msg req) {first last : Month}
    (months : req.Months first last) {prep : Prepared} (prepared : prepare req = .ok prep)
    {res : GetManagementPNLResponse} (answered : getManagementPNL userID msg d = .ok res) :
    Restates d req (prep.args req) res ↔ LosesAlike d req (prep.args req) res.periods := by
  obtain ⟨r, computed, periods, lines, -, strips⟩ := getManagementPNL_ok asked answered
  obtain ⟨prep', read, after, inner, prepared', -, body, succeeded, rfl⟩ :=
    managementPNL_read computed
  obtain rfl := Except.ok.inj (prepared'.symm.trans prepared)
  obtain ⟨classified, unclassified, other, rows, parts, basis, columns, -, reconciled⟩ :=
    readReport_ok body
  obtain ⟨spans, strip⟩ := answered_of_run keys prepared months.fromText months.toText
    months.firstFits months.lastFits reconciled
  obtain ⟨-, -, tally, folded, rfl⟩ := compute_ok_iff.mp succeeded
  rw [parts] at folded
  have distinct : read.spec.periods.Nodup := by
    rw [columns]
    exact nodup_periods (prepare_ok prepared).2.2
  have series := series_eq distinct basis rows folded
  have expenses := expenses_iff (fun i => (series i).1) fun i => (series i).2
  obtain ⟨total, byColumn⟩ := expenses_eq (basisFromProto res.basis) read.spec tally res.buckets
    res.reconciliation res.versions
  have shown : shownReport res = reportFromProto (basisFromProto res.basis) read.spec.periods
      ((order.map (lineOf read.spec tally)).map toReportLine) res.buckets res.reconciliation
      res.versions := by
    rw [shownReport, periods, lines]
    rfl
  rw [← shown] at total byColumn
  have periods' : res.periods = read.spec.periods := periods
  rw [← total, ← byColumn, ← periods'] at expenses
  refine ⟨fun restates => expenses.mp ⟨restates.byPeriod, restates.bySection⟩, fun alike => ?_⟩
  obtain ⟨byPeriod, bySection⟩ := expenses.mpr alike
  refine ⟨?_, ?_, byPeriod, bySection⟩
  · obtain ⟨opening, closing, starts, ends, opens, closes⟩ := aggregate_strip strip
    have shownStrip : (shownReport res).reconciliation =
        aggregateReconciliation (read.strip.map toReconciliationLine) := by
      rw [shown, ← strips]
      rfl
    obtain ⟨firstLine, head, rfl⟩ := Option.map_eq_some_iff.mp starts
    obtain ⟨lastLine, final, rfl⟩ := Option.map_eq_some_iff.mp ends
    refine ⟨toReconciliationLine firstLine, toReconciliationLine lastLine, ?_, ?_, ?_, ?_⟩
    · rw [strips, List.head?_map, head, Option.map_some]
    · rw [strips, List.getLast?_map, final, Option.map_some]
    · rw [shownStrip, opens]
      rfl
    · rw [shownStrip, closes]
      rfl
  · have listed : res.reconciliation.map (·.period) = res.periods := by
      rw [strips, periods', columns, ← periods_strip strip, List.map_map]
      rfl
    have nodup : (res.reconciliation.map (·.period)).Nodup := by
      rw [listed, periods']
      exact distinct
    have cash := sum_cash nodup (shownReport res).currencyCode
    rw [listed] at cash
    exact cash

/-! ## Two sales that no word holds together -/

def sampleMessage : GetManagementPNLRequest where
  entityID := 1
  fromMonth := "2026-01"
  toMonth := "2026-02"
  granularity := .month
  basis := .bank

theorem asked_sampleMessage : Asked sampleMessage monthlyRequest := ⟨rfl, rfl, rfl, rfl, rfl⟩

theorem monthlyRequest_months : monthlyRequest.Months january february :=
  ⟨by decide +kernel, by decide +kernel, ⟨by decide, by decide⟩, ⟨by decide, by decide⟩⟩

def monthlyPrepared : Prepared := ⟨january.firstDay, february.lastDay, ["2026-01", "2026-02"]⟩

theorem prepare_monthlyRequest : prepare monthlyRequest = .ok monthlyPrepared := by decide +kernel

/-- A sale and a cost in each of two months, all four of one size. -/
def balancedDatabase (amount : Int64) : Database :=
  { Database.empty "BYN" with
    members := [⟨7, .viewer⟩]
    transactions := [
      sampleTransaction 1 .bank january.firstDay amount,
      sampleTransaction 2 .bank january.lastDay (-amount),
      sampleTransaction 3 .bank february.firstDay amount,
      sampleTransaction 4 .bank february.lastDay (-amount)]
    categories := [sampleCategory 1 "0101" Reports.netSales, sampleCategory 2 "0201" cs]
    classifications := [sampleClassification 1 1 1, sampleClassification 2 2 2,
      sampleClassification 3 3 1, sampleClassification 4 4 2] }

theorem client_restates_sample :
    ∃ res, getManagementPNL 7 sampleMessage movedDatabase = .ok res ∧
      res.periods = ["2026-01", "2026-02"] ∧
      Restates movedDatabase monthlyRequest (monthlyPrepared.args monthlyRequest) res := by
  have keys : PairKeys movedDatabase := ⟨by decide, by decide⟩
  have computed : (getManagementPNL 7 sampleMessage movedDatabase).map (·.periods) =
      .ok ["2026-01", "2026-02"] := by decide +kernel
  obtain ⟨res, answered, periods⟩ := map_ok.mp computed
  refine ⟨res, answered, periods, (client_restates_iff keys asked_sampleMessage
    monthlyRequest_months prepare_monthlyRequest answered).mpr ?_⟩
  rw [periods]
  exact ⟨by decide +kernel, by decide +kernel⟩

/-- With 2^62 of sales in each of two months NET SALES wraps to a negative total: the expenses of
the range have another sign than those of its months. -/
theorem expenses_do_not_add_up :
    ∃ res, getManagementPNL 7 sampleMessage (balancedDatabase 4611686018427387904) = .ok res ∧
      (∀ line ∈ res.reconciliation, line.balances = true) ∧
      res.reconciliation.IsChain (fun line next => line.closing = next.opening) ∧
      (shownReport res).expensesTotal.minorUnits = -9223372036854775808 ∧
      (shownReport res).expensesByPeriod.map (·.minorUnits) =
        [4611686018427387904, 4611686018427387904] := by
  have computed : (getManagementPNL 7 sampleMessage (balancedDatabase 4611686018427387904)).map
      (fun res => (decide (∀ line ∈ res.reconciliation, line.balances = true),
        decide (res.reconciliation.IsChain fun line next => line.closing = next.opening),
        (shownReport res).expensesTotal.minorUnits,
        (shownReport res).expensesByPeriod.map (·.minorUnits))) =
      .ok (true, true, -9223372036854775808, [4611686018427387904, 4611686018427387904]) := by
    decide +kernel
  obtain ⟨res, answered, facts⟩ := map_ok.mp computed
  simp only [Prod.mk.injEq, decide_eq_true_eq] at facts
  exact ⟨res, answered, facts⟩

end Vekst.Web
