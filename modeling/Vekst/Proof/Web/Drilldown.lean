import Vekst.Proof.Reports.Paging
import Vekst.Proof.Web.Report

namespace Vekst.Web
open Proto Relational Reports Isolation Ledger Wrapping

/-! ## The cells of a report -/

/-- A figure of a section or of a bucket, in one period of the report. -/
def Report.Opens (report : Report) (period categoryID : String) : Prop :=
  period ∈ report.periods ∧
    ((∃ line ∈ report.lines, line.categoryID = categoryID ∧ line.computed = false) ∨
      ∃ bucket ∈ report.buckets, bucket.kind = categoryID)

/-- The rows the cell selects: those its figure was summed from. -/
def selectedRows (session : Session) (params : DrilldownParams) (d : Database) :
    Except Failure (List CellRow) := do
  let kind ← deriveBasis session d
  let basis ← (fromProtoBasis kind).mapError .refused
  let line ← (parseLineRef params.categoryID).mapError fun e => .refused (.report e)
  let sel ← (selectionFor ⟨session.entityID, params.fromMonth, params.toMonth, .monthly, basis⟩
    params.period line).mapError fun e => .refused (.report e)
  return onLine d sel.args sel.line.string

/-- A line that receives transactions, under the text the client sends for it. -/
structure Own (categoryID : String) (line : LineRef) : Prop where
  parsed : parseLineRef categoryID = .ok line
  own : computedCode line = none

theorem own_section {code : String} (known : code ∈ sections) : Own code (.sectionLine code) := by
  have each : ∀ code ∈ sections, parseLineRef code = .ok (.sectionLine code) ∧
      computedCode (.sectionLine code) = none := by decide
  exact ⟨(each code known).1, (each code known).2⟩

theorem own_bucket (bucket : Bucket) : Own bucket.name (.bucketLine bucket) := by
  cases bucket <;> exact ⟨by decide, rfl⟩

theorem computed_lineOf {n : Nat} (spec : Spec) (tally : Tally n) {code : String}
    (printed : code ∈ order) (receives : (lineOf spec tally code).computed = false) :
    code ∈ sections := by
  have split_ : ∀ code ∈ order, code ∈ sections ∨ ∃ line ∈ chain, line.code = code := by decide
  rcases split_ code printed with known | ⟨line, known, rfl⟩
  · exact known
  · rw [lineOf_computed spec tally known] at receives
    cases receives

theorem kind_toBucketLine (r : Reports.Report) (bucket : Bucket) :
    (bucketFromProto (toBucketLine r bucket)).map (·.kind) = some bucket.name := by
  cases bucket <;> rfl

/-- Whatever figure of the report is opened, its line receives transactions. -/
theorem own_of_opens {spec : Spec} {tally : Tally spec.periods.length} {r : Reports.Report}
    {res : GetManagementPNLResponse}
    (lines : res.lines = (order.map (lineOf spec tally)).map toReportLine)
    (buckets : res.buckets = bucketOrder.map (toBucketLine r)) {period categoryID : String}
    (cell : (shownReport res).Opens period categoryID) : ∃ line, Own categoryID line := by
  rcases cell.2 with ⟨line, member, same, receives⟩ | ⟨bucket, member, same⟩
  · have printed : line ∈ res.lines.map lineFromProto := member
    rw [lines, List.map_map, List.map_map] at printed
    obtain ⟨code, known, rfl⟩ := List.mem_map.mp printed
    obtain rfl : code = categoryID := (lineOf_code spec tally code).symm.trans same
    exact ⟨_, own_section (computed_lineOf spec tally known receives)⟩
  · have printed : bucket ∈ res.buckets.filterMap bucketFromProto := member
    rw [buckets] at printed
    obtain ⟨wire, known, made⟩ := List.mem_filterMap.mp printed
    obtain ⟨own, -, rfl⟩ := List.mem_map.mp known
    have named := kind_toBucketLine r own
    rw [made] at named
    obtain rfl : categoryID = own.name := same.symm.trans (Option.some.inj named)
    exact ⟨_, own_bucket own⟩

theorem map_bind_eq {ε α β γ : Type} (x : Except ε α) (f : α → Except ε β) (g : β → γ) :
    (x >>= f).map g = x >>= fun a => (f a).map g := by
  cases x <;> rfl

/-- The line of a selection is carried through: the dates come of the period alone. -/
theorem selectionFor_own (req : Request) (period : String) {line : LineRef}
    (own : computedCode line = none) :
    selectionFor req period line = (selectionFor req period (.bucketLine .unclassified)).map fun sel =>
      { sel with line } := by
  have receives : ∀ code, line = .sectionLine code → operands code = [] := by
    rintro code rfl
    by_contra some_
    simp [computedCode, some_] at own
  cases line with
  | bucketLine bucket =>
      simp only [selectionFor, map_bind_eq]
      congr 1
      funext months
      split_ifs <;> first | rfl | (rw [map_bind_eq]; rfl)
  | sectionLine code =>
      simp only [selectionFor, receives code rfl, ne_eq, not_true_eq_false, if_false, map_bind_eq]
      congr 1
      funext months
      split_ifs <;> first | rfl | (rw [map_bind_eq]; rfl)

theorem selectionFor_line {req : Request} {period : String} {a b : LineRef} {sel : Selection}
    (ownA : computedCode a = none) (ownB : computedCode b = none)
    (selected : selectionFor req period a = .ok sel) :
    selectionFor req period b = .ok { sel with line := b } := by
  rw [selectionFor_own req period ownA] at selected
  obtain ⟨shared, same, rfl⟩ := map_ok.mp selected
  rw [selectionFor_own req period ownB, same]
  rfl

/-- The strip selects the dates of every period. -/
theorem selected_of_run {req : Request} {periods : List String} {baseCcy : String}
    {d after : Database} {strip : List Reports.Reconciliation}
    (run : (reconciliation req periods baseCcy).run Database.apply d = .ok (strip, after))
    {period : String} (known : period ∈ periods) :
    ∃ sel, selectionFor req period (.sectionLine Reports.netSales) = .ok sel := by
  have some_ : periods ≠ [] := List.ne_nil_of_mem known
  rw [reconciliation, if_neg some_] at run
  obtain ⟨selections, _, chosen, -⟩ := (Prog.run_bind_ok _).mp run
  obtain ⟨listed, -⟩ := (Prog.run_ofExcept_ok _).mp chosen
  obtain ⟨sel, -, selected⟩ := exists_of_mapM (mapError_ok.mp listed) known
  exact ⟨sel, selected⟩

theorem getReport_ok {session : Session} {fromMonth toMonth : String} {d : Database}
    {report : Report} (opened : getReport session fromMonth toMonth d = .ok report) :
    ∃ kind basis res, deriveBasis session d = .ok kind ∧ fromProtoBasis kind = .ok basis ∧
      getManagementPNL session.userID ⟨session.entityID, fromMonth, toMonth, .month, kind⟩ d =
        .ok res ∧ report = shownReport res := by
  obtain ⟨kind, derived, opened⟩ := bind_ok.mp opened
  obtain ⟨res, answered, made⟩ := bind_ok.mp opened
  obtain rfl := Except.ok.inj made
  obtain ⟨basis, known, -⟩ := bind_ok.mp (mapError_ok.mp answered)
  exact ⟨kind, basis, res, derived, known, mapError_ok.mp answered, rfl⟩

/-- A cell of the report, as the service is asked for it. -/
structure Cells (session : Session) (params : DrilldownParams) (d : Database) (kind : ReportBasis)
    (req : Request) (line : LineRef) (sel : Selection) : Prop where
  derived : deriveBasis session d = .ok kind
  basis : fromProtoBasis kind = .ok req.basis
  request : req = ⟨session.entityID, params.fromMonth, params.toMonth, .monthly, req.basis⟩
  own : Own params.categoryID line
  cell : Cell req params.period line sel
  belongs : d.members.any (·.userID = session.userID)

theorem cell_of_opens {session : Session} {params : DrilldownParams} {d : Database}
    {report : Report} (opened : getReport session params.fromMonth params.toMonth d = .ok report)
    (cell : report.Opens params.period params.categoryID) :
    ∃ kind req line sel, Cells session params d kind req line sel := by
  obtain ⟨kind, basis, res, derived, known, answered, rfl⟩ := getReport_ok opened
  have asked : Asked ⟨session.entityID, params.fromMonth, params.toMonth, .month, kind⟩
      ⟨session.entityID, params.fromMonth, params.toMonth, .monthly, basis⟩ :=
    ⟨known, rfl, rfl, rfl, rfl⟩
  obtain ⟨r, computed, periods, lines, buckets, -⟩ := getManagementPNL_ok asked answered
  obtain ⟨prep, read, after, inner, prepared, belongs, body, succeeded, rfl⟩ :=
    managementPNL_read computed
  obtain ⟨-, -, -, -, -, -, columns, -, reconciled⟩ := readReport_ok body
  obtain ⟨-, -, tally, -, rfl⟩ := compute_ok_iff.mp succeeded
  obtain ⟨-, admitted, listed⟩ := prepare_ok prepared
  have inside : params.period ∈ prep.periods := by
    have member : params.period ∈ res.periods := cell.1
    rw [periods] at member
    exact columns ▸ member
  obtain ⟨line, own⟩ := own_of_opens lines buckets cell
  obtain ⟨sel, selected⟩ := selected_of_run reconciled inside
  exact ⟨kind, _, line, _, derived, known, rfl, own,
    ⟨admitted, ⟨prep.periods, listed, inside⟩, own.own,
      selectionFor_line (by decide) own.own selected⟩, belongs⟩

/-! ## What the panel shows -/

section
variable {session : Session} {params : DrilldownParams} {d : Database} {kind : ReportBasis}
  {req : Request} {line : LineRef} {sel : Selection}

theorem Cells.selectedRows_eq (cells : Cells session params d kind req line sel) :
    selectedRows session params d = .ok (onLine d sel.args sel.line.string) := by
  have selected := cells.cell.selected
  rw [cells.request] at selected
  simp only [selectedRows, cells.derived, cells.basis, cells.own.parsed, selected, Except.mapError,
    bind, Except.bind, pure, Except.pure]

def rowOf (row : CellRow) : DrilldownRow := rowFromProto (toDrillTransaction (drillRow row))

/-- The one page the client asks for, as the service answers it. -/
theorem Cells.service_eq (cells : Cells session params d kind req line sel) :
    Service.lineTransactions session.userID req params.period line .zero 500 d =
      (lineTotal d sel.args sel.line.string).map fun total => {
        line := sel.line
        period := params.period
        kind := .transactions
        rows := ((orderedRows d sel.args sel.line.string).take 500).map drillRow
        operands := []
        rowCount := total.rowCount
        total := ⟨d.baseCurrency, total.amountMinor⟩
        nextCursor := nextCursor ((orderedRows d sel.args sel.line.string).take 501) 500 } := by
  rw [cells.cell.lineTransactions_eq cells.belongs]
  cases totalled : lineTotal d sel.args sel.line.string with
  | error e => simp [readCell, Prog.run_bind, Prog.run_query, totalled, Except.map, Except.bind]
  | ok total =>
      have limit : pageLimit 500 = 500 := by decide
      have start : Cursor.zero.position = none := rfl
      rw [run_readCell totalled, limit, start, lineTransactions_start, List.take_take]
      rfl

theorem Cells.getDrilldown_eq (cells : Cells session params d kind req line sel) {report : Report}
    (opened : getReport session params.fromMonth params.toMonth d = .ok report)
    (parseUUID : String → Option UUID) :
    getDrilldown parseUUID session params d =
      ((lineTotal d sel.args sel.line.string).mapError .refused).map fun total => {
        categoryID := params.categoryID
        categoryLabel := ((report.lines.find? (·.categoryID = params.categoryID)).map
          (·.label)).getD params.categoryID
        period := params.period
        amount := ⟨total.amountMinor.toInt, d.baseCurrency⟩
        kind := .transactions
        rows := ((orderedRows d sel.args sel.line.string).take 500).map rowOf
        operands := []
        provenance := report.provenance } := by
  have served := cells.service_eq
  rw [cells.request] at served
  have start : parseCursor parseUUID "" = .ok .zero := rfl
  have granularity : fromProtoGranularity .month = .ok .monthly := rfl
  simp only [getDrilldown, cells.derived, opened, listLineTransactions, cells.basis, granularity,
    cells.own.parsed, start, served, Except.mapError, bind, Except.bind]
  cases lineTotal d sel.args sel.line.string with
  | error e => rfl
  | ok total =>
      simp only [Except.map, pure, Except.pure, List.map_map, List.map_nil, Function.comp_def]
      rfl

end

/-- What the constraints on a conversion promise: an amount and its currency come together, and
convert from another currency into the organisation's. -/
structure Conversions (d : Database) : Prop where
  complete : ∀ t ∈ d.transactions, t.baseAmountMinor.isSome → t.baseCurrency.isSome
  other : ∀ t ∈ d.transactions, t.baseCurrency ≠ some t.currency
  own : ∀ t ∈ d.transactions, ∀ currency, t.baseCurrency = some currency →
    currency = d.baseCurrency

theorem Conversions.plain {d : Database} (conversions : Conversions d) {t : TransactionRow}
    (stored : t ∈ d.transactions) (base : t.currency = d.baseCurrency) :
    t.amount = t.amountMinor := by
  cases converted : t.baseAmountMinor with
  | none => simp [TransactionRow.amount, converted]
  | some amount =>
      obtain ⟨currency, named⟩ := Option.isSome_iff_exists.mp
        (conversions.complete t stored (by rw [converted]; rfl))
      have same := conversions.own t stored currency named
      exact absurd (named.trans (congrArg some (same.trans base.symm)))
        (conversions.other t stored)

theorem stored_of_onLine {d : Database} {args : Args} {line : String} {row : CellRow}
    (member : row ∈ onLine d args line) : row.txn ∈ d.transactions := by
  obtain ⟨joined, known, rfl⟩ := List.mem_map.mp (List.mem_filter.mp member).1
  exact (List.mem_filter.mp (mem_left_of_mem_leftJoin (mem_left_of_mem_leftJoin known))).1

/-- The rows of the panel are the cell's rows. Where all of them are in the base currency they add up
to its amount; where some are not they show the amounts that it was summed from. -/
structure ShowsCell (d : Database) (rows : List CellRow) (shown : Drilldown) : Prop where
  complete : (shown.rows.map (·.id)).Perm (rows.map (·.txn.id.text))
  adds : (∀ row ∈ rows, row.txn.currency = d.baseCurrency) →
    (shown.rows.map (·.amount.minorUnits)).sum = shown.amount.minorUnits
  converted : ¬ (∀ row ∈ rows, row.txn.currency = d.baseCurrency) →
    (shown.rows.map fun row => (row.id, row.amount)).Perm
      (rows.map fun row => (row.txn.id.text, ⟨row.txn.amount.toInt, d.baseCurrency⟩))

/-- A cell of one page in the base currency is shown as it is. -/
theorem showsCell_of_small {d : Database} (conversions : Conversions d) {args : Args}
    {line : String} (fits : Fits (exactSum ((onLine d args line).map (·.txn))))
    (few : (onLine d args line).length ≤ 500)
    (base : ∀ row ∈ onLine d args line, row.txn.currency = d.baseCurrency) {shown : Drilldown}
    (rows : shown.rows = ((orderedRows d args line).take 500).map rowOf)
    (amount : shown.amount.minorUnits =
      (Int64.ofInt (exactSum ((onLine d args line).map (·.txn)))).toInt) :
    ShowsCell d (onLine d args line) shown := by
  have perm : (orderedRows d args line).Perm (onLine d args line) := List.perm_insertionSort _ _
  have all : (orderedRows d args line).take 500 = orderedRows d args line :=
    List.take_of_length_le (perm.length_eq.trans_le few)
  rw [all] at rows
  refine ⟨?_, fun _ => ?_, fun foreign => absurd base foreign⟩
  · rw [rows, List.map_map]
    exact perm.map _
  · have plain : ∀ row ∈ onLine d args line, row.txn.amountMinor.toInt = row.txn.amount.toInt :=
      fun row member => by rw [conversions.plain (stored_of_onLine member) (base row member)]
    rw [amount, toInt_ofInt_of_fits fits, rows, List.map_map, (perm.map _).sum_eq, exactSum,
      List.map_map]
    exact congrArg List.sum (List.map_congr_left plain)

/-- Nothing else is: a row behind the page is missing, and a converted row shows what its source
said. -/
theorem small_of_showsCell {d : Database} {args : Args} {line : String} {shown : Drilldown}
    (rows : shown.rows = ((orderedRows d args line).take 500).map rowOf)
    (shows : ShowsCell d (onLine d args line) shown) :
    (onLine d args line).length ≤ 500 ∧
      ∀ row ∈ onLine d args line, row.txn.currency = d.baseCurrency := by
  have perm : (orderedRows d args line).Perm (onLine d args line) := List.perm_insertionSort _ _
  have few : (onLine d args line).length ≤ 500 := by
    have lengths := shows.complete.length_eq
    rw [rows, List.length_map, List.length_map, List.length_map, List.length_take] at lengths
    omega
  refine ⟨few, ?_⟩
  by_contra foreign
  have converted := shows.converted foreign
  obtain ⟨row, member, other⟩ := by simpa only [not_forall] using foreign
  have page : row ∈ (orderedRows d args line).take 500 := by
    rw [List.take_of_length_le (perm.length_eq.trans_le few)]
    exact perm.mem_iff.mpr member
  have known : ((rowOf row).id, (rowOf row).amount) ∈ shown.rows.map fun row => (row.id, row.amount) :=
    List.mem_map.mpr ⟨rowOf row, rows ▸ List.mem_map_of_mem page, rfl⟩
  obtain ⟨origin, -, same⟩ := List.mem_map.mp (converted.subset known)
  exact other (congrArg (fun shownRow => shownRow.2.currencyCode) same).symm

/-- The panel shows the cell it is opened on exactly where the cell's sum fits, its rows are no more
than one page and all of them are in the base currency. -/
theorem panel_shows_iff {session : Session} {params : DrilldownParams} {d : Database}
    (conversions : Conversions d) {report : Report}
    (opened : getReport session params.fromMonth params.toMonth d = .ok report)
    (cell : report.Opens params.period params.categoryID) (parseUUID : String → Option UUID) :
    ∃ rows, selectedRows session params d = .ok rows ∧
      ((∃ shown, getDrilldown parseUUID session params d = .ok shown ∧ ShowsCell d rows shown) ↔
        Fits (exactSum (rows.map (·.txn))) ∧ rows.length ≤ 500 ∧
          ∀ row ∈ rows, row.txn.currency = d.baseCurrency) := by
  obtain ⟨kind, req, line, sel, cells⟩ := cell_of_opens opened cell
  refine ⟨_, cells.selectedRows_eq, ?_⟩
  rw [cells.getDrilldown_eq opened]
  by_cases fits : Fits (exactSum ((onLine d sel.args sel.line.string).map (·.txn)))
  · have totalled : lineTotal d sel.args sel.line.string =
        .ok ⟨(onLine d sel.args sel.line.string).length,
          Int64.ofInt (exactSum ((onLine d sel.args sel.line.string).map (·.txn)))⟩ := by
      simp [lineTotal, bigint, fits, Except.map]
    rw [totalled]
    constructor
    · rintro ⟨shown, made, shows⟩
      obtain rfl := Except.ok.inj made
      exact ⟨fits, small_of_showsCell rfl shows⟩
    · rintro ⟨-, few, base⟩
      exact ⟨_, rfl, showsCell_of_small conversions fits few base rfl rfl⟩
  · have refused : lineTotal d sel.args sel.line.string = .error .outOfBigint := by
      simp [lineTotal, bigint, fits, Except.map]
    rw [refused]
    constructor
    · rintro ⟨shown, made, -⟩
      cases made
    · exact fun small => absurd small.1 fits

/-! ## The unclassified of one month -/

def sampleSession : Session := ⟨7, 1⟩

def sampleParams : DrilldownParams where
  categoryID := "unclassified"
  period := "2026-01"
  fromMonth := "2026-01"
  toMonth := "2026-01"

theorem opens_of_buckets {report : Report} {period categoryID : String}
    (periods : period ∈ report.periods) (buckets : categoryID ∈ report.buckets.map (·.kind)) :
    report.Opens period categoryID :=
  ⟨periods, .inr (List.mem_map.mp buckets)⟩

theorem panel_shows_sample :
    ∃ rows shown, selectedRows sampleSession sampleParams (oneDay [(3, 500), (1, -200)]) = .ok rows ∧
      getDrilldown canonicalUUID sampleSession sampleParams (oneDay [(3, 500), (1, -200)]) =
        .ok shown ∧
      ShowsCell (oneDay [(3, 500), (1, -200)]) rows shown := by
  have conversions : Conversions (oneDay [(3, 500), (1, -200)]) := ⟨by decide, by decide, by
    intro t member currency named
    have none_ : ∀ t ∈ (oneDay [(3, 500), (1, -200)]).transactions, t.baseCurrency = none := by
      decide
    cases (none_ t member).symm.trans named⟩
  have computed : (getReport sampleSession sampleParams.fromMonth sampleParams.toMonth
      (oneDay [(3, 500), (1, -200)])).map (fun report => (report.periods, report.buckets.map (·.kind))) =
      .ok (["2026-01"], ["unclassified", "non_pnl", "unallocated", "other_basis"]) := by
    decide +kernel
  obtain ⟨report, opened, facts⟩ := map_ok.mp computed
  obtain ⟨periods, buckets⟩ := Prod.mk.inj facts
  have cell : report.Opens sampleParams.period sampleParams.categoryID :=
    opens_of_buckets (by rw [periods]; decide) (by rw [buckets]; decide)
  obtain ⟨rows, chosen, shows⟩ := panel_shows_iff conversions opened cell canonicalUUID
  have known : (selectedRows sampleSession sampleParams (oneDay [(3, 500), (1, -200)])).map
      (fun rows => decide (Fits (exactSum (rows.map (·.txn))) ∧ rows.length ≤ 500 ∧
        ∀ row ∈ rows, row.txn.currency = (oneDay [(3, 500), (1, -200)]).baseCurrency)) =
      .ok true := by decide +kernel
  obtain ⟨same, chosen', small⟩ := map_ok.mp known
  obtain rfl := Except.ok.inj (chosen.symm.trans chosen')
  obtain ⟨shown, made, panel⟩ := shows.mpr (of_decide_eq_true small)
  exact ⟨rows, shown, chosen, made, panel⟩

/-- A payment of 1.00 EUR, converted at 3.30. -/
def convertedPayment : Database :=
  { oneDay [] with
    transactions := [{ sampleTransaction 1 .bank (sampleDay 5) 100 with
      currency := "EUR"
      fxRate := some (33 / 10)
      fxRateOn := some (sampleDay 5)
      baseAmountMinor := some 330
      baseCurrency := some "BYN" }] }

/-- The figure is 3.30 of the base currency, and the one row under it shows 1.00. -/
theorem source_amount_shown :
    ∃ report rows shown, getReport sampleSession sampleParams.fromMonth sampleParams.toMonth
        convertedPayment = .ok report ∧
      report.Opens sampleParams.period sampleParams.categoryID ∧
      selectedRows sampleSession sampleParams convertedPayment = .ok rows ∧
      getDrilldown canonicalUUID sampleSession sampleParams convertedPayment = .ok shown ∧
      shown.amount = ⟨330, "BYN"⟩ ∧ shown.rows.map (·.amount) = [⟨100, "EUR"⟩] ∧
      ¬ ShowsCell convertedPayment rows shown := by
  have computed : (getReport sampleSession sampleParams.fromMonth sampleParams.toMonth
      convertedPayment).map (fun report => (report.periods, report.buckets.map (·.kind))) =
      .ok (["2026-01"], ["unclassified", "non_pnl", "unallocated", "other_basis"]) := by
    decide +kernel
  obtain ⟨report, opened, facts⟩ := map_ok.mp computed
  obtain ⟨periods, buckets⟩ := Prod.mk.inj facts
  have chosen : (selectedRows sampleSession sampleParams convertedPayment).map
      (·.map fun row => (row.txn.currency, row.txn.amount)) = .ok [("EUR", 330)] := by
    decide +kernel
  obtain ⟨rows, selected, columns⟩ := map_ok.mp chosen
  have panel : (getDrilldown canonicalUUID sampleSession sampleParams convertedPayment).map
      (fun shown => (shown.amount, shown.rows.map (·.amount))) =
      .ok (⟨330, "BYN"⟩, [⟨100, "EUR"⟩]) := by decide +kernel
  obtain ⟨shown, made, figures⟩ := map_ok.mp panel
  obtain ⟨amount, shownRows⟩ := Prod.mk.inj figures
  refine ⟨report, rows, shown, opened,
    opens_of_buckets (by rw [periods]; decide) (by rw [buckets]; decide), selected, made, amount,
    shownRows, fun shows => ?_⟩
  obtain ⟨row, rfl, same⟩ := List.map_eq_singleton_iff.mp columns
  obtain ⟨currency, base⟩ := Prod.mk.inj same
  have foreign : ¬ ∀ other ∈ [row], other.txn.currency = convertedPayment.baseCurrency := by
    intro all
    exact absurd (currency.symm.trans (all row List.mem_cons_self)) (by decide)
  have amounts := (shows.converted foreign).map Prod.snd
  rw [List.map_map, List.map_map] at amounts
  have sourced : ([⟨100, "EUR"⟩] : List Money).Perm
      [⟨row.txn.amount.toInt, convertedPayment.baseCurrency⟩] := shownRows ▸ amounts
  rw [base] at sourced
  exact absurd sourced (by decide)

end Vekst.Web
