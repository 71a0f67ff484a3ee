import Vekst.Proof.Ledger.Tables
import Vekst.Proof.Reports.DrillDown

namespace Vekst.Reports
open Calendar Relational Wrapping Isolation Ledger

/-- The figure of a cell, in the sign the ledger stores. -/
def Report.cellAt (report : Report) : LineRef → Nat → Int64
  | .sectionLine code, i => report.storedAt code i
  | .bucketLine bucket, i => report.bucketAt bucket i

/-- The transactions behind a selection. -/
def selected (d : Database) (sel : Selection) : List TransactionRow :=
  (onLine d sel.args sel.line.string).map (·.txn)

/-- A request for the months of four-digit years between two months. -/
structure Request.Asks (req : Request) (first last : Month) : Prop where
  fromText : req.fromMonth = monthText first
  toText : req.toMonth = monthText last
  start : 1 ≤ first.year
  stop : last.year ≤ 9999
  ordered : first ≤ last

/-- A transaction booked in a column of the request, inside its months. -/
structure Booked (d : Database) (req : Request) (first last : Month) (period : String)
    (t : TransactionRow) : Prop where
  stored : t ∈ d.transactions
  entity : t.entityID = req.entityID
  lower : first ≤ t.bookedOn.toMonth
  upper : t.bookedOn.toMonth ≤ last
  column : req.granularity.column t.bookedOn.toMonth = .ok period

/-- One column of a report beside the drill-downs of its cells. -/
structure Agrees (d : Database) (req : Request) (first last : Month) (report : Report) (i : Nat)
    (period : String) : Prop where
  figure : ∀ ref ∈ cells, ∃ sel, selectionFor req period ref = .ok sel ∧
    (Fits (exactSum (selected d sel)) → lineTotal d sel.args sel.line.string =
      .ok ⟨(selected d sel).length, report.cellAt ref i⟩)
  disjoint : ∀ ref ∈ cells, ∀ other ∈ cells, ∀ sel otherSel,
    selectionFor req period ref = .ok sel → selectionFor req period other = .ok otherSel →
    ∀ t, t ∈ selected d sel → t ∈ selected d otherSel → ref = other
  union : ∀ t, Booked d req first last period t ↔
    ∃ ref ∈ cells, ∃ sel, selectionFor req period ref = .ok sel ∧ t ∈ selected d sel

section

variable {d : Database} {req : Request} {first last : Month}

theorem Request.Asks.firstFits (asks : req.Asks first last) : FourDigit first := by
  have ordered := asks.ordered
  have stop := asks.stop
  have start := asks.start
  have valid := first.valid
  have lastValid := last.valid
  simp only [FourDigit, Month.le_iff, Month.index] at *
  omega

theorem Request.Asks.lastFits (asks : req.Asks first last) : FourDigit last := by
  have ordered := asks.ordered
  have stop := asks.stop
  have start := asks.start
  have valid := first.valid
  have lastValid := last.valid
  simp only [FourDigit, Month.le_iff, Month.index] at *
  omega

theorem Request.Asks.month (asks : req.Asks first last) {m : Month} (lower : first ≤ m)
    (upper : m ≤ last) : FourDigit m ∧ 1 ≤ m.year := by
  refine ⟨asks.firstFits.between asks.lastFits lower upper, ?_⟩
  have start := asks.start
  have valid := first.valid
  have mValid := m.valid
  simp only [Month.le_iff, Month.index] at lower
  omega

theorem toCharMonth_eq {day : Date} (year : 1 ≤ day.year) :
    toCharMonth day = monthText day.toMonth := by
  have positive : ¬ day.year ≤ 0 := by omega
  simp [toCharMonth, monthText, positive, Date.toMonth]

theorem Request.Asks.labelled_iff (asks : req.Asks first last) {day : Date} {period : String}
    (lower : first ≤ day.toMonth) (upper : day.toMonth ≤ last) :
    labelled req.granularity (toCharMonth day) = .ok period ↔
      req.granularity.column day.toMonth = .ok period := by
  obtain ⟨fits, year⟩ := asks.month lower upper
  rw [toCharMonth_eq year, labelled, label_monthText fits, lift]
  cases req.granularity.column day.toMonth <;> simp [Except.mapError]

theorem operands_of_mem_cells {code : String} (known : .sectionLine code ∈ cells) :
    operands code = [] := by
  have plain : ∀ code ∈ sections, operands code = [] := by decide
  exact plain code (section_of_mem_cells known)

theorem Args.covers_iff {args : Args} {t : TransactionRow} :
    args.covers t ↔ t.entityID = args.entityID ∧ args.fromDate ≤ t.bookedOn ∧
      t.bookedOn ≤ args.toDate := by
  simp only [Args.covers, Bool.and_eq_true, decide_eq_true_eq, and_assoc]

theorem lineTotal_selected (d : Database) (sel : Selection) :
    lineTotal d sel.args sel.line.string =
      (bigint (exactSum (selected d sel))).map (LineTotal.mk (selected d sel).length) := by
  rw [selected, List.length_map]
  rfl

/-- A transaction of the column that the switch puts in the cell. -/
def belongs (d : Database) (req : Request) (first last : Month) (period : String) (spec : Spec)
    (ref : LineRef) (t : TransactionRow) : Bool :=
  decide (t.entityID = req.entityID ∧ (first ≤ t.bookedOn.toMonth ∧ t.bookedOn.toMonth ≤ last) ∧
    req.granularity.column t.bookedOn.toMonth = .ok period ∧ place spec (ownRow d t) = .ok ref)

theorem exactSum_belongs (asks : req.Asks first last) {args : Args}
    (covers : ∀ t, args.covers t ↔ t.entityID = req.entityID ∧ first ≤ t.bookedOn.toMonth ∧
      t.bookedOn.toMonth ≤ last) (period : String) (spec : Spec) (ref : LineRef) :
    exactSum (d.transactions.filter (belongs d req first last period spec ref)) =
      ((d.transactions.filter args.covers).map
        (share d spec req.granularity period ref)).sum := by
  rw [exactSum, sum_filter, sum_filter]
  apply congrArg
  apply List.map_congr_left
  intro t _
  by_cases inside : args.covers t
  · obtain ⟨entity, lower, upper⟩ := (covers t).mp inside
    simp [inside, belongs, share, entity, lower, upper, asks.labelled_iff lower upper]
  · have outside : belongs d req first last period spec ref t = false := by
      rw [belongs, decide_eq_false_iff_not]
      rintro ⟨entity, ⟨lower, upper⟩, -⟩
      exact inside ((covers t).mpr ⟨entity, lower, upper⟩)
    simp [inside, outside]

/-- The selection of a cell takes the transactions of its column that belong in the cell. -/
theorem mem_selected (classified : Classified d) (asks : req.Asks first last) {m : Month}
    (lower : first ≤ m) (upper : m ≤ last) {period : String}
    (labelled : req.granularity.column m = .ok period) {spec : Spec}
    (basis : spec.basis = req.basis) {ref : LineRef} (known : ref ∈ cells) :
    ∃ sel, selectionFor req period ref = .ok sel ∧ sel.line = ref ∧ sel.basis = req.basis ∧
      selected d sel = d.transactions.filter (belongs d req first last period spec ref) := by
  obtain ⟨fromDate, toDate, chosen, within⟩ := selectionFor_ok asks.firstFits asks.lastFits
    asks.fromText asks.toText lower upper labelled fun code same =>
      operands_of_mem_cells (same ▸ known)
  refine ⟨_, chosen, rfl, rfl, ?_⟩
  rw [selected, onLine, classified.cellRows_eq, List.filter_map, List.map_map, List.filter_filter]
  simp only [Function.comp_def, List.map_id']
  apply List.filter_congr
  intro t _
  have onCell := @onLine_iff_place d classified spec t ref known
  rw [basis] at onCell
  have dates := within t.bookedOn
  have covered : Args.covers (Selection.args ⟨req.entityID, req.basis, fromDate, toDate, ref⟩) t ↔
      t.entityID = req.entityID ∧ fromDate ≤ t.bookedOn ∧ t.bookedOn ≤ toDate := Args.covers_iff
  rw [belongs, Bool.eq_iff_iff, Bool.and_eq_true, decide_eq_true_eq, covered, dates]
  exact onCell.and Iff.rfl |>.trans (by tauto)

/-- Every classified transaction is in a row of the report, under its own category. -/
theorem rowOf_classified {args : Args} {reported : List ReportLine} {lines : List Row}
    (queried : reportLines d args = .ok reported)
    (translated : reported.mapM (lineRow req d.baseCurrency) = .ok lines)
    {joined : (TransactionRow × ClassificationRow) × CategoryRow}
    (member : joined ∈ classifiedRows d args) :
    ∃ row ∈ lines, row.categoryCode = joined.2.code ∧ row.pnlSection = joined.2.pnlSection ∧
      row.isPNL = joined.2.isPNL ∧ row.requiresAllocation = joined.2.requiresAllocation ∧
      row.sourceKind = req.basis := by
  have grouped : ∃ group ∈ groups reportKey (classifiedRows d args), group.1 = reportKey joined :=
    ⟨_, List.mem_map_of_mem (List.mem_dedup.mpr (List.mem_map_of_mem member)), rfl⟩
  obtain ⟨group, listed, key⟩ := grouped
  obtain ⟨line, reportedLine, summed⟩ :=
    exists_of_mapM queried ((List.mem_insertionSort _).mpr listed)
  obtain ⟨row, present, labelled⟩ := exists_of_mapM translated reportedLine
  have sameKey : line.key = reportKey joined := by
    rw [← key]
    cases total : bigint (exactSum (group.2.map (·.1.1))) with
    | error e => simp [total, Except.map] at summed
    | ok amount =>
        obtain rfl := by simpa [total, Except.map] using summed
        rfl
  refine ⟨row, present, ?_⟩
  unfold lineRow at labelled
  cases label : Reports.labelled req.granularity line.key.period with
  | error e => simp [label, Except.map] at labelled
  | ok text =>
      obtain rfl := by simpa [label, Except.map] using labelled
      simp [sameKey, reportKey]

theorem cellAt_eq {rows : List Row} {spec : Spec} (distinct : spec.periods.Nodup)
    {computed report : Report} (success : compute rows spec = .ok computed)
    (same : report = { computed with reconciliation := report.reconciliation }) {ref : LineRef}
    (known : ref ∈ cells) (j : Fin spec.periods.length) :
    report.cellAt ref j = Int64.ofInt (exactCell rows spec ref (spec.periods.get j)) := by
  obtain ⟨-, -, tally, folded, rfl⟩ := compute_ok_iff.mp success
  rw [← cell_eq_exact distinct folded, same]
  cases ref with
  | sectionLine code => exact storedAt_section spec tally (section_of_mem_cells known) j
  | bucketLine bucket => exact bucketAt_assemble spec tally bucket j

/-- A report that was computed found a place for every transaction it covers. -/
theorem placed_of_success (classified : Classified d) {args : Args}
    (basisName : args.sourceKind = req.basis.name) {spec : Spec} (basis : spec.basis = req.basis)
    {lines totals others : List Row} (rows : RowsOf d req args lines totals others)
    {computed : Report} (success : compute (lines ++ totals ++ others) spec = .ok computed)
    {t : TransactionRow} (stored : t ∈ d.transactions) (covered : args.covers t) :
    ∃ ref ∈ cells, place spec (ownRow d t) = .ok ref := by
  by_cases own : t.sourceKind.text = req.basis.name
  · cases answer : liveClassification d t with
    | none => exact ⟨_, by decide, place_unanswered basis own answer⟩
    | some c =>
        obtain ⟨cat, -, category⟩ := classified.category answer
        obtain ⟨reported, queried, translated⟩ := rows.lines
        have joined : ((t, c), cat) ∈ classifiedRows d args := by
          rw [classified.classifiedRows_eq, List.mem_filterMap]
          refine ⟨t, List.mem_filter.mpr ⟨stored, ?_⟩, by simp [answer, category]⟩
          rw [Bool.and_eq_true, decide_eq_true_eq, basisName]
          exact ⟨covered, own⟩
        obtain ⟨row, present, code, ofSection, pnl, allocation, kind⟩ :=
          rowOf_classified queried translated joined
        obtain ⟨-, -, tally, folded, -⟩ := compute_ok_iff.mp success
        have member : row ∈ lines ++ totals ++ others := by simp [present]
        obtain ⟨ref, known, placed⟩ := placed_of_accepted (accepted_of_foldlM folded member)
        refine ⟨ref, known, ?_⟩
        rw [← placed]
        apply place_congr
        · rw [kind]
          exact congrArg Basis.mk own
        all_goals simp [ownRow, category, code, ofSection, pnl, allocation]
  · exact ⟨_, by decide, place_other basis own⟩

theorem managementPNL_agrees (classified : Classified d) (asks : req.Asks first last)
    {userID : UUID} {report : Report} (success : managementPNL userID req d = .ok report) (i : Nat)
    (inside : i < report.spec.periods.length) :
    Agrees d req first last report i report.spec.periods[i] := by
  obtain ⟨prep, lines, totals, others, spec, prepared, rows, basis, columns, computed, succeeded,
    same⟩ := managementPNL_ok success
  obtain ⟨range, knownBasis, listed⟩ := prepare_ok prepared
  have sameSpec : report.spec = spec := by
    obtain ⟨-, -, tally, -, rfl⟩ := compute_ok_iff.mp succeeded
    rw [same]
    rfl
  have distinct : spec.periods.Nodup := columns ▸ nodup_periods listed
  rw [asks.fromText, asks.toText] at range listed
  rw [monthRange_monthText asks.firstFits asks.lastFits asks.ordered] at range
  simp only [sameSpec] at inside ⊢
  have requested : spec.periods[i] ∈ prep.periods := columns ▸ List.getElem_mem inside
  obtain ⟨m, fits, lower, upper, labelled⟩ :=
    month_of_period asks.firstFits asks.lastFits listed requested
  have selects := @mem_selected d req first last classified asks m lower upper _ labelled spec basis
  have covers : ∀ t, (prep.args req).covers t ↔ t.entityID = req.entityID ∧
      first ≤ t.bookedOn.toMonth ∧ t.bookedOn.toMonth ≤ last := by
    intro t
    rw [Args.covers_iff, ← Date.between_iff]
    obtain ⟨fromDate, toDate⟩ := Prod.mk.inj (Except.ok.inj range)
    rw [fromDate, toDate]
    rfl
  refine ⟨?_, ?_, ?_⟩
  · intro ref known
    obtain ⟨sel, chosen, -, -, transactions⟩ := selects known
    refine ⟨sel, chosen, fun fitting => ?_⟩
    have exactly : exactSum (selected d sel) =
        exactCell (lines ++ totals ++ others) spec ref (spec.periods[i]) := by
      rw [transactions, exactSum_belongs asks covers,
        exactCell_eq_shares classified basis knownBasis rfl rows]
    have figure := cellAt_eq distinct succeeded same known ⟨i, inside⟩
    rw [lineTotal_selected, bigint, if_pos fitting, exactly, figure]
    rfl
  · intro ref known other otherKnown sel otherSel chosen otherChosen t member otherMember
    obtain ⟨_, chosen', -, -, transactions⟩ := selects known
    obtain ⟨_, otherChosen', -, -, otherTransactions⟩ := selects otherKnown
    obtain rfl := Except.ok.inj (chosen.symm.trans chosen')
    obtain rfl := Except.ok.inj (otherChosen.symm.trans otherChosen')
    rw [transactions] at member
    rw [otherTransactions] at otherMember
    have placed := (of_decide_eq_true (List.mem_filter.mp member).2).2.2.2
    have otherPlaced := (of_decide_eq_true (List.mem_filter.mp otherMember).2).2.2.2
    exact Except.ok.inj (placed.symm.trans otherPlaced)
  · intro t
    constructor
    · intro booked
      obtain ⟨ref, known, placed⟩ := placed_of_success classified rfl basis rows succeeded
        booked.stored ((covers t).mpr ⟨booked.entity, booked.lower, booked.upper⟩)
      obtain ⟨sel, chosen, -, -, transactions⟩ := selects known
      refine ⟨ref, known, sel, chosen, ?_⟩
      rw [transactions]
      exact List.mem_filter.mpr ⟨booked.stored, decide_eq_true
        ⟨booked.entity, ⟨booked.lower, booked.upper⟩, booked.column, placed⟩⟩
    · rintro ⟨ref, known, sel, chosen, member⟩
      obtain ⟨_, chosen', -, -, transactions⟩ := selects known
      obtain rfl := Except.ok.inj (chosen.symm.trans chosen')
      rw [transactions] at member
      obtain ⟨stored, held⟩ := List.mem_filter.mp member
      obtain ⟨entity, ⟨lower, upper⟩, column, -⟩ := of_decide_eq_true held
      exact ⟨stored, entity, lower, upper, column⟩

end

def january : Month := ⟨2026, 1, Month.january_valid⟩

def february : Month := ⟨2026, 2, by decide⟩

/-- A sale, a cost and an unanswered payment; the cost's category has the code given. -/
def sampleDatabase (costCode : String) : Database :=
  { Database.empty "BYN" with
    members := [⟨7, .viewer⟩]
    transactions := [
      sampleTransaction 1 .bank january.firstDay 120000,
      sampleTransaction 2 .bank january.lastDay (-41200),
      sampleTransaction 3 .bank february.firstDay (-900),
      sampleTransaction 4 .ledger february.firstDay 500]
    categories := [sampleCategory 1 "0101" netSales, sampleCategory 2 costCode opex]
    classifications := [sampleClassification 1 1 1, sampleClassification 2 2 2] }

def sampleRequest : Request where
  entityID := 1
  fromMonth := "2026-01"
  toMonth := "2026-02"
  granularity := .quarterly
  basis := .bank

theorem managementPNL_agrees_sample :
    ∃ report, managementPNL 7 sampleRequest (sampleDatabase "0402") = .ok report ∧
      report.spec.periods[0]? = some "2026-Q1" ∧ report.cellAt (.sectionLine opex) 0 = -41200 ∧
      Agrees (sampleDatabase "0402") sampleRequest january february report 0 "2026-Q1" := by
  have computed : (managementPNL 7 sampleRequest (sampleDatabase "0402")).map
      (fun report => (report.spec.periods, report.cellAt (.sectionLine opex) 0)) =
        .ok (["2026-Q1"], -41200) := by decide +kernel
  cases success : managementPNL 7 sampleRequest (sampleDatabase "0402") with
  | error e => simp [success, Except.map] at computed
  | ok report =>
      simp only [success, Except.map, Except.ok.injEq, Prod.mk.injEq] at computed
      obtain ⟨columns, cost⟩ := computed
      have classified : Classified (sampleDatabase "0402") :=
        ⟨by decide, by decide, by decide, by decide⟩
      have asks : sampleRequest.Asks january february :=
        ⟨by decide +kernel, by decide +kernel, by decide, by decide, by decide⟩
      have agrees := managementPNL_agrees classified asks success 0 (by simp [columns])
      simp only [columns, List.getElem_cons_zero] at agrees
      exact ⟨report, rfl, by simp [columns], cost, agrees⟩

/-- A category without a code: the report files its rows under unclassified, the drill-down does
not. -/
theorem managementPNL_disagrees_on_empty_code :
    (∀ t ∈ (sampleDatabase "").transactions, ((sampleDatabase "").liveOf t.id).length ≤ 1) ∧
    (∀ c ∈ (sampleDatabase "").classifications, c.live →
      ∃ cat ∈ (sampleDatabase "").categories, cat.id = c.categoryID) ∧
    sampleRequest.Asks january february ∧
    ∃ report sel, managementPNL 7 sampleRequest (sampleDatabase "") = .ok report ∧
      report.spec.periods[0]? = some "2026-Q1" ∧
      selectionFor sampleRequest "2026-Q1" (.sectionLine opex) = .ok sel ∧
      lineTotal (sampleDatabase "") sel.args sel.line.string = .ok ⟨1, -41200⟩ ∧
      report.cellAt (.sectionLine opex) 0 = 0 := by
  have computed : (managementPNL 7 sampleRequest (sampleDatabase "")).map
      (fun report => (report.spec.periods, report.cellAt (.sectionLine opex) 0)) =
        .ok (["2026-Q1"], 0) := by decide +kernel
  refine ⟨by decide, by decide,
    ⟨by decide +kernel, by decide +kernel, by decide, by decide, by decide⟩, ?_⟩
  cases success : managementPNL 7 sampleRequest (sampleDatabase "") with
  | error e => simp [success, Except.map] at computed
  | ok report =>
      simp only [success, Except.map, Except.ok.injEq, Prod.mk.injEq] at computed
      exact ⟨report, ⟨1, .bank, january.firstDay, february.lastDay, .sectionLine opex⟩, rfl,
        by simp [computed.1], by decide +kernel, by decide +kernel, computed.2⟩

end Vekst.Reports
