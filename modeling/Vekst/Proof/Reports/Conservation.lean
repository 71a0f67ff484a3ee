import Vekst.Proof.Reports.Tally

namespace Vekst.Reports
open Relational Wrapping

/-! ## Reading a report -/

def Report.line (report : Report) (code : String) : Option Line :=
  report.lines.find? (·.code = code)

def Report.amountAt (report : Report) (code : String) (i : Nat) : Int64 :=
  ((report.line code).bind fun line => line.byPeriod[i]?).elim 0 (·.amount.minorUnits)

def Report.bucketAt (report : Report) (bucket : Bucket) (i : Nat) : Int64 :=
  (report.buckets bucket)[i]?.elim 0 (·.minorUnits)

/-- A figure in the sign the ledger stores: every section but NET SALES is printed negated. -/
def Report.storedAt (report : Report) (code : String) (i : Nat) : Int64 :=
  if code ∈ sections ∧ code ≠ netSales then -report.amountAt code i else report.amountAt code i

/-- The sections printed above a line of the table. -/
def sectionsBefore (code : String) : List String :=
  (order.takeWhile (· ≠ code)).filter (· ∈ sections)

theorem lineOf_code {n : Nat} (spec : Spec) (tally : Tally n) (code : String) :
    (lineOf spec tally code).code = code := by
  unfold lineOf
  cases found : chain.find? (·.code = code) with
  | none => rfl
  | some line =>
      have same : line.code = code := by simpa using List.find?_some found
      exact same

theorem assemble_line (spec : Spec) (tally : Tally spec.periods.length) {code : String}
    (printed : code ∈ order) :
    (assemble spec tally).line code = some (lineOf spec tally code) := by
  have known : order.find? (fun other => decide (other = code)) = some code := by
    cases found : order.find? (fun other => decide (other = code)) with
    | none => simpa using List.find?_eq_none.mp found code printed
    | some other => simpa using List.find?_some found
  simp only [Report.line, assemble, List.find?_map]
  have sameTest : (fun line : Line => decide (line.code = code)) ∘ lineOf spec tally =
      fun other => decide (other = code) := by
    funext other
    simp [lineOf_code]
  rw [sameTest, known]
  rfl

@[simp] theorem figure_amount (amount revenue : Int64) (currency : String) :
    (figure amount revenue currency).amount = ⟨currency, amount⟩ := by
  unfold figure
  split_ifs <;> rfl

@[simp] theorem buildLine_amounts {n : Nat} (code label formula : String) (computed : Bool)
    (series revenue : Series n) (spec : Spec) :
    (buildLine code label formula computed series revenue spec).byPeriod.map
      (·.amount.minorUnits) = List.ofFn series := by
  simp [buildLine, Function.comp_def]

@[simp] theorem buildLine_total {n : Nat} (code label formula : String) (computed : Bool)
    (series revenue : Series n) (spec : Spec) :
    (buildLine code label formula computed series revenue spec).total.amount.minorUnits =
      sum series := by
  simp [buildLine]

theorem lineOf_section {n : Nat} (spec : Spec) (tally : Tally n) {code : String}
    (known : code ∈ sections) :
    lineOf spec tally code = buildLine code (sectionLabel code) "" false
      (present code (tally.sums code)) (tally.sums netSales) spec := by
  have notComputed : chain.find? (·.code = code) = none := by
    have disjoint : ∀ code ∈ sections, chain.find? (·.code = code) = none := by decide
    exact disjoint code known
  simp only [lineOf, notComputed]

theorem lineOf_computed {n : Nat} (spec : Spec) (tally : Tally n) {line : ComputedLine}
    (known : line ∈ chain) :
    lineOf spec tally line.code = buildLine line.code line.label line.formula true
      (computedSeries tally.sums line.code) (tally.sums netSales) spec := by
  have found : chain.find? (·.code = line.code) = some line := by
    have unique : ∀ line ∈ chain, chain.find? (·.code = line.code) = some line := by decide
    exact unique line known
  simp only [lineOf, found]

theorem section_mem_order {code : String} (known : code ∈ sections) : code ∈ order := by
  have printed : ∀ code ∈ sections, code ∈ order := by decide
  exact printed code known

theorem computed_mem_order {line : ComputedLine} (known : line ∈ chain) : line.code ∈ order := by
  have printed : ∀ line ∈ chain, line.code ∈ order := by decide
  exact printed line known

theorem storedAt_section (spec : Spec) (tally : Tally spec.periods.length) {code : String}
    (known : code ∈ sections) (i : Fin spec.periods.length) :
    (assemble spec tally).storedAt code i = tally.sums code i := by
  simp only [Report.storedAt, Report.amountAt, assemble_line spec tally (section_mem_order known),
    lineOf_section spec tally known, buildLine, Option.bind_some]
  by_cases revenue : code = netSales
  · simp [revenue, present]
  · simp [revenue, known, present]

theorem storedAt_computed (spec : Spec) (tally : Tally spec.periods.length) {line : ComputedLine}
    (known : line ∈ chain) (i : Fin spec.periods.length) :
    (assemble spec tally).storedAt line.code i = computedSeries tally.sums line.code i := by
  have notSection : line.code ∉ sections := by
    have disjoint : ∀ line ∈ chain, line.code ∉ sections := by decide
    exact disjoint line known
  simp only [Report.storedAt, Report.amountAt, assemble_line spec tally (computed_mem_order known),
    lineOf_computed spec tally known, buildLine, Option.bind_some]
  simp [notSection]

theorem bucketAt_assemble (spec : Spec) (tally : Tally spec.periods.length) (bucket : Bucket)
    (i : Fin spec.periods.length) :
    (assemble spec tally).bucketAt bucket i = tally.buckets bucket i := by
  simp [Report.bucketAt, assemble, toMoney]

/-! ## The chain -/

theorem computedSeries_eq {n : Nat} (sums : String → Series n) {line : ComputedLine}
    (known : line ∈ chain) (i : Fin n) :
    computedSeries sums line.code i =
      ((sectionsBefore line.code).map fun code => sums code i).sum := by
  simp only [chain, List.mem_cons, List.not_mem_nil, or_false] at known
  rcases known with rfl | rfl | rfl | rfl | rfl
  all_goals
    simp [computedSeries, chain, runLine, value, addInto, sections, sectionsBefore, order, gm, nm,
      cm, ibt, ni, netSales, cs, ocs, opex, oie, fr, cit, add_assoc]

/-! ## Exact sums of the rows -/

def exactCell (rows : List Row) (spec : Spec) (ref : LineRef) (period : String) : ℤ :=
  groupSum (fun row : Row => (row.period, place spec row)) (·.amount.minorUnits.toInt) rows
    (period, .ok ref)

theorem compute_ok_iff {rows : List Row} {spec : Spec} {report : Report} :
    compute rows spec = .ok report ↔ spec.baseCurrency ≠ "" ∧ spec.periods ≠ [] ∧
      ∃ tally, rows.foldlM (addRow spec) (Tally.zero spec.periods.length) = .ok tally ∧
        report = assemble spec tally := by
  unfold compute
  by_cases currency : spec.baseCurrency = ""
  · simp [currency]
  by_cases requested : spec.periods = []
  · simp [currency, requested]
  rw [if_neg currency, if_neg requested]
  cases rows.foldlM (addRow spec) (Tally.zero spec.periods.length) <;>
    simp [currency, requested, Except.map, eq_comm]

theorem accepted_of_foldlM {spec : Spec} {rows : List Row} {tally result : Tally spec.periods.length}
    (success : rows.foldlM (addRow spec) tally = .ok result) {row : Row} (member : row ∈ rows) :
    ¬ Refused spec row := by
  intro refused
  obtain ⟨failure, failed⟩ := (foldlM_error_iff rows tally).mpr ⟨row, member, refused⟩
  rw [failed] at success
  cases success

theorem placed_of_accepted {spec : Spec} {row : Row} (accepted : ¬ Refused spec row) :
    ∃ ref ∈ cells, place spec row = .ok ref := by
  cases placed : place spec row with
  | ok ref => exact ⟨ref, place_mem_cells placed, rfl⟩
  | error failure =>
      exact absurd (.inr (.inr (place_error_iff.mp ⟨failure, placed⟩))) accepted

theorem cell_eq_exact {spec : Spec} (distinct : spec.periods.Nodup) {rows : List Row}
    {tally : Tally spec.periods.length}
    (success : rows.foldlM (addRow spec) (Tally.zero spec.periods.length) = .ok tally)
    (ref : LineRef) (j : Fin spec.periods.length) :
    tally.cell ref j = Int64.ofInt (exactCell rows spec ref (spec.periods.get j)) := by
  have start : (Tally.zero spec.periods.length).cell ref j = 0 := by cases ref <;> rfl
  have sameKey : (fun row : Row => decide (landing spec row = (some j, .ok ref))) =
      fun row => decide ((row.period, place spec row) = (spec.periods.get j, .ok ref)) := by
    funext row
    simp only [landing, Prod.mk.injEq, columnOf_eq_some distinct]
  rw [foldlM_cell success, start, zero_add, groupSum, sameKey, sum_map_ofInt_toInt]
  rfl

theorem exactCell_eq_groupSum (rows : List Row) (spec : Spec) (ref : LineRef) (period : String) :
    exactCell rows spec ref period = groupSum (place spec) (·.amount.minorUnits.toInt)
      (rows.filter fun row => row.period = period) (.ok ref) := by
  simp only [exactCell, groupSum, List.filter_filter, Prod.mk.injEq, Bool.decide_and]
  congr 3
  funext row
  exact Bool.and_comm _ _

theorem sum_exactCell {spec : Spec} {rows : List Row} {tally result : Tally spec.periods.length}
    (success : rows.foldlM (addRow spec) tally = .ok result) (period : String) :
    (cells.map fun ref => exactCell rows spec ref period).sum =
      groupSum Row.period (·.amount.minorUnits.toInt) rows period := by
  have covered : ∀ row ∈ rows.filter fun row => row.period = period,
      place spec row ∈ cells.map Except.ok := by
    intro row member
    obtain ⟨ref, known, placed⟩ :=
      placed_of_accepted (accepted_of_foldlM success (List.mem_filter.mp member).1)
    rw [placed]
    exact List.mem_map_of_mem known
  have nodup : (cells.map (Except.ok : LineRef → Except Failure LineRef)).Nodup := by decide
  have total := sum_groupSum (place spec) (fun row : Row => row.amount.minorUnits.toInt)
    (cells.map Except.ok) nodup (rows.filter fun row => row.period = period) covered
  rw [List.map_map] at total
  simpa only [exactCell_eq_groupSum, Function.comp_def, groupSum] using total

/-! ## Conservation -/

/-- No total of the computation leaves `int64`; partial sums on the way there may. -/
structure SumsFit (rows : List Row) (spec : Spec) (report : Report) : Prop where
  cell : ∀ ref ∈ cells, ∀ period ∈ spec.periods, Fits (exactCell rows spec ref period)
  computed : ∀ line ∈ chain, ∀ i < spec.periods.length,
    Fits ((sectionsBefore line.code).map fun code => (report.storedAt code i).toInt).sum
  line : ∀ line ∈ report.lines, Fits (line.byPeriod.map (·.amount.minorUnits.toInt)).sum
  bucket : ∀ bucket, Fits ((report.buckets bucket).map (·.minorUnits.toInt)).sum

/-- Every amount of a period is on one section or in one bucket, and the rest is derived. -/
structure Conserves (rows : List Row) (spec : Spec) (report : Report) : Prop where
  printed : report.lines.map (·.code) = order
  columns : ∀ line ∈ report.lines, line.byPeriod.length = spec.periods.length
  period : ∀ i (inside : i < spec.periods.length),
    (sections.map fun code => (report.storedAt code i).toInt).sum +
        (bucketOrder.map fun bucket => (report.bucketAt bucket i).toInt).sum =
      groupSum Row.period (·.amount.minorUnits.toInt) rows (spec.periods[i])
  computed : ∀ line ∈ chain, ∀ i < spec.periods.length,
    (report.storedAt line.code i).toInt =
      ((sectionsBefore line.code).map fun code => (report.storedAt code i).toInt).sum
  lineTotal : ∀ line ∈ report.lines,
    line.total.amount.minorUnits.toInt = (line.byPeriod.map (·.amount.minorUnits.toInt)).sum
  bucketTotal : ∀ bucket, (report.totals bucket).minorUnits.toInt =
    ((report.buckets bucket).map (·.minorUnits.toInt)).sum

theorem sum_toInt {n : Nat} {series : Series n}
    (fits : Fits ((List.ofFn series).map Int64.toInt).sum) :
    (sum series).toInt = ((List.ofFn series).map Int64.toInt).sum :=
  toInt_sum_of_fits fits

theorem mem_assemble_lines {spec : Spec} {tally : Tally spec.periods.length} {line : Line}
    (member : line ∈ (assemble spec tally).lines) :
    ∃ series : Series spec.periods.length,
      line.byPeriod.map (·.amount.minorUnits) = List.ofFn series ∧
        line.total.amount.minorUnits = sum series := by
  obtain ⟨code, -, rfl⟩ := List.mem_map.mp member
  unfold lineOf
  split
  · exact ⟨_, buildLine_amounts .., buildLine_total ..⟩
  · exact ⟨_, buildLine_amounts .., buildLine_total ..⟩

theorem lineTotal_eq {spec : Spec} {tally : Tally spec.periods.length} {line : Line}
    (member : line ∈ (assemble spec tally).lines)
    (fits : Fits (line.byPeriod.map (·.amount.minorUnits.toInt)).sum) :
    line.total.amount.minorUnits.toInt =
      (line.byPeriod.map (·.amount.minorUnits.toInt)).sum := by
  obtain ⟨series, columns, total⟩ := mem_assemble_lines member
  have flat : line.byPeriod.map (·.amount.minorUnits.toInt) =
      (List.ofFn series).map Int64.toInt := by
    rw [← columns, List.map_map]
    rfl
  rw [flat] at fits ⊢
  rw [total]
  exact sum_toInt fits

theorem period_eq {spec : Spec} (distinct : spec.periods.Nodup) {rows : List Row}
    {tally : Tally spec.periods.length}
    (success : rows.foldlM (addRow spec) (Tally.zero spec.periods.length) = .ok tally)
    (j : Fin spec.periods.length)
    (fits : ∀ ref ∈ cells, Fits (exactCell rows spec ref (spec.periods.get j))) :
    (sections.map fun code => ((assemble spec tally).storedAt code j).toInt).sum +
        (bucketOrder.map fun bucket => ((assemble spec tally).bucketAt bucket j).toInt).sum =
      groupSum Row.period (·.amount.minorUnits.toInt) rows (spec.periods.get j) := by
  have cellExact : ∀ ref ∈ cells,
      (tally.cell ref j).toInt = exactCell rows spec ref (spec.periods.get j) := by
    intro ref known
    rw [cell_eq_exact distinct success, toInt_ofInt_of_fits (fits ref known)]
  have onSections : ∀ code ∈ sections, ((assemble spec tally).storedAt code j).toInt =
      exactCell rows spec (.sectionLine code) (spec.periods.get j) := by
    intro code known
    rw [storedAt_section spec tally known]
    exact cellExact _ (List.mem_append_left _ (List.mem_map_of_mem known))
  have inBuckets : ∀ bucket ∈ bucketOrder, ((assemble spec tally).bucketAt bucket j).toInt =
      exactCell rows spec (.bucketLine bucket) (spec.periods.get j) := by
    intro bucket known
    rw [bucketAt_assemble]
    exact cellExact _ (List.mem_append_right _ (List.mem_map_of_mem known))
  rw [List.map_congr_left onSections, List.map_congr_left inBuckets, ← sum_exactCell success]
  simp only [cells, List.map_append, List.map_map, List.sum_append]
  rfl

theorem conserves_of_compute {rows : List Row} {spec : Spec} (distinct : spec.periods.Nodup)
    {report : Report} (success : compute rows spec = .ok report) (fits : SumsFit rows spec report) :
    Conserves rows spec report := by
  obtain ⟨-, -, tally, folded, rfl⟩ := compute_ok_iff.mp success
  refine ⟨?_, ?_, ?_, ?_, ?_, ?_⟩
  · simp [assemble, Function.comp_def, lineOf_code]
  · intro line member
    obtain ⟨series, columns, -⟩ := mem_assemble_lines member
    simpa using congrArg List.length columns
  · intro i inside
    exact period_eq distinct folded ⟨i, inside⟩
      fun ref known => fits.cell ref known _ (List.getElem_mem inside)
  · intro line known i inside
    have exactly := fits.computed line known i inside
    have onSections : ∀ code ∈ sectionsBefore line.code,
        (assemble spec tally).storedAt code i = tally.sums code ⟨i, inside⟩ := fun code before =>
      storedAt_section spec tally (of_decide_eq_true (List.mem_filter.mp before).2) ⟨i, inside⟩
    rw [storedAt_computed spec tally known ⟨i, inside⟩, computedSeries_eq tally.sums known]
    rw [← List.map_congr_left onSections]
    have flat := @toInt_sum_of_fits
      ((sectionsBefore line.code).map fun code => (assemble spec tally).storedAt code i)
    rw [List.map_map] at flat
    exact flat exactly
  · exact fun line member => lineTotal_eq member (fits.line line member)
  · intro bucket
    have exactly := fits.bucket bucket
    simp only [assemble, toMoney, List.map_ofFn, Function.comp_def] at exactly ⊢
    have flat := @sum_toInt _ (tally.buckets bucket)
    simp only [List.map_ofFn, Function.comp_def] at flat
    exact flat exactly

theorem compute_refuses_or_conserves (rows : List Row) (spec : Spec)
    (distinct : spec.periods.Nodup) (requested : spec.periods ≠ [])
    (currency : spec.baseCurrency ≠ "") :
    ((∃ failure, compute rows spec = .error failure) ↔ ∃ row ∈ rows, Refused spec row) ∧
    ∀ report, compute rows spec = .ok report → SumsFit rows spec report →
      Conserves rows spec report := by
  refine ⟨?_, fun report success fits => conserves_of_compute distinct success fits⟩
  rw [← foldlM_error_iff rows (Tally.zero spec.periods.length)]
  unfold compute
  rw [if_neg currency, if_neg requested]
  cases rows.foldlM (addRow spec) (Tally.zero spec.periods.length) <;> simp [Except.map]

/-- A quarter's sale, costs, machine purchase, payroll, unanswered row and ledger evidence. -/
def sampleSpec : Spec where
  basis := .bank
  periods := ["2026-01", "2026-02"]
  granularity := ⟨"month"⟩
  fromMonth := "2026-01"
  toMonth := "2026-02"
  baseCurrency := "BYN"
  taxonomyVersions := []
  rulesetVersions := []
  engineVersions := []
  normalizeVersions := []

def sampleRows : List Row := [
  ⟨"2026-01", "0101", netSales, ⟨"BYN", 120000⟩, true, false, .bank⟩,
  ⟨"2026-01", "0402", opex, ⟨"BYN", -41200⟩, true, false, .bank⟩,
  ⟨"2026-02", "0701", cit, ⟨"BYN", -900⟩, true, false, .bank⟩,
  ⟨"2026-02", "0801", capex, ⟨"BYN", -70000⟩, true, false, .bank⟩,
  ⟨"2026-02", "0403", opex, ⟨"BYN", -5000⟩, true, true, .bank⟩,
  ⟨"2026-01", "", "", ⟨"BYN", 77⟩, false, false, .bank⟩,
  ⟨"2026-02", "", "", ⟨"BYN", 300⟩, false, false, .ledger⟩]

theorem compute_refuses_or_conserves_sample :
    ∃ report, compute sampleRows sampleSpec = .ok report ∧
      Conserves sampleRows sampleSpec report ∧ report.storedAt ni 0 = 78800 := by
  refine ⟨_, rfl, ?_, by decide⟩
  refine (compute_refuses_or_conserves sampleRows sampleSpec (by decide) (by decide)
    (by decide)).2 _ rfl ⟨by decide, by decide, by decide, ?_⟩
  intro bucket
  cases bucket <;> decide

end Vekst.Reports
