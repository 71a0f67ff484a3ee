import Mathlib.Algebra.BigOperators.Fin
import Vekst.Proof.Reports.Agreement
import Vekst.Proof.Reports.Months

namespace Vekst.Reports
open Calendar Ledger Relational

section

variable {d : Database} {req : Request} {first last : Month} {report : Report}

/-- The net income of all the columns together, and with it what stands in no line. -/
def Report.bottomLine (report : Report) : Int64 :=
  (report.line ni).elim 0 (·.total.amount.minorUnits) +
    (bucketOrder.map fun bucket => (report.totals bucket).minorUnits).sum

/-- What a report is about, whatever its basis. -/
def inReport (req : Request) (first last : Month) (t : TransactionRow) : Bool :=
  decide (t.entityID = req.entityID ∧ first ≤ t.bookedOn.toMonth ∧ t.bookedOn.toMonth ≤ last)

/-- Every month of a request has its column. -/
theorem column_of_month {m : Month} {g : Granularity} {out : List String} (firstFits : FourDigit first)
    (lastFits : FourDigit last) (success : periods (monthText first) (monthText last) g = .ok out)
    (lower : first ≤ m) (upper : m ≤ last) : ∃ period ∈ out, g.column m = .ok period := by
  obtain ⟨listed, labels, listing, labelling, rfl⟩ := periods_ok success
  simp only [months, parseMonth_monthText firstFits, parseMonth_monthText lastFits, bind,
    Except.bind] at listing
  split_ifs at listing
  split at listing
  next => cases listing
  next texts found =>
    obtain rfl := Except.ok.inj listing
    have ahead : ∀ other, first ≤ other → other ≤ m → ¬ monthText last < monthText other := by
      intro other after before
      rw [monthText_lt_iff lastFits (firstFits.between lastFits after (before.trans upper))]
      exact not_lt.mpr (before.trans upper)
    have known := mem_monthsFrom_of_ahead found lower ahead
    obtain ⟨label, member, own⟩ :=
      Relational.exists_of_mapM labelling ((List.mem_insertionSort (· ≤ ·)).mpr known)
    refine ⟨label, mem_foldl_addLabel.mpr (.inl member), ?_⟩
    rwa [label_monthText (firstFits.between lastFits lower upper)] at own

/-- The switch looks at the basis of the report alone. -/
theorem place_basis {spec other : Spec} (same : spec.basis = other.basis) : place spec = place other := by
  funext row
  rw [place, place, same]

/-- What a report is computed from: the rows of the transactions of its entity and months, under
its own basis and columns. -/
theorem computed_of_success (asks : req.Asks first last) {userID : UUID}
    (success : managementPNL userID req d = .ok report) :
    ∃ args lines totals others computed, (∀ t, args.covers t ↔ t.entityID = req.entityID ∧
        first ≤ t.bookedOn.toMonth ∧ t.bookedOn.toMonth ≤ last) ∧
      args.sourceKind = req.basis.name ∧ (req.basis = .ledger ∨ req.basis = .bank) ∧
      RowsOf d req args lines totals others ∧
      compute (lines ++ totals ++ others) report.spec = .ok computed ∧
      report = { computed with reconciliation := report.reconciliation } := by
  obtain ⟨prep, lines, totals, others, spec, prepared, rows, -, columns, computed, succeeded, same⟩ :=
    managementPNL_ok success
  obtain ⟨range, knownBasis, -⟩ := prepare_ok prepared
  have sameSpec : report.spec = spec := by
    obtain ⟨-, -, tally, -, rfl⟩ := compute_ok_iff.mp succeeded
    rw [same]
    rfl
  rw [asks.fromText, asks.toText] at range
  rw [monthRange_monthText asks.firstFits asks.lastFits asks.ordered] at range
  refine ⟨prep.args req, lines, totals, others, computed, fun t => ?_, rfl, knownBasis, rows,
    sameSpec ▸ succeeded, same⟩
  rw [Args.covers_iff, ← Date.between_iff]
  obtain ⟨fromDate, toDate⟩ := Prod.mk.inj (Except.ok.inj range)
  rw [fromDate, toDate]
  rfl

theorem spec_of_success {userID : UUID} (success : managementPNL userID req d = .ok report) :
    report.spec.basis = req.basis ∧
      periods req.fromMonth req.toMonth req.granularity = .ok report.spec.periods := by
  obtain ⟨prep, lines, totals, others, spec, prepared, -, basis, columns, computed, succeeded, same⟩ :=
    managementPNL_ok success
  have sameSpec : report.spec = spec := by
    obtain ⟨-, -, tally, -, rfl⟩ := compute_ok_iff.mp succeeded
    rw [same]
    rfl
  rw [sameSpec, columns]
  exact ⟨basis, (prepare_ok prepared).2.2⟩

theorem sum_eq_sum {n : Nat} (series : Series n) : sum series = ∑ i, series i := by
  rw [sum, List.sum_ofFn]

theorem sum_range (n : Nat) (f : Nat → Int64) : ((List.range n).map f).sum = ∑ i : Fin n, f i := by
  rw [← List.sum_ofFn]
  congr 1
  exact List.ext_getElem (by simp) (by simp)

/-- The bottom line gathers every cell of every column. -/
theorem bottomLine_eq {rows : List Row} {spec : Spec} {computed : Report}
    (success : compute rows spec = .ok computed)
    (same : report = { computed with reconciliation := report.reconciliation }) :
    report.bottomLine =
      (cells.map fun ref => ((List.range spec.periods.length).map (report.cellAt ref)).sum).sum := by
  obtain ⟨-, -, tally, -, rfl⟩ := compute_ok_iff.mp success
  have line : (report.line ni).elim 0 (·.total.amount.minorUnits) =
      (sections.map fun code => ∑ i, tally.sums code i).sum := by
    have known : (⟨ni, "NI", "IBT - CIT", [ibt], [cit]⟩ : ComputedLine) ∈ chain := by decide
    have before : sectionsBefore ni = sections := by decide
    have line : report.line ni = some (lineOf spec tally ni) := by
      rw [same]
      exact assemble_line spec tally (computed_mem_order known)
    rw [line, Option.elim_some, lineOf_computed spec tally known, buildLine_total, sum_eq_sum,
      Finset.sum_congr rfl fun i _ => computedSeries_eq tally.sums known i, before]
    simp only [sections, List.map_cons, List.map_nil, List.sum_cons, List.sum_nil, add_zero,
      Finset.sum_add_distrib]
  have cell : ∀ ref ∈ cells, ((List.range spec.periods.length).map (report.cellAt ref)).sum =
      ∑ i, tally.cell ref i := by
    intro ref known
    rw [sum_range]
    apply Finset.sum_congr rfl
    intro i _
    rw [same]
    cases ref with
    | sectionLine code => exact storedAt_section spec tally (section_of_mem_cells known) i
    | bucketLine bucket => exact bucketAt_assemble spec tally bucket i
  have totals : ∀ bucket, (report.totals bucket).minorUnits = ∑ i, tally.buckets bucket i := by
    intro bucket
    rw [same]
    exact sum_eq_sum _
  rw [Report.bottomLine, line, List.map_congr_left cell, List.map_congr_left fun bucket _ =>
    totals bucket, cells, List.map_append, List.sum_append, List.map_map, List.map_map]
  rfl

section Reported

variable {userID : UUID} (classified : Classified d) (asks : req.Asks first last)
  (success : managementPNL userID req d = .ok report)

include classified asks success

/-- A figure of a report adds up the transactions of its column that belong in its cell. -/
theorem figure_of_success {ref : LineRef} (known : ref ∈ cells) {i : Nat}
    (inside : i < report.spec.periods.length) :
    report.cellAt ref i = Int64.ofInt (exactSum (d.transactions.filter
      (belongs d req first last report.spec.periods[i] report.spec ref))) := by
  obtain ⟨args, lines, totals, others, computed, covers, kind, knownBasis, rows, succeeded, same⟩ :=
    computed_of_success asks success
  obtain ⟨basis, listed⟩ := spec_of_success success
  rw [exactSum_belongs asks covers, ← exactCell_eq_shares classified basis knownBasis kind rows]
  exact cellAt_eq (nodup_periods listed) succeeded same known ⟨i, inside⟩

/-- Every transaction of the report's entity and months has a cell. -/
theorem cell_of_success {t : TransactionRow} (stored : t ∈ d.transactions)
    (entity : t.entityID = req.entityID)
    (months : first ≤ t.bookedOn.toMonth ∧ t.bookedOn.toMonth ≤ last) :
    ∃ ref ∈ cells, place report.spec (ownRow d t) = .ok ref := by
  obtain ⟨args, lines, totals, others, computed, covers, kind, -, rows, succeeded, -⟩ :=
    computed_of_success asks success
  exact placed_of_success classified kind (spec_of_success success).1 rows succeeded stored
    ((covers t).mpr ⟨entity, months⟩)

/-- The columns of a line share out the transactions that stand on it. -/
theorem lineTotal_of_success {ref : LineRef} (known : ref ∈ cells) :
    ((List.range report.spec.periods.length).map (report.cellAt ref)).sum =
      groupSum (fun t => place report.spec (ownRow d t)) (·.amount)
        (d.transactions.filter (inReport req first last)) (.ok ref) := by
  have listed := (spec_of_success success).2
  have distinct := nodup_periods listed
  rw [asks.fromText, asks.toText] at listed
  have figures : (List.range report.spec.periods.length).map (report.cellAt ref) =
      (report.spec.periods.map Except.ok).map (groupSum
        (fun t : TransactionRow => req.granularity.column t.bookedOn.toMonth) (·.amount)
        ((d.transactions.filter (inReport req first last)).filter fun t =>
          place report.spec (ownRow d t) = .ok ref)) := by
    apply List.ext_getElem (by simp)
    intro i inside _
    have column : i < report.spec.periods.length := by simpa using inside
    simp only [List.getElem_map, List.getElem_range]
    rw [figure_of_success classified asks success known column, exactSum,
      ← Wrapping.sum_map_ofInt_toInt, groupSum, List.filter_filter, List.filter_filter]
    congr 2
    apply List.filter_congr
    intro t _
    rw [belongs, inReport, Bool.eq_iff_iff]
    simp only [Bool.and_eq_true, decide_eq_true_eq]
    tauto
  rw [figures, sum_groupSum _ _ _ (distinct.map fun _ _ => Except.ok.inj), groupSum]
  intro t member
  obtain ⟨-, lower, upper⟩ :=
    of_decide_eq_true (List.mem_filter.mp (List.mem_filter.mp member).1).2
  obtain ⟨period, shown, column⟩ := column_of_month asks.firstFits asks.lastFits listed lower upper
  rw [column]
  exact List.mem_map_of_mem shown

/-- The bottom line of a report is the transactions of its entity and months, each once. -/
theorem bottomLine_of_success : report.bottomLine =
    ((d.transactions.filter (inReport req first last)).map (·.amount)).sum := by
  obtain ⟨args, lines, totals, others, computed, -, -, -, -, succeeded, same⟩ :=
    computed_of_success asks success
  rw [bottomLine_eq succeeded same, List.map_congr_left fun ref known =>
    lineTotal_of_success classified asks success known]
  have lines : cells.map (fun ref => groupSum (fun t => place report.spec (ownRow d t)) (·.amount)
      (d.transactions.filter (inReport req first last)) (.ok ref)) = (cells.map Except.ok).map
        (groupSum (fun t => place report.spec (ownRow d t)) (·.amount)
          (d.transactions.filter (inReport req first last))) := by
    rw [List.map_map]
    rfl
  rw [lines]
  have apart : (cells.map (Except.ok : LineRef → Except Failure LineRef)).Nodup :=
    List.Nodup.map (fun _ _ => Except.ok.inj) (by decide)
  refine sum_groupSum _ _ _ apart _ fun t member => ?_
  obtain ⟨stored, asked⟩ := List.mem_filter.mp member
  obtain ⟨entity, months⟩ := of_decide_eq_true asked
  obtain ⟨ref, known, placed⟩ := cell_of_success classified asks success stored entity months
  rw [placed]
  exact List.mem_map_of_mem known

end Reported

end

end Vekst.Reports
