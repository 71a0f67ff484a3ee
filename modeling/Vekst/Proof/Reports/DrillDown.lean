import Vekst.Proof.Reports.Conservation
import Vekst.Proof.Reports.Periods
import Vekst.Reports.Service

namespace Vekst.Reports
open Calendar Relational Wrapping Isolation Ledger

/-! ## Where a transaction belongs -/

def liveClassification (d : Database) (t : TransactionRow) : Option ClassificationRow :=
  d.classifications.find? (liveFor t)

def liveCategory (d : Database) (t : TransactionRow) : Option CategoryRow :=
  (liveClassification d t).bind fun c => d.categories.find? fun cat => cat.id = c.categoryID

/-- The row `Compute` would be handed if every transaction were a row of its own. -/
def ownRow (d : Database) (t : TransactionRow) : Row where
  period := toCharMonth t.bookedOn
  categoryCode := (liveCategory d t).elim "" (·.code)
  pnlSection := (liveCategory d t).elim "" (·.pnlSection)
  amount := ⟨d.baseCurrency, t.amount⟩
  isPNL := (liveCategory d t).elim false (·.isPNL)
  requiresAllocation := (liveCategory d t).elim false (·.requiresAllocation)
  sourceKind := ⟨t.sourceKind.text⟩

/-- The states of the claims: one answer at most, of a category that exists and has a code. -/
structure Classified (d : Database) : Prop where
  oneLive : ∀ t ∈ d.transactions, (d.liveOf t.id).length ≤ 1
  named : ∀ c ∈ d.classifications, c.live → ∃ cat ∈ d.categories, cat.id = c.categoryID
  keyed : (d.categories.map (·.id)).Nodup
  coded : ∀ c ∈ d.classifications, c.live → ∀ cat ∈ d.categories, cat.id = c.categoryID →
    cat.code ≠ ""

theorem Classified.classification_functional {d : Database} (classified : Classified d)
    {rows : List TransactionRow} (stored : rows ⊆ d.transactions) :
    Functional rows d.classifications liveFor :=
  fun t member => classified.oneLive t (stored member)

theorem unanswered_iff {d : Database} {t : TransactionRow} :
    unanswered d t ↔ liveClassification d t = none := by
  simp [unanswered, liveClassification]

theorem liveCategory_of_unanswered {d : Database} {t : TransactionRow}
    (none : liveClassification d t = none) : liveCategory d t = .none := by
  simp [liveCategory, none]

theorem Classified.category {d : Database} (classified : Classified d) {t : TransactionRow}
    {c : ClassificationRow} (answered : liveClassification d t = some c) :
    ∃ cat, cat.code ≠ "" ∧ liveCategory d t = some cat := by
  have known := List.mem_of_find?_eq_some answered
  have live : c.live := by
    have both := List.find?_some answered
    simp only [liveFor, Bool.and_eq_true] at both
    exact both.2
  obtain ⟨cat, stored, same⟩ := classified.named c known live
  cases found : d.categories.find? (fun cat => cat.id = c.categoryID) with
  | none => simpa [same] using List.find?_eq_none.mp found cat stored
  | some other =>
      refine ⟨other, classified.coded c known live other (List.mem_of_find?_eq_some found) ?_, ?_⟩
      · simpa using List.find?_some found
      · simp [liveCategory, answered, found]

/-! ## The report's rows, transaction by transaction -/

theorem toInt_of_bigint {n : ℤ} {x : Int64} (cast : bigint n = .ok x) : x.toInt = n := by
  unfold bigint at cast
  split_ifs at cast with fits
  obtain rfl := Except.ok.inj cast
  exact toInt_ofInt_of_fits fits

/-- A query's grouped sums, over the groups of interest, are the sum over their rows. -/
theorem sum_bigint_groups {α κ β : Type} [DecidableEq κ] (key : α → κ)
    (txn : α → TransactionRow) {rows : List α} {listed : List (κ × List α)}
    (sorted : listed.Perm (groups key rows)) (make : κ → Int64 → β) {out : List β}
    (success : listed.mapM (fun group =>
      (bigint (exactSum (group.2.map txn))).map (make group.1)) = .ok out)
    (keep : κ → Bool) (part : β → ℤ)
    (kept : ∀ k n, part (make k n) = if keep k then n.toInt else 0) :
    (out.map part).sum =
      (rows.map fun a => if keep (key a) then (txn a).amount.toInt else 0).sum := by
  have translated := sum_mapM success part
    (fun group => if keep group.1 then (group.2.map fun a => (txn a).amount.toInt).sum else 0)
  rw [translated, sum_ite_groups key (fun a => (txn a).amount.toInt) rows keep sorted]
  intro group _ row cast
  cases summed : bigint (exactSum (group.2.map txn)) with
  | error e => simp [summed, Except.map] at cast
  | ok n =>
      obtain rfl : make group.1 n = row := by simpa [summed, Except.map] using cast
      rw [kept, toInt_of_bigint summed, exactSum, List.map_map]
      rfl

theorem sum_periodTotals {rows : List TransactionRow} {totals : List PeriodTotal}
    (success : periodTotals rows = .ok totals) (keep : String → Bool) :
    (totals.map fun u => if keep u.period then u.amountMinor.toInt else 0).sum =
      (rows.map fun t => if keep (toCharMonth t.bookedOn) then t.amount.toInt else 0).sum := by
  have sorted := List.perm_insertionSort (fun a b : String × List TransactionRow => a.1 ≤ b.1)
    (groups (fun t => toCharMonth t.bookedOn) rows)
  apply sum_bigint_groups (fun t : TransactionRow => toCharMonth t.bookedOn) (fun t => t) sorted
    PeriodTotal.mk _ keep
  · intro k n
    rfl
  · simpa [periodTotals] using success

theorem sum_reportLines {d : Database} {args : Args} {lines : List ReportLine}
    (success : reportLines d args = .ok lines) (keep : ReportKey → Bool) :
    (lines.map fun l => if keep l.key then l.amountMinor.toInt else 0).sum =
      ((classifiedRows d args).map fun row =>
        if keep (reportKey row) then row.1.1.amount.toInt else 0).sum :=
  sum_bigint_groups reportKey (·.1.1) (List.perm_insertionSort _ _) ReportLine.mk success keep _
    fun _ _ => rfl

theorem Classified.classifiedRows_eq {d : Database} (classified : Classified d) (args : Args) :
    classifiedRows d args = (scope d args).filterMap fun t =>
      (liveClassification d t).bind fun c => (liveCategory d t).map fun cat => ((t, c), cat) := by
  have answers : Functional (scope d args) d.classifications liveFor :=
    classified.classification_functional fun t member => (List.mem_filter.mp member).1
  rw [classifiedRows, innerJoin_eq_filterMap answers, innerJoin_eq_filterMap, List.filterMap_filterMap]
  · apply List.filterMap_congr
    intro t _
    cases answer : d.classifications.find? (liveFor t) with
    | none => simp [liveClassification, answer]
    | some c => simp [liveClassification, liveCategory, answer]
  · apply Functional.of_key (·.id) classified.keyed
    intro row cat other first second
    simp only [decide_eq_true_eq] at first second
    exact first.trans second.symm

/-! ## What a report was computed from -/

def Prepared.args (prep : Prepared) (req : Request) : Args where
  entityID := req.entityID
  sourceKind := req.basis.name
  fromDate := prep.fromDate
  toDate := prep.toDate

/-- The rows the three reads of one state contribute. -/
structure RowsOf (d : Database) (req : Request) (args : Args)
    (classified unclassified other : List Row) : Prop where
  lines : ∃ lines, reportLines d args = .ok lines ∧
    lines.mapM (lineRow req d.baseCurrency) = .ok classified
  totals : ∃ totals, reportUnclassifiedTotals d args = .ok totals ∧
    totals.mapM (totalRow req d.baseCurrency req.basis) = .ok unclassified
  others : ∃ totals, reportOtherBasisTotals d args = .ok totals ∧
    totals.mapM (totalRow req d.baseCurrency (otherKind req.basis)) = .ok other

theorem readReport_ok {req : Request} {prep : Prepared} {d after : Database} {read : Read}
    (success : (readReport req prep).run Database.apply d = .ok (read, after)) :
    ∃ classified unclassified other,
      RowsOf d req (prep.args req) classified unclassified other ∧
        read.rows = classified ++ unclassified ++ other ∧ read.spec.basis = req.basis ∧
        read.spec.periods = prep.periods ∧ read.spec.baseCurrency = d.baseCurrency ∧
        (reconciliation req prep.periods d.baseCurrency).run Database.apply d =
          .ok (read.strip, after) := by
  unfold readReport at success
  obtain ⟨baseCcy, _, first, success⟩ := (Prog.run_bind_ok _).mp success
  obtain ⟨same, rfl⟩ := (Prog.run_query_ok _).mp first
  obtain rfl := Except.ok.inj same
  split_ifs at success with missing
  · simp at success
  obtain ⟨lines, _, first, success⟩ := (Prog.run_bind_ok _).mp success
  obtain ⟨queried, rfl⟩ := (Prog.run_query_ok _).mp first
  obtain ⟨classified, _, first, success⟩ := (Prog.run_bind_ok _).mp success
  obtain ⟨labelled, rfl⟩ := (Prog.run_ofExcept_ok _).mp first
  obtain ⟨totals, _, first, success⟩ := (Prog.run_bind_ok _).mp success
  obtain ⟨totalled, rfl⟩ := (Prog.run_query_ok _).mp first
  obtain ⟨unclassified, _, first, success⟩ := (Prog.run_bind_ok _).mp success
  obtain ⟨totalLabelled, rfl⟩ := (Prog.run_ofExcept_ok _).mp first
  obtain ⟨others, _, first, success⟩ := (Prog.run_bind_ok _).mp success
  obtain ⟨evidenced, rfl⟩ := (Prog.run_query_ok _).mp first
  obtain ⟨other, _, first, success⟩ := (Prog.run_bind_ok _).mp success
  obtain ⟨otherLabelled, rfl⟩ := (Prog.run_ofExcept_ok _).mp first
  obtain ⟨strip, _, reconciled, success⟩ := (Prog.run_bind_ok _).mp success
  obtain ⟨versions, _, first, success⟩ := (Prog.run_bind_ok _).mp success
  obtain ⟨-, rfl⟩ := (Prog.run_query_ok _).mp first
  obtain ⟨rfl, rfl⟩ := Prod.mk.inj (Except.ok.inj success)
  exact ⟨classified, unclassified, other, ⟨⟨lines, queried, labelled⟩,
    ⟨totals, totalled, totalLabelled⟩, ⟨others, evidenced, otherLabelled⟩⟩, rfl, rfl, rfl, rfl,
    reconciled⟩

theorem prepare_ok {req : Request} {prep : Prepared} (success : prepare req = .ok prep) :
    monthRange req.fromMonth req.toMonth = .ok (prep.fromDate, prep.toDate) ∧
      (req.basis = .ledger ∨ req.basis = .bank) ∧
      periods req.fromMonth req.toMonth req.granularity = .ok prep.periods := by
  unfold prepare at success
  cases range : monthRange req.fromMonth req.toMonth with
  | error e => simp [range] at success
  | ok dates =>
      obtain ⟨fromDate, toDate⟩ := dates
      simp only [range] at success
      split_ifs at success with unknown
      cases listed : periods req.fromMonth req.toMonth req.granularity with
      | error e => simp [listed] at success
      | ok labels =>
          simp only [listed, Except.ok.injEq] at success
          subst success
          exact ⟨rfl, by tauto, rfl⟩

/-- A report that is answered was read in one transaction of a member. -/
theorem managementPNL_read {userID : UUID} {req : Request} {d : Database} {report : Report}
    (success : managementPNL userID req d = .ok report) :
    ∃ prep read after computed, prepare req = .ok prep ∧ d.members.any (·.userID = userID) ∧
      (readReport req prep).run Database.apply d = .ok (read, after) ∧
      compute read.rows read.spec = .ok computed ∧
      report = { computed with reconciliation := read.strip } := by
  unfold managementPNL at success
  cases prepared : prepare req with
  | error e => simp [prepared, bind, Except.bind] at success
  | ok prep =>
      cases member : (bindMember userID).run Database.apply d with
      | error e => simp [prepared, member, bind, Except.bind] at success
      | ok _ =>
          have belongs : d.members.any (·.userID = userID) := by
            by_contra other
            simp only [bindMember, Prog.run_query, other] at member
            cases member
          cases body : (readReport req prep).run Database.apply d with
          | error e => simp [prepared, member, body, bind, Except.bind] at success
          | ok result =>
              obtain ⟨read, after⟩ := result
              simp only [prepared, member, body, bind, Except.bind, finishReport, lift] at success
              cases computed : compute read.rows read.spec with
              | error e => simp [computed, Except.mapError, Except.map] at success
              | ok inner =>
                  simp only [computed, Except.mapError, Except.map, Except.ok.injEq] at success
                  exact ⟨prep, read, after, inner, rfl, belongs, body, computed, success.symm⟩

theorem managementPNL_ok {userID : UUID} {req : Request} {d : Database} {report : Report}
    (success : managementPNL userID req d = .ok report) :
    ∃ prep classified unclassified other spec, prepare req = .ok prep ∧
      RowsOf d req (prep.args req) classified unclassified other ∧ spec.basis = req.basis ∧
      spec.periods = prep.periods ∧
      ∃ computed, compute (classified ++ unclassified ++ other) spec = .ok computed ∧
        report = { computed with reconciliation := report.reconciliation } := by
  obtain ⟨prep, read, after, computed, prepared, -, body, succeeded, rfl⟩ :=
    managementPNL_read success
  obtain ⟨classified, unclassified, other, rows, parts, basis, columns, -⟩ := readReport_ok body
  exact ⟨prep, classified, unclassified, other, read.spec, prepared, rows, basis, columns, computed,
    parts ▸ succeeded, rfl⟩

/-! ## A figure is the sum of its transactions -/

/-- What a row adds to a cell of a column. -/
def rowShare (spec : Spec) (period : String) (ref : LineRef) (row : Row) : ℤ :=
  if row.period = period ∧ place spec row = .ok ref then row.amount.minorUnits.toInt else 0

/-- What a transaction adds to a cell of a column. -/
def share (d : Database) (spec : Spec) (g : Granularity) (period : String) (ref : LineRef)
    (t : TransactionRow) : ℤ :=
  if labelled g (toCharMonth t.bookedOn) = .ok period ∧ place spec (ownRow d t) = .ok ref then
    t.amount.toInt
  else 0

theorem place_congr {spec : Spec} {row other : Row} (kind : row.sourceKind = other.sourceKind)
    (code : row.categoryCode = other.categoryCode) (pnl : row.isPNL = other.isPNL)
    (allocation : row.requiresAllocation = other.requiresAllocation)
    (ofSection : row.pnlSection = other.pnlSection) : place spec row = place spec other := by
  unfold place
  rw [kind, code, pnl, allocation, ofSection]

theorem exactCell_eq_sum (rows : List Row) (spec : Spec) (ref : LineRef) (period : String) :
    exactCell rows spec ref period = (rows.map (rowShare spec period ref)).sum := by
  rw [exactCell, groupSum, sum_filter]
  unfold rowShare
  simp only [Prod.mk.injEq, decide_eq_true_eq]

section Shares

variable {d : Database} {req : Request} {spec : Spec} {period : String} {ref : LineRef}

theorem sum_totalRows {rows : List TransactionRow} {totals : List PeriodTotal} {out : List Row}
    {kind : Basis} {cell : LineRef} (queried : periodTotals rows = .ok totals)
    (translated : totals.mapM (totalRow req d.baseCurrency kind) = .ok out)
    (placed : ∀ label amount, place spec ⟨label, "", "", amount, false, false, kind⟩ = .ok cell)
    (own : ∀ t ∈ rows, place spec (ownRow d t) = .ok cell) :
    (out.map (rowShare spec period ref)).sum =
      (rows.map (share d spec req.granularity period ref)).sum := by
  rw [sum_mapM translated (rowShare spec period ref) fun u =>
      if decide (labelled req.granularity u.period = .ok period ∧ cell = ref) then
        u.amountMinor.toInt else 0,
    sum_periodTotals queried fun month =>
      decide (labelled req.granularity month = .ok period ∧ cell = ref)]
  · apply congrArg
    apply List.map_congr_left
    intro t member
    simp [share, own t member]
  · intro u _ row success
    unfold totalRow at success
    cases label : labelled req.granularity u.period with
    | error e => simp [label, Except.map] at success
    | ok text =>
        obtain rfl := by simpa [label, Except.map] using success
        simp [rowShare, placed]

theorem sum_lineRows (classified : Classified d) {args : Args} {lines : List ReportLine}
    {out : List Row} (basis : args.sourceKind = req.basis.name)
    (queried : reportLines d args = .ok lines)
    (translated : lines.mapM (lineRow req d.baseCurrency) = .ok out) :
    (out.map (rowShare spec period ref)).sum = ((scope d args).map fun t =>
      if unanswered d t then 0 else share d spec req.granularity period ref t).sum := by
  let keyRow (k : ReportKey) : Row :=
    ⟨"", k.categoryCode, k.pnlSection, ⟨"", 0⟩, k.isPNL, k.requiresAllocation, req.basis⟩
  let keep (k : ReportKey) : Bool :=
    decide (labelled req.granularity k.period = .ok period ∧ place spec (keyRow k) = .ok ref)
  rw [sum_mapM translated (rowShare spec period ref) fun l =>
      if keep l.key then l.amountMinor.toInt else 0,
    sum_reportLines queried keep, classified.classifiedRows_eq, sum_filterMap]
  · apply congrArg
    apply List.map_congr_left
    intro t member
    have kind : (⟨t.sourceKind.text⟩ : Basis) = req.basis := by
      have both := (List.mem_filter.mp member).2
      simp only [Bool.and_eq_true, decide_eq_true_eq] at both
      rw [both.2, basis]
    cases answer : liveClassification d t with
    | none => simp [unanswered_iff.mpr answer]
    | some c =>
        obtain ⟨cat, -, found⟩ := classified.category answer
        have answered : unanswered d t = false := by
          rw [← Bool.not_eq_true, unanswered_iff, answer]
          simp
        have sameRow : place spec (keyRow (reportKey ((t, c), cat))) = place spec (ownRow d t) := by
          apply place_congr
          · exact kind.symm
          all_goals simp [keyRow, reportKey, ownRow, found]
        have kept : keep (reportKey ((t, c), cat)) =
            decide (labelled req.granularity (toCharMonth t.bookedOn) = .ok period ∧
              place spec (ownRow d t) = .ok ref) := by
          simp only [keep, sameRow]
          rfl
        simp [answered, found, kept, share]
  · intro l _ row success
    unfold lineRow at success
    cases label : labelled req.granularity l.key.period with
    | error e => simp [label, Except.map] at success
    | ok text =>
        obtain rfl := by simpa [label, Except.map] using success
        simp [rowShare, keep, keyRow, place, label]

theorem place_unanswered (sameBasis : spec.basis = req.basis) {t : TransactionRow}
    (kind : t.sourceKind.text = req.basis.name) (none : liveClassification d t = none) :
    place spec (ownRow d t) = .ok (.bucketLine .unclassified) := by
  have own : (⟨t.sourceKind.text⟩ : Basis) = spec.basis := by rw [kind, sameBasis]
  simp [place, ownRow, own, liveCategory_of_unanswered none]

theorem place_other (sameBasis : spec.basis = req.basis) {t : TransactionRow}
    (kind : t.sourceKind.text ≠ req.basis.name) :
    place spec (ownRow d t) = .ok (.bucketLine .otherBasis) := by
  have foreign : (⟨t.sourceKind.text⟩ : Basis) ≠ spec.basis := by
    intro own
    rw [sameBasis] at own
    exact kind (congrArg Basis.name own)
  simp [place, ownRow, foreign]

theorem otherKind_ne (basis : Basis) (known : basis = .ledger ∨ basis = .bank) :
    otherKind basis ≠ basis := by
  rcases known with rfl | rfl <;> decide

/-- A cell of the report adds up the transactions of its column that belong in it. -/
theorem exactCell_eq_shares (classified : Classified d) (sameBasis : spec.basis = req.basis)
    (known : req.basis = .ledger ∨ req.basis = .bank) {args : Args}
    (basis : args.sourceKind = req.basis.name) {lines totals others : List Row}
    (rows : RowsOf d req args lines totals others) :
    exactCell (lines ++ totals ++ others) spec ref period =
      ((d.transactions.filter args.covers).map (share d spec req.granularity period ref)).sum := by
  obtain ⟨reported, queried, translated⟩ := rows.lines
  obtain ⟨unanswereds, unansweredQueried, unansweredTranslated⟩ := rows.totals
  obtain ⟨evidence, evidenceQueried, evidenceTranslated⟩ := rows.others
  have ownKind {t : TransactionRow} (member : t ∈ scope d args) :
      t.sourceKind.text = req.basis.name := by
    have both := (List.mem_filter.mp member).2
    simp only [Bool.and_eq_true, decide_eq_true_eq] at both
    rw [both.2, basis]
  have notCode (label : String) (amount : Money) :
      place spec ⟨label, "", "", amount, false, false, req.basis⟩ =
        .ok (.bucketLine .unclassified) := by
    simp [place, sameBasis]
  have foreign (label : String) (amount : Money) :
      place spec ⟨label, "", "", amount, false, false, otherKind req.basis⟩ =
        .ok (.bucketLine .otherBasis) := by
    simp [place, sameBasis, otherKind_ne req.basis known]
  rw [exactCell_eq_sum, List.map_append, List.map_append, List.sum_append, List.sum_append,
    sum_lineRows classified basis queried translated,
    sum_totalRows unansweredQueried unansweredTranslated notCode fun t member =>
      place_unanswered sameBasis (ownKind (List.mem_filter.mp member).1)
        (unanswered_iff.mp (List.mem_filter.mp member).2),
    sum_totalRows evidenceQueried evidenceTranslated foreign fun t member =>
      place_other sameBasis ?_]
  · rw [sum_filter, sum_filter, scope, sum_filter, sum_filter, sum_filter, ← List.sum_map_add,
      ← List.sum_map_add]
    apply congrArg
    apply List.map_congr_left
    intro t _
    by_cases inside : args.covers t <;> by_cases own : t.sourceKind.text = args.sourceKind <;>
      by_cases open_ : unanswered d t <;> simp [inside, own, open_]
  · have both := (List.mem_filter.mp member).2
    simp only [Bool.and_eq_true, decide_eq_true_eq] at both
    rw [← basis]
    exact both.2

end Shares

/-! ## What a selection selects -/

theorem cellRows_eq {d : Database} (oneLive : ∀ t ∈ d.transactions, (d.liveOf t.id).length ≤ 1)
    (keyed : (d.categories.map (·.id)).Nodup) (args : Args) :
    cellRows d args = (d.transactions.filter args.covers).map fun t =>
      ⟨t, liveClassification d t, liveCategory d t⟩ := by
  have answers : Functional (d.transactions.filter args.covers) d.classifications liveFor :=
    fun t member => oneLive t (List.mem_filter.mp member).1
  rw [cellRows, leftJoin_eq_map answers, leftJoin_eq_map, List.map_map, List.map_map]
  · apply List.map_congr_left
    intro t _
    cases answer : d.classifications.find? (liveFor t) with
    | none => simp [liveClassification, liveCategory, answer]
    | some c => simp [liveClassification, liveCategory, answer]
  · apply Functional.of_key (·.id) keyed
    intro row cat other first second
    simp only [Option.any_eq_true, decide_eq_true_eq] at first second
    obtain ⟨c, answer, same⟩ := first
    obtain ⟨c', answer', same'⟩ := second
    obtain rfl := Option.some.inj (answer.symm.trans answer')
    exact same.trans same'.symm

theorem Classified.cellRows_eq {d : Database} (classified : Classified d) (args : Args) :
    cellRows d args = (d.transactions.filter args.covers).map fun t =>
      ⟨t, liveClassification d t, liveCategory d t⟩ :=
  Reports.cellRows_eq classified.oneLive classified.keyed args

theorem section_not_bucket {code : String} (known : code ∈ sections) :
    code ≠ "other_basis" ∧ code ≠ "unclassified" ∧ code ≠ "non_pnl" ∧ code ≠ "unallocated" ∧
      code ∉ nonPNLSections := by
  have apart : ∀ code ∈ sections, code ≠ "other_basis" ∧ code ≠ "unclassified" ∧
      code ≠ "non_pnl" ∧ code ≠ "unallocated" ∧ code ∉ nonPNLSections := by decide
  exact apart code known

theorem section_of_mem_cells {code : String} (known : .sectionLine code ∈ cells) :
    code ∈ sections := by
  rcases List.mem_append.mp known with line | bucket
  · obtain ⟨_, member, same⟩ := List.mem_map.mp line
    exact LineRef.sectionLine.inj same ▸ member
  · obtain ⟨_, _, same⟩ := List.mem_map.mp bucket
    cases same

/-- The predicate of the drill-down is the switch of `Compute`, transaction by transaction. -/
theorem onLine_iff_place {d : Database} (classified : Classified d) {spec : Spec}
    (t : TransactionRow) {ref : LineRef} (known : ref ∈ cells) :
    (CellRow.mk t (liveClassification d t) (liveCategory d t)).onLine spec.basis.name ref.string ↔
      place spec (ownRow d t) = .ok ref := by
  have kind : (⟨t.sourceKind.text⟩ : Basis) = spec.basis ↔ t.sourceKind.text = spec.basis.name :=
    ⟨fun same => congrArg Basis.name same, fun same => congrArg Basis.mk same⟩
  have lines : ∀ code, ref = .sectionLine code → code ≠ "other_basis" ∧ code ≠ "unclassified" ∧
      code ≠ "non_pnl" ∧ code ≠ "unallocated" ∧ code ∉ nonPNLSections := by
    rintro code rfl
    exact section_not_bucket (section_of_mem_cells known)
  simp only [CellRow.onLine, place, ownRow, ne_eq, kind]
  by_cases own : t.sourceKind.text = spec.basis.name
  · cases answer : liveClassification d t with
    | none =>
        have category := liveCategory_of_unanswered answer
        cases ref with
        | sectionLine code =>
            obtain ⟨other, open_, out, shared, -⟩ := lines code rfl
            simp [LineRef.string, own, category, other, open_, out, shared]
        | bucketLine bucket => cases bucket <;> simp [LineRef.string, Bucket.name, own, category]
    | some c =>
        obtain ⟨cat, code, category⟩ := classified.category answer
        have off : cat.pnlSection ∈ nonPNLSections ↔
            cat.pnlSection = "08" ∨ cat.pnlSection = "09" := by
          simp [nonPNLSections]
        have apart : cat.pnlSection ∈ sections → cat.pnlSection ∉ nonPNLSections :=
          fun onTable => (section_not_bucket onTable).2.2.2.2
        cases ref with
        | sectionLine line =>
            obtain ⟨other, open_, out, shared, -⟩ := lines line rfl
            have printed := section_of_mem_cells known
            have itself : cat.pnlSection = line → cat.pnlSection ∈ sections :=
              fun same => same ▸ printed
            simp only [LineRef.string, own, category, other, open_, out, shared]
            cases cat.isPNL <;> cases cat.requiresAllocation <;> simp <;> grind
        | bucketLine bucket =>
            rw [off] at apart
            cases bucket <;> simp only [LineRef.string, Bucket.name, own, category]
            all_goals cases cat.isPNL <;> cases cat.requiresAllocation <;> simp <;> grind
  · cases ref with
    | sectionLine code =>
        obtain ⟨other, -⟩ := lines code rfl
        simp [LineRef.string, own, other]
    | bucketLine bucket => cases bucket <;> simp [LineRef.string, Bucket.name, own]

end Vekst.Reports
