import Vekst.Proof.Ledger.Emitted
import Vekst.Proof.Reports.Columns
import Vekst.Proof.Reports.Transfers

namespace Vekst.Reports
open Calendar Relational Wrapping Isolation Ledger Dedup

/-- What the primary keys of the tables of pairs promise. -/
structure PairKeys (d : Database) : Prop where
  members : (d.transferMembers.map (·.txnID)).Nodup
  transfers : (d.transfers.map (·.id)).Nodup

/-- Everything of the entity and basis booked before a date. -/
def balanceBefore (d : Database) (req : Request) (before : Date) : ℤ :=
  exactSum (d.transactions.filter fun t =>
    t.entityID = req.entityID && t.sourceKind.text = req.basis.name && t.bookedOn < before)

/-- The transaction belongs to an undismissed pair. -/
def isLeg (d : Database) (t : TransactionRow) : Bool := decide (activeTransfers d t.id ≠ [])

def inflows (d : Database) (args : Args) : List TransactionRow :=
  (scope d args).filter fun t => !isLeg d t && 0 < t.amount

def outflows (d : Database) (args : Args) : List TransactionRow :=
  (scope d args).filter fun t => !isLeg d t && t.amount < 0

def legs (d : Database) (args : Args) : List TransactionRow := (scope d args).filter (isLeg d)

/-- No sum behind a line of the strip leaves a bigint. -/
structure StripFits (d : Database) (req : Request) (sel : Selection) : Prop where
  opening : Fits (balanceBefore d req sel.fromDate)
  closing : Fits (balanceBefore d req sel.toDate.succ)
  inflow : Fits (exactSum (inflows d sel.args))
  outflow : Fits (-exactSum (outflows d sel.args))
  transfers : Fits (-exactSum (legs d sel.args))

/-- One line of the strip closes over the rows of its period. -/
structure Closes (d : Database) (req : Request) (line : Reconciliation) : Prop where
  balances : line.balances = true
  exact_ : line.opening.minorUnits.toInt + line.inflow.minorUnits.toInt -
    line.outflow.minorUnits.toInt - line.transfers.minorUnits.toInt = line.closing.minorUnits.toInt
  columns : ∃ sel, selectionFor req line.period (.sectionLine netSales) = .ok sel ∧
    line.inflow.minorUnits.toInt = exactSum (inflows d sel.args) ∧
    line.outflow.minorUnits.toInt = -exactSum (outflows d sel.args) ∧
    line.transfers.minorUnits.toInt = -exactSum (legs d sel.args)

/-! ## A transaction beside its pair -/

theorem transferRows_eq {d : Database} (keys : PairKeys d) (rows : List TransactionRow) :
    transferRows d rows = rows.map fun t => (t, d.transfers.find? fun it =>
      it.dismissedAt.isNone &&
        (d.transferMembers.find? fun m => m.txnID = t.id).any fun m => m.transferID = it.id) := by
  have members : Functional rows d.transferMembers fun t m => m.txnID = t.id := by
    apply Functional.of_key (·.txnID) keys.members
    intro t m m' same same'
    exact (of_decide_eq_true same).trans (of_decide_eq_true same').symm
  have transfers : ∀ rows : List (TransactionRow × Option TransferMemberRow),
      Functional rows d.transfers fun row it =>
        it.dismissedAt.isNone && row.2.any fun m => m.transferID = it.id := by
    intro rows
    apply Functional.of_key (·.id) keys.transfers
    rintro ⟨t, member⟩ it it' same same'
    cases member with
    | none => simp at same
    | some m =>
        simp only [Option.any_some, Bool.and_eq_true, decide_eq_true_eq] at same same'
        exact same.2.symm.trans same'.2
  rw [transferRows, leftJoin_eq_map members, leftJoin_eq_map (transfers _), List.map_map,
    List.map_map]
  rfl

theorem find?_member {d : Database} (keys : PairKeys d) {m : TransferMemberRow}
    (known : m ∈ d.transferMembers) :
    (d.transferMembers.find? fun other => other.txnID = m.txnID) = some m := by
  cases found : d.transferMembers.find? fun other => other.txnID = m.txnID with
  | none => simpa using List.find?_eq_none.mp found m known
  | some other =>
      have same : other.txnID = m.txnID := by simpa using List.find?_some found
      exact congrArg some
        (List.inj_on_of_nodup_map keys.members (List.mem_of_find?_eq_some found) known same)

theorem isSome_pair_iff {d : Database} (keys : PairKeys d) (t : TransactionRow) :
    (d.transfers.find? fun it => it.dismissedAt.isNone &&
      (d.transferMembers.find? fun m => m.txnID = t.id).any fun m => m.transferID = it.id).isSome =
        isLeg d t := by
  rw [Bool.eq_iff_iff, isLeg, decide_eq_true_iff, activeTransfers_ne_nil, List.find?_isSome]
  simp only [Bool.and_eq_true, Option.isNone_iff_eq_none]
  constructor
  · rintro ⟨it, pair, undismissed, belongs⟩
    cases found : d.transferMembers.find? fun m => m.txnID = t.id with
    | none => simp [found] at belongs
    | some m =>
        have own : m.txnID = t.id := by simpa using List.find?_some found
        have same : m.transferID = it.id := by simpa [found] using belongs
        exact ⟨it, pair, undismissed, m, List.mem_of_find?_eq_some found, same, own⟩
  · rintro ⟨it, pair, undismissed, m, known, same, own⟩
    refine ⟨it, pair, undismissed, ?_⟩
    rw [← own, find?_member keys known]
    simpa using same

/-! ## The columns of a period -/

theorem bigint_of_fits {n : ℤ} (fits : Fits n) : bigint n = .ok (Int64.ofInt n) := by
  simp only [bigint, fits, if_true]

/-- The three casts of a period, each of its own column. -/
theorem reconciliationForPeriod_columns {d : Database} (keys : PairKeys d) (args : Args) :
    reconciliationForPeriod d args = do
      let inMinor ← bigint (exactSum (inflows d args))
      let outMinor ← bigint (-exactSum (outflows d args))
      let transfersMinor ← bigint (-exactSum (legs d args))
      return { inMinor, outMinor, transfersMinor, transferRowCount := (legs d args).length } := by
  have paired : ((transferRows d (scope d args)).filter fun row => row.2.isSome).map (·.1) =
      legs d args := by
    rw [transferRows_eq keys, List.filter_map, List.map_map, legs]
    simp only [Function.comp_def, isSome_pair_iff keys, List.map_id']
  have ordinary : ((transferRows d (scope d args)).filter fun row => row.2.isNone).map (·.1) =
      (scope d args).filter fun t => !isLeg d t := by
    rw [transferRows_eq keys, List.filter_map, List.map_map]
    simp only [Function.comp_def, List.map_id']
    apply List.filter_congr
    intro t _
    rw [← Option.not_isSome, isSome_pair_iff keys]
  have positive : ((scope d args).filter fun t => !isLeg d t).filter (fun t => 0 < t.amount) =
      inflows d args := by
    rw [List.filter_filter, inflows]
    simp only [Bool.and_comm]
  have negative : ((scope d args).filter fun t => !isLeg d t).filter (fun t => t.amount < 0) =
      outflows d args := by
    rw [List.filter_filter, outflows]
    simp only [Bool.and_comm]
  simp only [reconciliationForPeriod, paired, ordinary, positive, negative]

theorem reconciliationForPeriod_eq {d : Database} (keys : PairKeys d) {args : Args}
    (inFits : Fits (exactSum (inflows d args))) (outFits : Fits (-exactSum (outflows d args)))
    (legFits : Fits (-exactSum (legs d args))) :
    reconciliationForPeriod d args = .ok {
      inMinor := Int64.ofInt (exactSum (inflows d args))
      outMinor := Int64.ofInt (-exactSum (outflows d args))
      transfersMinor := Int64.ofInt (-exactSum (legs d args))
      transferRowCount := (legs d args).length } := by
  simp only [reconciliationForPeriod_columns keys, bigint_of_fits inFits, bigint_of_fits outFits,
    bigint_of_fits legFits, bind, Except.bind, pure, Except.pure]

theorem fits_of_bigint {n : ℤ} {x : Int64} (cast : bigint n = .ok x) : Fits n := by
  unfold bigint at cast
  split_ifs at cast with fits
  exact fits

theorem fits_of_reconciliationForPeriod {d : Database} (keys : PairKeys d) {args : Args}
    {row : ReconciliationRow} (success : reconciliationForPeriod d args = .ok row) :
    Fits (exactSum (inflows d args)) ∧ Fits (-exactSum (outflows d args)) ∧
      Fits (-exactSum (legs d args)) := by
  rw [reconciliationForPeriod_columns keys] at success
  obtain ⟨_, first, success⟩ := bind_ok.mp success
  obtain ⟨_, second, success⟩ := bind_ok.mp success
  obtain ⟨_, third, -⟩ := bind_ok.mp success
  exact ⟨fits_of_bigint first, fits_of_bigint second, fits_of_bigint third⟩

/-! ## Balances -/

theorem exactSum_filter (keep : TransactionRow → Bool) (rows : List TransactionRow) :
    exactSum (rows.filter keep) = (rows.map fun t => if keep t then t.amount.toInt else 0).sum :=
  sum_filter keep _ rows

/-- Inflows, outflows and legs make up a period. -/
theorem exactSum_columns (d : Database) (args : Args) :
    exactSum (scope d args) =
      exactSum (inflows d args) + exactSum (outflows d args) + exactSum (legs d args) := by
  rw [inflows, outflows, legs, exactSum_filter, exactSum_filter, exactSum_filter,
    ← List.sum_map_add, ← List.sum_map_add, exactSum]
  congr 1
  apply List.map_congr_left
  intro t _
  have zero : (0 : Int64).toInt = 0 := rfl
  cases isLeg d t with
  | true => simp
  | false =>
      simp only [Bool.not_false, Bool.true_and, decide_eq_true_eq, Int64.lt_iff_toInt_lt, zero,
        Bool.false_eq_true, if_false]
      split_ifs <;> omega

/-- A balance grows by the rows booked up to the next one. -/
theorem balance_next (d : Database) (req : Request) {low high : Month} (ordered : low ≤ high) :
    balanceBefore d req high.next.firstDay = balanceBefore d req low.firstDay +
      exactSum (scope d ⟨req.entityID, req.basis.name, low.firstDay, high.lastDay⟩) := by
  rw [balanceBefore, balanceBefore, scope, exactSum_filter, exactSum_filter, exactSum_filter,
    ← List.sum_map_add]
  congr 1
  apply List.map_congr_left
  intro t _
  have until_ : t.bookedOn < high.next.firstDay ↔ t.bookedOn ≤ high.lastDay := by
    rw [← not_le, Date.firstDay_le_iff, Date.le_lastDay_iff, Month.next_le_iff, not_lt]
  have before : t.bookedOn < low.firstDay → t.bookedOn ≤ high.lastDay := by
    rw [← not_le, Date.firstDay_le_iff, Date.le_lastDay_iff, not_le]
    exact fun early => early.le.trans ordered
  by_cases entity : t.entityID = req.entityID
  · by_cases basis : t.sourceKind.text = req.basis.name
    · by_cases early : t.bookedOn < low.firstDay
      · simp [Args.covers, entity, basis, early, not_le.mpr early, until_.mpr (before early)]
      · simp [Args.covers, entity, basis, early, not_lt.mp early, until_]
    · simp [basis]
  · simp [Args.covers, entity]

/-! ## The strip -/

/-- The selection of a span of months. -/
def spanSelection (req : Request) (span : Month × Month) : Selection :=
  ⟨req.entityID, req.basis, span.1.firstDay, span.2.lastDay, .sectionLine netSales⟩

/-- The line of a span of months. -/
def stripLine (d : Database) (req : Request) (baseCcy period : String) (span : Month × Month) :
    Reconciliation where
  period := period
  opening := ⟨baseCcy, Int64.ofInt (balanceBefore d req span.1.firstDay)⟩
  inflow := ⟨baseCcy, Int64.ofInt (exactSum (inflows d (spanSelection req span).args))⟩
  outflow := ⟨baseCcy, Int64.ofInt (-exactSum (outflows d (spanSelection req span).args))⟩
  transfers := ⟨baseCcy, Int64.ofInt (-exactSum (legs d (spanSelection req span).args))⟩
  closing := ⟨baseCcy, Int64.ofInt (balanceBefore d req span.2.next.firstDay)⟩
  transferRowCount := (legs d (spanSelection req span).args).length
  derived := true
  balances := true

theorem lastDay_succ (m : Month) : m.lastDay.succ = m.next.firstDay := by
  simp [Date.succ, Month.lastDay, Date.toMonth]

theorem span_balances (d : Database) (req : Request) {span : Month × Month}
    (ordered : span.1 ≤ span.2) :
    balanceBefore d req span.1.firstDay + exactSum (inflows d (spanSelection req span).args) -
        -exactSum (outflows d (spanSelection req span).args) -
        -exactSum (legs d (spanSelection req span).args) =
      balanceBefore d req span.2.next.firstDay := by
  rw [balance_next d req ordered]
  have columns := exactSum_columns d (spanSelection req span).args
  simp only [spanSelection, Selection.args] at columns ⊢
  omega

theorem reconcilePeriod_run {d : Database} (keys : PairKeys d) {req : Request}
    {span : Month × Month} (ordered : span.1 ≤ span.2)
    (fits : StripFits d req (spanSelection req span)) (baseCcy period : String) :
    (reconcilePeriod baseCcy period (spanSelection req span)
      (Int64.ofInt (balanceBefore d req span.1.firstDay))
      (Int64.ofInt (balanceBefore d req span.2.next.firstDay))).run Database.apply d =
        .ok (stripLine d req baseCcy period span, d) := by
  rw [reconcilePeriod, Prog.run_bind, Prog.run_query,
    reconciliationForPeriod_eq keys fits.inflow fits.outflow fits.transfers]
  simp only [Except.map, Except.bind, Prog.pure_eq, Prog.run_ret, stripLine, ← Int64.ofInt_add,
    ← Int64.ofInt_sub, span_balances d req ordered, decide_true]

theorem reconcilePeriods_run {d : Database} (keys : PairKeys d) {req : Request}
    {first stop : Month} {spans : List (Month × Month)} (tiles : Tiles first spans stop)
    (fits : ∀ span ∈ spans, StripFits d req (spanSelection req span)) (baseCcy : String)
    {periods : List String} (same : periods.length = spans.length) :
    (reconcilePeriods baseCcy (periods.zip (spans.map (spanSelection req)))
      ((first :: spans.map (·.2.next)).map fun m =>
        Int64.ofInt (balanceBefore d req m.firstDay))).run Database.apply d =
      .ok (List.zipWith (stripLine d req baseCcy) periods spans, d) := by
  induction spans generalizing first periods with
  | nil =>
      obtain rfl := List.eq_nil_of_length_eq_zero same
      rfl
  | cons span rest ih =>
      obtain ⟨rfl, ordered, later⟩ := tiles
      cases periods with
      | nil => cases same
      | cons period others =>
          have next := ih later (fun other member => fits other (by simp [member]))
            (by simpa using same)
          simp only [List.map_cons] at next
          simp only [List.map_cons, List.zip_cons_cons, List.zipWith_cons_cons, reconcilePeriods,
            Prog.run_bind, reconcilePeriod_run keys ordered (fits span (by simp)), Except.bind, next]
          rfl

theorem boundaries_tiles {req : Request} {first stop : Month} {spans : List (Month × Month)}
    (tiles : Tiles first spans stop) (some_ : spans ≠ []) :
    boundaries (spans.map (spanSelection req)) =
      (first :: spans.map (·.2.next)).map Month.firstDay := by
  induction spans generalizing first with
  | nil => exact absurd rfl some_
  | cons span rest ih =>
      obtain ⟨rfl, ordered, later⟩ := tiles
      cases rest with
      | nil => simp [boundaries, spanSelection, lastDay_succ]
      | cons next others =>
          have tail := ih later (by simp)
          simp only [boundaries, List.map_cons, List.getLast?_cons_cons, List.cons_append] at tail ⊢
          rw [tail]
          rfl

/-- The tiles of a request, each with the dates the strip selects for it. -/
theorem selections_tile {req : Request} {first last : Month} (firstFits : FourDigit first)
    (lastFits : FourDigit last) (fromText : req.fromMonth = monthText first)
    (toText : req.toMonth = monthText last) {prep : Prepared} (prepared : prepare req = .ok prep) :
    (prep.fromDate = first.firstDay ∧ prep.toDate = last.lastDay ∧ first ≤ last) ∧
      ∃ spans, Tiles first spans last.next ∧ List.Forall₂ (fun period span =>
        selectionFor req period (.sectionLine netSales) = .ok (spanSelection req span))
          prep.periods spans := by
  obtain ⟨range, -, listed⟩ := prepare_ok prepared
  rw [fromText, toText] at range listed
  obtain ⟨ordered, spans, tiles, columns⟩ := periods_tiles firstFits lastFits listed
  rw [monthRange_monthText firstFits lastFits ordered] at range
  obtain ⟨same, same'⟩ := Prod.mk.inj (Except.ok.inj range)
  refine ⟨⟨same.symm, same'.symm, ordered⟩, spans, tiles, ?_⟩
  have inside : ∀ span ∈ spans, first ≤ span.1 ∧ span.1 ≤ last := by
    intro span member
    obtain ⟨lower, inner, upper⟩ := tiles.within member
    exact ⟨lower, Month.lt_next_iff.mp (inner.trans_lt upper)⟩
  refine List.forall₂_iff_get.mpr ⟨columns.length_eq, fun i known known' => ?_⟩
  have column := columns.get known known'
  obtain ⟨lower, upper⟩ := inside _ (List.get_mem spans ⟨i, known'⟩)
  have ownRows : ∀ code, LineRef.sectionLine netSales = .sectionLine code → operands code = [] := by
    intro code same
    obtain rfl := LineRef.sectionLine.inj same
    decide
  have selected := selectionFor_eq firstFits lastFits fromText toText lower upper column.column
    ownRows
  rw [column.starts, column.stops] at selected
  exact selected

theorem reconciliation_run {d : Database} (keys : PairKeys d) {req : Request} {first last : Month}
    {spans : List (Month × Month)} {periods : List String} (some_ : spans ≠ [])
    (tiles : Tiles first spans last.next)
    (selected : List.Forall₂ (fun period span =>
      selectionFor req period (.sectionLine netSales) = .ok (spanSelection req span)) periods spans)
    (fits : ∀ span ∈ spans, StripFits d req (spanSelection req span)) (baseCcy : String) :
    (reconciliation req periods baseCcy).run Database.apply d =
      .ok (List.zipWith (stripLine d req baseCcy) periods spans, d) := by
  have columns : periods ≠ [] := by
    intro none_
    rw [none_, List.forall₂_nil_left_iff] at selected
    exact some_ selected
  have selections : periods.mapM (fun period => selectionFor req period (.sectionLine netSales)) =
      .ok (spans.map (spanSelection req)) := by
    rw [mapM_eq_ok_iff, List.forall₂_map_right_iff]
    exact selected
  have balances : ((first :: spans.map (·.2.next)).map Month.firstDay).mapM
      (fun before => openingBalanceBefore d req.entityID req.basis.name before) =
        .ok ((first :: spans.map (·.2.next)).map fun m =>
          Int64.ofInt (balanceBefore d req m.firstDay)) := by
    rw [mapM_eq_ok_iff, List.forall₂_map_left_iff, List.forall₂_map_right_iff, List.forall₂_same]
    intro m member
    apply bigint_of_fits
    rcases List.mem_cons.mp member with rfl | later
    · cases spans with
      | nil => exact absurd rfl some_
      | cons span rest =>
          obtain ⟨rfl, -⟩ := tiles
          exact (fits span (by simp)).opening
    · obtain ⟨span, known, rfl⟩ := List.mem_map.mp later
      rw [← lastDay_succ]
      exact (fits span known).closing
  simp only [reconciliation, columns, if_false, Prog.run_bind, lift, selections, Except.mapError,
    Prog.ofExcept_ok, Prog.run_ret, Except.bind, boundaries_tiles tiles some_,
    Prog.run_mapM_query, balances, Except.map]
  exact reconcilePeriods_run keys tiles fits baseCcy selected.length_eq

/-- A strip is answered only where every sum behind it fits. -/
theorem fits_of_reconcilePeriods {d after : Database} (keys : PairKeys d) {req : Request}
    {baseCcy : String} {spans : List (Month × Month)} {periods : List String}
    (same : periods.length = spans.length) {balances : List Int64}
    (enough : balances.length = spans.length + 1) {strip : List Reconciliation}
    (run : (reconcilePeriods baseCcy (periods.zip (spans.map (spanSelection req)))
      balances).run Database.apply d = .ok (strip, after)) :
    ∀ span ∈ spans, Fits (exactSum (inflows d (spanSelection req span).args)) ∧
      Fits (-exactSum (outflows d (spanSelection req span).args)) ∧
      Fits (-exactSum (legs d (spanSelection req span).args)) := by
  induction spans generalizing periods balances strip after with
  | nil => simp
  | cons span rest ih =>
      cases periods with
      | nil => cases same
      | cons period others =>
          cases balances with
          | nil => cases enough
          | cons opening later =>
              cases later with
              | nil => simp at enough
              | cons closing later =>
                  simp only [List.map_cons, List.zip_cons_cons, reconcilePeriods] at run
                  obtain ⟨line, middle, first, run⟩ := (Prog.run_bind_ok _).mp run
                  rw [reconcilePeriod] at first
                  obtain ⟨row, _, queried, first⟩ := (Prog.run_bind_ok _).mp first
                  obtain ⟨columns, rfl⟩ := (Prog.run_query_ok _).mp queried
                  obtain ⟨-, rfl⟩ := Prod.mk.inj (Except.ok.inj first)
                  obtain ⟨lines, _, rest_, -⟩ := (Prog.run_bind_ok _).mp run
                  intro other member
                  rcases List.mem_cons.mp member with rfl | member
                  · exact fits_of_reconciliationForPeriod keys columns
                  · exact ih (Nat.succ.inj same) (Nat.succ.inj enough) rest_ other member

/-- What a strip that was answered consists of. -/
structure Answered (d : Database) (req : Request) (first last : Month) (baseCcy : String)
    (periods : List String) (spans : List (Month × Month)) (strip : List Reconciliation) : Prop where
  some_ : spans ≠ []
  tiles : Tiles first spans last.next
  columns : periods.length = spans.length
  fits : ∀ span ∈ spans, StripFits d req (spanSelection req span)
  strip : strip = List.zipWith (stripLine d req baseCcy) periods spans

theorem answered_of_run {d after : Database} (keys : PairKeys d) {req : Request}
    {first last : Month} {prep : Prepared} (prepared : prepare req = .ok prep)
    (fromText : req.fromMonth = monthText first) (toText : req.toMonth = monthText last)
    (firstFits : FourDigit first) (lastFits : FourDigit last) {baseCcy : String}
    {strip : List Reconciliation}
    (run : (reconciliation req prep.periods baseCcy).run Database.apply d = .ok (strip, after)) :
    ∃ spans, Answered d req first last baseCcy prep.periods spans strip := by
  obtain ⟨⟨-, -, ordered⟩, spans, tiles, selected⟩ :=
    selections_tile firstFits lastFits fromText toText prepared
  have some_ : spans ≠ [] := by
    rintro rfl
    obtain rfl : first = last.next := tiles
    exact absurd ((Month.lt_next last).trans_le ordered) (lt_irrefl _)
  have columns : prep.periods ≠ [] := by
    intro none_
    rw [none_, List.forall₂_nil_left_iff] at selected
    exact some_ selected
  have selections : prep.periods.mapM (fun period => selectionFor req period (.sectionLine netSales)) =
      .ok (spans.map (spanSelection req)) := by
    rw [mapM_eq_ok_iff, List.forall₂_map_right_iff]
    exact selected
  have opened := run
  simp only [reconciliation, columns, if_false, lift, selections, Except.mapError, Prog.ofExcept_ok,
    Prog.run_bind, Prog.run_ret, Except.bind, boundaries_tiles tiles some_, Prog.run_mapM_query]
    at opened
  cases balances : ((first :: spans.map (·.2.next)).map Month.firstDay).mapM
      (fun before => openingBalanceBefore d req.entityID req.basis.name before) with
  | error e =>
      rw [balances] at opened
      cases opened
  | ok amounts =>
      rw [balances] at opened
      simp only [Except.map] at opened
      have enough : amounts.length = spans.length + 1 := by
        simpa using (mapM_eq_ok_iff.mp balances).length_eq.symm
      have periodFits := fits_of_reconcilePeriods keys selected.length_eq enough opened
      have boundary : ∀ m ∈ first :: spans.map (·.2.next),
          Fits (balanceBefore d req m.firstDay) := by
        intro m member
        obtain ⟨amount, -, cast⟩ := exists_of_mapM balances (List.mem_map_of_mem member)
        exact fits_of_bigint cast
      have fits : ∀ span ∈ spans, StripFits d req (spanSelection req span) := by
        intro span member
        obtain ⟨inflow, outflow, transfers⟩ := periodFits span member
        refine ⟨boundary _ (tiles.start_mem member), ?_, inflow, outflow, transfers⟩
        rw [spanSelection, lastDay_succ]
        exact boundary _ (List.mem_cons_of_mem _ (List.mem_map.mpr ⟨span, member, rfl⟩))
      have forward := reconciliation_run keys some_ tiles selected fits baseCcy
      obtain ⟨rfl, -⟩ := Prod.mk.inj (Except.ok.inj (run.symm.trans forward))
      exact ⟨spans, some_, tiles, selected.length_eq, fits, rfl⟩

theorem exact_stripLine {d : Database} {req : Request} {span : Month × Month}
    (ordered : span.1 ≤ span.2) (fits : StripFits d req (spanSelection req span))
    (baseCcy period : String) :
    (stripLine d req baseCcy period span).opening.minorUnits.toInt +
        (stripLine d req baseCcy period span).inflow.minorUnits.toInt -
        (stripLine d req baseCcy period span).outflow.minorUnits.toInt -
        (stripLine d req baseCcy period span).transfers.minorUnits.toInt =
      (stripLine d req baseCcy period span).closing.minorUnits.toInt := by
  have opening : Fits (balanceBefore d req span.1.firstDay) := fits.opening
  have closing : Fits (balanceBefore d req span.2.next.firstDay) := by
    rw [← lastDay_succ]
    exact fits.closing
  simp only [stripLine, toInt_ofInt_of_fits opening, toInt_ofInt_of_fits fits.inflow,
    toInt_ofInt_of_fits fits.outflow, toInt_ofInt_of_fits fits.transfers, toInt_ofInt_of_fits closing]
  exact span_balances d req ordered

theorem closes_stripLine {d : Database} {req : Request} {span : Month × Month} {period : String}
    (ordered : span.1 ≤ span.2) (fits : StripFits d req (spanSelection req span))
    (selected : selectionFor req period (.sectionLine netSales) = .ok (spanSelection req span))
    (baseCcy : String) : Closes d req (stripLine d req baseCcy period span) :=
  ⟨rfl, exact_stripLine ordered fits baseCcy period, spanSelection req span, selected,
    toInt_ofInt_of_fits fits.inflow, toInt_ofInt_of_fits fits.outflow,
    toInt_ofInt_of_fits fits.transfers⟩

theorem seams_strip {d : Database} {req : Request} {baseCcy : String} {first stop : Month}
    {spans : List (Month × Month)} (tiles : Tiles first spans stop) {periods : List String}
    (same : periods.length = spans.length) :
    (List.zipWith (stripLine d req baseCcy) periods spans).IsChain
        (fun line next => line.closing = next.opening) ∧
      (∀ line ∈ (List.zipWith (stripLine d req baseCcy) periods spans).head?,
        line.opening = ⟨baseCcy, Int64.ofInt (balanceBefore d req first.firstDay)⟩) ∧
      ∀ line ∈ (List.zipWith (stripLine d req baseCcy) periods spans).getLast?,
        line.closing = ⟨baseCcy, Int64.ofInt (balanceBefore d req stop.firstDay)⟩ := by
  induction spans generalizing first periods with
  | nil =>
      obtain rfl := List.eq_nil_of_length_eq_zero same
      simp
  | cons span rest ih =>
      obtain ⟨rfl, ordered, later⟩ := tiles
      cases periods with
      | nil => cases same
      | cons period others =>
          obtain ⟨chain, head, last⟩ := ih later (by simpa using same)
          rw [List.zipWith_cons_cons]
          refine ⟨List.isChain_cons.mpr ⟨fun line member => (head line member).symm, chain⟩, ?_, ?_⟩
          · simp [stripLine]
          · cases rest with
            | nil =>
                obtain rfl : span.2.next = stop := later
                simp [stripLine]
            | cons next spans =>
                cases others with
                | nil => cases same
                | cons period' others =>
                    rw [List.zipWith_cons_cons] at last ⊢
                    rwa [List.getLast?_cons_cons]

/-- A request for the months between two, each a month of a four-digit year in its text. -/
structure Request.Months (req : Request) (first last : Month) : Prop where
  fromText : req.fromMonth = monthText first
  toText : req.toMonth = monthText last
  firstFits : FourDigit first
  lastFits : FourDigit last

/-- The strip of a request whose sums fit closes in every period, from one seam to the next, over
everything booked in its range. -/
theorem reconciliation_closes {d : Database} (keys : PairKeys d) {req : Request}
    {first last : Month} (asked : req.Months first last) {prep : Prepared}
    (prepared : prepare req = .ok prep)
    (fits : ∀ period ∈ prep.periods, ∀ sel,
      selectionFor req period (.sectionLine netSales) = .ok sel → StripFits d req sel)
    (baseCcy : String) :
    ∃ strip, (reconciliation req prep.periods baseCcy).run Database.apply d = .ok (strip, d) ∧
      strip.map (·.period) = prep.periods ∧ (∀ line ∈ strip, Closes d req line) ∧
      strip.IsChain (fun line next => line.closing = next.opening) ∧
      ∃ opening closing, strip.head?.map (·.opening) = some opening ∧
        strip.getLast?.map (·.closing) = some closing ∧
        closing.minorUnits.toInt - opening.minorUnits.toInt = exactSum (scope d (prep.args req)) := by
  obtain ⟨⟨fromDate, toDate, ordered⟩, spans, tiles, selected⟩ :=
    selections_tile asked.firstFits asked.lastFits asked.fromText asked.toText prepared
  have some_ : spans ≠ [] := by
    rintro rfl
    obtain rfl : first = last.next := tiles
    exact absurd ((Month.lt_next last).trans_le ordered) (lt_irrefl _)
  have sameLength := selected.length_eq
  have each : ∀ i (known : i < prep.periods.length) (known' : i < spans.length),
      selectionFor req prep.periods[i] (.sectionLine netSales) =
        .ok (spanSelection req spans[i]) := fun i known known' => selected.get known known'
  have spansFit : ∀ span ∈ spans, StripFits d req (spanSelection req span) := by
    intro span member
    obtain ⟨i, known, rfl⟩ := List.mem_iff_getElem.mp member
    have inside : i < prep.periods.length := sameLength ▸ known
    exact fits _ (List.getElem_mem inside) _ (each i inside known)
  obtain ⟨chain, head, final⟩ := @seams_strip d req baseCcy _ _ _ tiles _ sameLength
  refine ⟨_, reconciliation_run keys some_ tiles selected spansFit baseCcy, ?_, ?_, chain, ?_⟩
  · apply List.ext_getElem
    · simp [sameLength]
    · simp [stripLine]
  · intro line member
    obtain ⟨i, known, rfl⟩ := List.mem_iff_getElem.mp member
    rw [List.getElem_zipWith]
    rw [List.length_zipWith, lt_min_iff] at known
    have inside := List.getElem_mem known.2
    exact closes_stripLine (tiles.within inside).2.1 (spansFit _ inside) (each i known.1 known.2)
      baseCcy
  · have strip : List.zipWith (stripLine d req baseCcy) prep.periods spans ≠ [] := by
      rw [ne_eq, List.zipWith_eq_nil_iff]
      rintro (none_ | none_)
      · exact some_ (List.eq_nil_of_length_eq_zero (by rw [← sameLength, none_]; rfl))
      · exact some_ none_
    have opening := head _ (List.head?_eq_some_head strip)
    have closing := final _ (List.getLast?_eq_some_getLast strip)
    refine ⟨_, _, by rw [List.head?_eq_some_head strip, Option.map_some, opening],
      by rw [List.getLast?_eq_some_getLast strip, Option.map_some, closing], ?_⟩
    have openingFits : Fits (balanceBefore d req first.firstDay) := by
      cases spans with
      | nil => exact absurd rfl some_
      | cons span rest =>
          obtain ⟨rfl, -⟩ := tiles
          exact (spansFit span (by simp)).opening
    have closingFits : Fits (balanceBefore d req last.next.firstDay) := by
      obtain ⟨span, member, same⟩ := tiles.last some_
      rw [← same, ← lastDay_succ]
      exact (spansFit span member).closing
    have grown := balance_next d req ordered
    rw [toInt_ofInt_of_fits openingFits, toInt_ofInt_of_fits closingFits, grown, Prepared.args,
      fromDate, toDate]
    exact add_sub_cancel_left _ _

/-! ## A pair inside a request -/

/-- A transfer between two accounts in January, one leg on each side of a sale. -/
def movedDatabase : Database :=
  { sampleDatabase "0402" with
    transactions := (sampleDatabase "0402").transactions ++ [
      sampleTransaction 8 .bank january.firstDay (-700),
      sampleTransaction 9 .bank february.firstDay 700]
    transfers := [⟨1, 8, 9, 0, none, none⟩]
    transferMembers := [⟨8, 1, .outgoing⟩, ⟨9, 1, .incoming⟩] }

def monthlyRequest : Request := { sampleRequest with granularity := .monthly }

theorem reconciliation_closes_sample :
    ∃ strip, (reconciliation monthlyRequest ["2026-01", "2026-02"] "BYN").run Database.apply
        movedDatabase = .ok (strip, movedDatabase) ∧
      strip.map (·.period) = ["2026-01", "2026-02"] ∧
      (∀ line ∈ strip, Closes movedDatabase monthlyRequest line) ∧
      strip.IsChain (fun line next => line.closing = next.opening) ∧
      ∃ opening closing, strip.head?.map (·.opening) = some opening ∧
        strip.getLast?.map (·.closing) = some closing ∧
        closing.minorUnits.toInt - opening.minorUnits.toInt =
          exactSum (scope movedDatabase ⟨1, "bank", january.firstDay, february.lastDay⟩) := by
  let prep : Prepared := ⟨january.firstDay, february.lastDay, ["2026-01", "2026-02"]⟩
  have keys : PairKeys movedDatabase := ⟨by decide, by decide⟩
  have asked : monthlyRequest.Months january february :=
    ⟨by decide +kernel, by decide +kernel, ⟨by decide, by decide⟩, ⟨by decide, by decide⟩⟩
  have prepared : prepare monthlyRequest = .ok prep := by decide +kernel
  refine reconciliation_closes keys asked prepared ?_ "BYN"
  intro period member sel selected
  rcases List.mem_cons.mp member with rfl | later
  · have chosen : selectionFor monthlyRequest "2026-01" (.sectionLine netSales) =
        .ok ⟨1, .bank, january.firstDay, january.lastDay, .sectionLine netSales⟩ := by
      decide +kernel
    obtain rfl := Except.ok.inj (chosen.symm.trans selected)
    exact ⟨by decide +kernel, by decide +kernel, by decide +kernel, by decide +kernel,
      by decide +kernel⟩
  · obtain rfl := List.mem_singleton.mp later
    have chosen : selectionFor monthlyRequest "2026-02" (.sectionLine netSales) =
        .ok ⟨1, .bank, february.firstDay, february.lastDay, .sectionLine netSales⟩ := by
      decide +kernel
    obtain rfl := Except.ok.inj (chosen.symm.trans selected)
    exact ⟨by decide +kernel, by decide +kernel, by decide +kernel, by decide +kernel,
      by decide +kernel⟩

end Vekst.Reports
