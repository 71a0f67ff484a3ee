import Vekst.Reports.Pnl
import Vekst.Relational.Grouping

namespace Vekst.Reports
open Relational

/-! ## Columns -/

theorem columnOf_get {periods : List String} {period : String} {column : Fin periods.length}
    (found : columnOf periods period = some column) : periods.get column = period := by
  induction periods with
  | nil => exact column.elim0
  | cons label rest ih =>
      simp only [columnOf] at found
      cases later : columnOf rest period with
      | some next =>
          rw [later] at found
          obtain rfl := Option.some.inj found
          exact ih later
      | none =>
          rw [later] at found
          by_cases same : label = period
          · rw [if_pos same] at found
            obtain rfl := Option.some.inj found
            exact same
          · simp [same] at found

theorem columnOf_eq_none {periods : List String} {period : String} :
    columnOf periods period = none ↔ period ∉ periods := by
  induction periods with
  | nil => simp [columnOf]
  | cons label rest ih =>
      simp only [columnOf, List.mem_cons, not_or]
      cases later : columnOf rest period with
      | some next =>
          have known : period ∈ rest := by
            by_contra missing
            rw [ih.mpr missing] at later
            simp at later
          simp [known]
      | none =>
          by_cases same : label = period
          · simp [same]
          · simp [same, ih.mp later, Ne.symm same]

theorem columnOf_eq_some {periods : List String} (distinct : periods.Nodup) {period : String}
    {column : Fin periods.length} :
    columnOf periods period = some column ↔ period = periods.get column := by
  constructor
  · exact fun found => (columnOf_get found).symm
  · intro same
    cases found : columnOf periods period with
    | none => exact absurd (same ▸ List.get_mem periods column) (columnOf_eq_none.mp found)
    | some other =>
        have equal : periods.get other = periods.get column := (columnOf_get found).trans same
        rw [List.nodup_iff_injective_get.mp distinct equal]

/-! ## Rows -/

/-- The cells a row can land in. -/
def cells : List LineRef := sections.map .sectionLine ++ bucketOrder.map .bucketLine

/-- A row `Compute` refuses. -/
def Refused (spec : Spec) (row : Row) : Prop :=
  row.period ∉ spec.periods ∨ row.amount.currencyCode ≠ spec.baseCurrency ∨
    (row.sourceKind = spec.basis ∧ row.categoryCode ≠ "" ∧ row.isPNL = true ∧
      row.requiresAllocation = false ∧ row.pnlSection ∉ sections ∧
      row.pnlSection ∉ nonPNLSections)

theorem place_mem_cells {spec : Spec} {row : Row} {ref : LineRef}
    (placed : place spec row = .ok ref) : ref ∈ cells := by
  unfold place at placed
  split_ifs at placed with _ _ _ _ known _
  all_goals cases placed
  all_goals first
    | exact List.mem_append_left _ (List.mem_map_of_mem known)
    | decide

theorem place_error_iff {spec : Spec} {row : Row} :
    (∃ failure, place spec row = .error failure) ↔
      row.sourceKind = spec.basis ∧ row.categoryCode ≠ "" ∧ row.isPNL = true ∧
        row.requiresAllocation = false ∧ row.pnlSection ∉ sections ∧
        row.pnlSection ∉ nonPNLSections := by
  unfold place
  split_ifs <;> simp_all

theorem addRow_ok_iff {spec : Spec} {tally result : Tally spec.periods.length} {row : Row} :
    addRow spec tally row = .ok result ↔
      ∃ column ref, columnOf spec.periods row.period = some column ∧
        row.amount.currencyCode = spec.baseCurrency ∧ place spec row = .ok ref ∧
        result = tally.add column row.amount.minorUnits ref := by
  unfold addRow
  cases columnOf spec.periods row.period with
  | none => simp
  | some column =>
      by_cases same : row.amount.currencyCode = spec.baseCurrency
      · cases place spec row with
        | error failure => simp [same, Except.map]
        | ok ref => simp [same, Except.map, eq_comm]
      · simp [same]

theorem addRow_error_iff {spec : Spec} {tally : Tally spec.periods.length} {row : Row} :
    (∃ failure, addRow spec tally row = .error failure) ↔ Refused spec row := by
  unfold addRow Refused
  cases column : columnOf spec.periods row.period with
  | none => simp [columnOf_eq_none.mp column]
  | some found =>
      have known : row.period ∈ spec.periods := by
        by_contra missing
        rw [columnOf_eq_none.mpr missing] at column
        simp at column
      by_cases same : row.amount.currencyCode = spec.baseCurrency
      · rw [← place_error_iff]
        cases place spec row <;> simp [same, known, Except.map]
      · simp [same]

theorem foldlM_error_iff {spec : Spec} (rows : List Row) (tally : Tally spec.periods.length) :
    (∃ failure, rows.foldlM (addRow spec) tally = .error failure) ↔
      ∃ row ∈ rows, Refused spec row := by
  induction rows generalizing tally with
  | nil => simp [pure, Except.pure]
  | cons row rows ih =>
      rw [List.foldlM_cons]
      cases added : addRow spec tally row with
      | error failure =>
          have refused : Refused spec row := addRow_error_iff.mp ⟨failure, added⟩
          simp [bind, Except.bind, refused]
      | ok next =>
          have accepted : ¬ Refused spec row := by
            rw [← @addRow_error_iff spec tally row, added]
            simp
          simpa [bind, Except.bind, accepted] using ih next

/-! ## What a cell holds after the loop -/

/-- The column and the cell of a row, as `Compute` finds them. -/
def landing (spec : Spec) (row : Row) : Option (Fin spec.periods.length) × Except Failure LineRef :=
  (columnOf spec.periods row.period, place spec row)

theorem addAt_apply {n : Nat} (series : Series n) (column j : Fin n) (amount : Int64) :
    addAt series column amount j = series j + if column = j then amount else 0 := by
  by_cases same : j = column
  · simp [addAt, same]
  · simp [addAt, same, Ne.symm same]

theorem add_cell {n : Nat} (tally : Tally n) (column j : Fin n) (amount : Int64)
    (target ref : LineRef) :
    (tally.add column amount target).cell ref j =
      tally.cell ref j + if (some column, target) = (some j, ref) then amount else 0 := by
  cases target <;> cases ref <;> simp only [Tally.add, Tally.cell]
  case sectionLine.sectionLine code other =>
      by_cases same : other = code
      · simp [same, addAt_apply]
      · simp [same, Ne.symm same]
  case bucketLine.bucketLine bucket other =>
      by_cases same : other = bucket
      · simp [same, addAt_apply]
      · simp [same, Ne.symm same]
  all_goals simp

theorem foldlM_cell {spec : Spec} {rows : List Row} {tally result : Tally spec.periods.length}
    (success : rows.foldlM (addRow spec) tally = .ok result) (ref : LineRef)
    (j : Fin spec.periods.length) :
    result.cell ref j = tally.cell ref j +
      groupSum (landing spec) (·.amount.minorUnits) rows (some j, .ok ref) := by
  induction rows generalizing tally with
  | nil =>
      obtain rfl : tally = result := by simpa [pure, Except.pure] using success
      simp
  | cons row rows ih =>
      rw [List.foldlM_cons] at success
      cases added : addRow spec tally row with
      | error failure => simp [added, bind, Except.bind] at success
      | ok next =>
          rw [added] at success
          obtain ⟨column, target, found, _, placed, rfl⟩ := addRow_ok_iff.mp added
          have landed : landing spec row = (some column, .ok target) := by
            simp [landing, found, placed]
          rw [ih success, add_cell, groupSum_cons, landed, add_assoc]
          simp

end Vekst.Reports
