import Vekst.Proof.Ledger.Tables
import Vekst.Proof.Reports.DrillDown
import Vekst.Relational.Keyset
import Vekst.Reports.DrillDown

namespace Vekst.Reports
open Calendar Decimal Relational Isolation Ledger

/-! ## Cursors as texts -/

theorem fixedField_padded {width n : Nat} (rest : List Char) (positive : 0 < width)
    (small : n < 10 ^ width) :
    fixedField width (padded width n ++ rest) = some (n, rest) := by
  have length := length_padded positive small
  have taken : (padded width n ++ rest).take width = padded width n := List.take_left' length
  have dropped : (padded width n ++ rest).drop width = rest := List.drop_left' length
  have digits : (padded width n).all Char.isDigit := by
    rw [List.all_eq_true]
    exact fun _ => isDigit_of_mem_padded
  simp only [fixedField, taken, dropped, length, digits, and_self, if_true, value_padded]

/-- Years 0000 to 9999: the dates whose texts are as wide as the layout says. -/
theorem parseDate_formatDate {d : Date} (nonneg : 0 ≤ d.year) (small : d.year < 10000) :
    parseDate (formatDate d) = some d := by
  have year : d.year.natAbs < 10 ^ 4 := by omega
  have month : d.month < 10 ^ 2 := by
    have valid := d.validMonth
    omega
  have day : d.day < 10 ^ 2 := by
    have valid := d.day_le
    omega
  have last := fixedField_padded [] (by decide) day
  rw [List.append_nil] at last
  have same : (d.year.natAbs : Int) = d.year := Int.natAbs_of_nonneg nonneg
  have valid : (1 ≤ d.month ∧ d.month ≤ 12) ∧ (1 ≤ d.day ∧ d.day ≤ daysIn d.year d.month) :=
    ⟨d.validMonth, d.validDay⟩
  have unsigned : ¬ d.year < 0 := by omega
  simp [parseDate, formatDate, unsigned, List.append_assoc, fixedField_padded _ _ year,
    fixedField_padded _ _ month, last, same, valid]

theorem cut_append {separator : Char} {before after : List Char} (absent : separator ∉ before) :
    cut separator (before ++ separator :: after) = some (before, after) := by
  have all : ∀ c ∈ before, decide (c ≠ separator) = true := by
    intro c member
    rw [decide_eq_true_eq]
    rintro rfl
    exact absent member
  have rest : (before ++ separator :: after).dropWhile (· ≠ separator) = separator :: after := by
    rw [List.dropWhile_append_of_pos all]
    simp
  have start : (before ++ separator :: after).takeWhile (· ≠ separator) = before := by
    rw [List.takeWhile_append_of_pos all]
    simp
  simp only [cut, rest, start]

theorem colon_not_mem_formatDate (d : Date) : ':' ∉ formatDate d := by
  have digits {width n : Nat} : ':' ∉ padded width n := fun member => by
    cases isDigit_of_mem_padded member
  unfold formatDate
  split_ifs <;> simp [digits]

/-- A cursor sent back is the position it was made of. -/
theorem parseCursor_string {parseUUID : String → Option UUID} {c : Cursor} (some_ : c.id ≠ UUID.zero)
    (nonneg : 0 ≤ c.bookedOn.year) (small : c.bookedOn.year < 10000)
    (known : parseUUID c.id.text = some c.id) :
    parseCursor parseUUID c.string = .ok c := by
  have filled : String.ofList (formatDate c.bookedOn ++ ':' :: c.id.text.toList) ≠ "" := by
    intro empty
    have lists := congrArg String.toList empty
    simp at lists
  simp only [parseCursor, Cursor.string, some_, if_false, filled, String.toList_ofList,
    cut_append (colon_not_mem_formatDate c.bookedOn), parseDate_formatDate nonneg small,
    String.ofList_toList, known]

theorem string_ne_empty {c : Cursor} (some_ : c.id ≠ UUID.zero) : c.string ≠ "" := by
  intro empty
  have lists := congrArg String.toList empty
  simp [Cursor.string, some_] at lists

/-! ## The rows of a cell in order -/

instance : Std.Total fun a b : CellRow => earlier a.txn b.txn :=
  ⟨fun a b => Std.Total.total (r := earlier) a.txn b.txn⟩

instance : IsTrans CellRow fun a b => earlier a.txn b.txn :=
  ⟨fun _ _ _ first second => IsTrans.trans (r := earlier) _ _ _ first second⟩

/-- What a state must keep for a drill-down: one live answer a transaction, keys, four-digit years
and identifiers that are not the nil one. -/
structure Pageable (d : Database) : Prop where
  oneLive : ∀ t ∈ d.transactions, (d.liveOf t.id).length ≤ 1
  categories : (d.categories.map (·.id)).Nodup
  once : (d.transactions.map (·.id)).Nodup
  drawn : ∀ t ∈ d.transactions, t.id ≠ UUID.zero
  years : ∀ t ∈ d.transactions, 1 ≤ t.bookedOn.year ∧ t.bookedOn.year ≤ 9999

def orderedRows (d : Database) (args : Args) (line : String) : List CellRow :=
  (onLine d args line).insertionSort fun a b => earlier a.txn b.txn

theorem mem_orderedRows {d : Database} {args : Args} {line : String} {row : CellRow} :
    row ∈ orderedRows d args line ↔ row ∈ onLine d args line := List.mem_insertionSort _

section
variable {d : Database} (pageable : Pageable d) {args : Args} {line : String}
include pageable

theorem Pageable.onLine_eq : onLine d args line =
    ((d.transactions.filter args.covers).map fun t =>
      ⟨t, liveClassification d t, liveCategory d t⟩).filter (·.onLine args.sourceKind line) := by
  rw [onLine, cellRows_eq pageable.oneLive pageable.categories]

theorem Pageable.stored {row : CellRow} (member : row ∈ onLine d args line) :
    row.txn ∈ d.transactions ∧ row = ⟨row.txn, liveClassification d row.txn, liveCategory d row.txn⟩ := by
  rw [pageable.onLine_eq] at member
  obtain ⟨t, covered, rfl⟩ := List.mem_map.mp (List.mem_filter.mp member).1
  exact ⟨(List.mem_filter.mp covered).1, rfl⟩

theorem Pageable.eq_of_id {a b : CellRow} (first : a ∈ onLine d args line)
    (second : b ∈ onLine d args line) (same : a.txn.id = b.txn.id) : a = b := by
  obtain ⟨aStored, aRow⟩ := pageable.stored first
  obtain ⟨bStored, bRow⟩ := pageable.stored second
  have txn : a.txn = b.txn := List.inj_on_of_nodup_map pageable.once aStored bStored same
  rw [aRow, bRow, txn]

theorem Pageable.nodup_onLine : (onLine d args line).Nodup := by
  rw [pageable.onLine_eq]
  refine List.Nodup.filter _ (List.Nodup.map ?_ (pageable.once.of_map.filter _))
  intro t u same
  exact congrArg CellRow.txn same

theorem Pageable.antisymm {a b : CellRow} (first : a ∈ onLine d args line)
    (second : b ∈ onLine d args line) (le : earlier a.txn b.txn) (ge : earlier b.txn a.txn) :
    a = b := by
  rcases le with less | ⟨same, le⟩
  · rcases ge with more | ⟨same, -⟩
    · exact absurd more less.asymm
    · exact absurd same less.ne'
  · rcases ge with more | ⟨-, ge⟩
    · exact absurd same more.ne'
    · exact pageable.eq_of_id first second (le_antisymm le ge)

theorem Pageable.afterCursor_iff {last row : CellRow} (known : last ∈ onLine d args line)
    (member : row ∈ onLine d args line) :
    afterCursor (Cursor.mk last.txn.bookedOn last.txn.id).position row.txn ↔
      earlier last.txn row.txn ∧ row ≠ last := by
  have drawn := pageable.drawn _ (pageable.stored known).1
  simp only [Cursor.position, drawn, if_false, afterCursor, Bool.or_eq_true, Bool.and_eq_true,
    decide_eq_true_eq]
  constructor
  · rintro (less | ⟨same, less⟩)
    · exact ⟨.inl less, fun own => less.ne (own ▸ rfl)⟩
    · exact ⟨.inr ⟨same.symm, less.le⟩, fun own => less.ne (own ▸ rfl)⟩
  · rintro ⟨less | ⟨same, le⟩, other⟩
    · exact .inl less
    · refine .inr ⟨same.symm, lt_of_le_of_ne le fun own => other ?_⟩
      exact pageable.eq_of_id member known own.symm

/-- The rows are in strict order, so each is there once. -/
theorem Pageable.strict : (orderedRows d args line).Pairwise fun a b =>
    a.txn.bookedOn < b.txn.bookedOn ∨ a.txn.bookedOn = b.txn.bookedOn ∧ a.txn.id < b.txn.id := by
  have perm := (onLine d args line).perm_insertionSort fun a b => earlier a.txn b.txn
  have once : (orderedRows d args line).Nodup := perm.nodup_iff.mpr pageable.nodup_onLine
  have sorted := (onLine d args line).pairwise_insertionSort fun a b => earlier a.txn b.txn
  refine List.Pairwise.imp_of_mem ?_ (sorted.and once)
  rintro a b first second ⟨le, other⟩
  rcases le with less | ⟨same, le⟩
  · exact .inl less
  · refine .inr ⟨same, lt_of_le_of_ne le fun own => other ?_⟩
    exact pageable.eq_of_id (perm.subset first) (perm.subset second) own

end

/-! ## The pages -/

/-- A client that sends back each `NextCursor` until it is empty, for at most so many calls. -/
def readPages (parseUUID : String → Option UUID) (page : Cursor → Except Vekst.Failure DrillDown) :
    Nat → String → Option (List DrillDown)
  | 0, _ => none
  | calls + 1, text => do
      let cursor ← (parseCursor parseUUID text).toOption
      let answer ← (page cursor).toOption
      if answer.nextCursor = "" then some [answer]
      else (readPages parseUUID page calls answer.nextCursor).map (answer :: ·)

/-- A cell of transactions of a request the service answers. -/
structure Cell (req : Request) (period : String) (line : LineRef) (sel : Selection) : Prop where
  basis : req.basis = .ledger ∨ req.basis = .bank
  listed : ∃ labels, periods req.fromMonth req.toMonth req.granularity = .ok labels ∧ period ∈ labels
  own : computedCode line = none
  selected : selectionFor req period line = .ok sel

theorem pageLimit_pos (limit : Int) : 0 < pageLimit limit := by
  unfold pageLimit
  split_ifs <;> omega

theorem Cell.lineTransactions_eq {req : Request} {period : String} {line : LineRef}
    {sel : Selection} (cell : Cell req period line sel) {userID : UUID} {d : Database}
    (belongs : d.members.any (·.userID = userID)) (cursor : Cursor) (limit : Int) :
    Service.lineTransactions userID req period line cursor limit d =
      ((readCell period sel cursor (pageLimit limit)).run Database.apply d).map Prod.fst := by
  obtain ⟨labels, listed, known⟩ := cell.listed
  have basis : ¬ (req.basis ≠ .ledger ∧ req.basis ≠ .bank) := by
    have known := cell.basis
    tauto
  simp only [Service.lineTransactions, basis, if_false, listed, known, not_true_eq_false, cell.own,
    cell.selected, bindMember, Prog.run_query, belongs, if_true, Except.map, bind, Except.bind]
  cases (readCell period sel cursor (pageLimit limit)).run Database.apply d <;> rfl

theorem run_readCell {period : String} {sel : Selection} {cursor : Cursor} {limit : Nat}
    {d : Database} {total : LineTotal} (totalled : lineTotal d sel.args sel.line.string = .ok total) :
    (readCell period sel cursor limit).run Database.apply d =
      .ok ({
        line := sel.line
        period
        kind := .transactions
        rows := ((lineTransactions d sel.args sel.line.string cursor.position (limit + 1)).take
          limit).map drillRow
        operands := []
        rowCount := total.rowCount
        total := ⟨d.baseCurrency, total.amountMinor⟩
        nextCursor := nextCursor
          (lineTransactions d sel.args sel.line.string cursor.position (limit + 1)) limit }, d) := by
  simp [readCell, Prog.run_bind, Prog.run_query, totalled, Except.map, Except.bind]

theorem lineTransactions_start (d : Database) (args : Args) (line : String) (limit : Nat) :
    lineTransactions d args line none limit = (orderedRows d args line).take limit := by
  have all : (onLine d args line).filter (fun row => afterCursor none row.txn) =
      onLine d args line := List.filter_eq_self.mpr fun _ _ => rfl
  rw [lineTransactions, all]
  rfl

/-- Behind the last row shown the query reads the rows that are left, in order. -/
theorem Pageable.lineTransactions_eq {d : Database} (pageable : Pageable d) {args : Args}
    {line : String} {shown rest : List CellRow} (split_ : orderedRows d args line = shown ++ rest)
    {cursor : Cursor} (position : match shown.getLast? with
      | none => cursor.id = UUID.zero
      | some last => cursor = ⟨last.txn.bookedOn, last.txn.id⟩) (limit : Nat) :
    lineTransactions d args line cursor.position limit = rest.take limit := by
  cases ends : shown.getLast? with
  | none =>
      obtain rfl := List.getLast?_eq_none_iff.mp ends
      rw [ends] at position
      have start : cursor.position = none := if_pos position
      rw [start, lineTransactions_start, split_, List.nil_append]
  | some last =>
      unfold lineTransactions
      congr 1
      rw [ends] at position
      obtain rfl : cursor = ⟨last.txn.bookedOn, last.txn.id⟩ := position
      have known : last ∈ onLine d args line := by
        rw [← mem_orderedRows, split_]
        exact List.mem_append_left _ (List.mem_of_getLast? ends)
      exact sort_behind split_ pageable.nodup_onLine
        (fun a first b second => pageable.antisymm first second) ends
        fun row member => pageable.afterCursor_iff known member

theorem nextCursor_take {rest : List CellRow} {limit : Nat} (positive : 0 < limit) :
    (rest.length ≤ limit ∧ nextCursor (rest.take (limit + 1)) limit = "") ∨
      ∃ last, (rest.take limit).getLast? = some last ∧ limit < rest.length ∧
        nextCursor (rest.take (limit + 1)) limit =
          (Cursor.mk last.txn.bookedOn last.txn.id).string := by
  rcases Nat.lt_or_ge limit rest.length with more | all
  · right
    have inside : limit - 1 < rest.length := by omega
    refine ⟨rest[limit - 1], ?_, more, ?_⟩
    · rw [List.getLast?_take, if_neg positive.ne', List.getElem?_eq_getElem inside]
      rfl
    · have ahead : limit < (rest.take (limit + 1)).length := by
        rw [List.length_take]
        omega
      have read : (rest.take (limit + 1))[limit - 1]? = some rest[limit - 1] := by
        rw [List.getElem?_take_of_lt (by omega), List.getElem?_eq_getElem inside]
      simp only [nextCursor, ahead, if_true, read]
  · left
    refine ⟨all, if_neg ?_⟩
    rw [List.length_take]
    omega

section
variable {d : Database} {parseUUID : String → Option UUID} {userID : UUID} {req : Request}
  {period : String} {line : LineRef} {sel : Selection} {total : LineTotal}

/-- From any position, the pages still to come show the rows still to come. -/
theorem Pageable.readPages_from (pageable : Pageable d)
    (parses : ∀ t ∈ d.transactions, parseUUID t.id.text = some t.id)
    (belongs : d.members.any (·.userID = userID)) (cell : Cell req period line sel)
    (totalled : lineTotal d sel.args sel.line.string = .ok total) {shown rest : List CellRow}
    (split_ : orderedRows d sel.args sel.line.string = shown ++ rest) {cursor : Cursor}
    {text : String} (parsed : parseCursor parseUUID text = .ok cursor)
    (position : match shown.getLast? with
      | none => cursor.id = UUID.zero
      | some last => cursor = ⟨last.txn.bookedOn, last.txn.id⟩) (limit : Int) {calls : Nat}
    (enough : rest.length < calls) :
    ∃ pages, readPages parseUUID
        (fun cursor => Service.lineTransactions userID req period line cursor limit d) calls text =
          some pages ∧
      pages.flatMap (·.rows) = rest.map drillRow ∧ ∀ page ∈ pages, page.rowCount = total.rowCount := by
  induction calls generalizing shown rest cursor text with
  | zero => omega
  | succ calls ih =>
      have queried := pageable.lineTransactions_eq split_ position (pageLimit limit + 1)
      have answered := cell.lineTransactions_eq belongs cursor limit
      rw [run_readCell totalled, queried, List.take_take, Nat.min_eq_left (Nat.le_succ _)] at answered
      simp only [readPages, parsed, answered, Except.toOption, Except.map, Option.bind_eq_bind,
        Option.bind_some]
      rcases @nextCursor_take rest (pageLimit limit) (pageLimit_pos limit) with
        ⟨all, none_⟩ | ⟨last, ends, more, next⟩
      · rw [if_pos none_]
        refine ⟨_, rfl, ?_, ?_⟩
        · simp [List.take_of_length_le all]
        · simp
      · have known : last ∈ onLine d sel.args sel.line.string := by
          rw [← mem_orderedRows, split_]
          exact List.mem_append_right _ (List.mem_of_mem_take (List.mem_of_getLast? ends))
        have stored := (pageable.stored known).1
        have drawn := pageable.drawn _ stored
        have years := pageable.years _ stored
        have filled := @string_ne_empty ⟨last.txn.bookedOn, last.txn.id⟩ drawn
        rw [next, if_neg filled]
        have back : parseCursor parseUUID (Cursor.mk last.txn.bookedOn last.txn.id).string =
            .ok ⟨last.txn.bookedOn, last.txn.id⟩ :=
          parseCursor_string drawn (by simp only; omega) (by simp only; omega) (parses _ stored)
        have splitNext : orderedRows d sel.args sel.line.string =
            (shown ++ rest.take (pageLimit limit)) ++ rest.drop (pageLimit limit) := by
          rw [List.append_assoc, List.take_append_drop, split_]
        have some_ : rest.take (pageLimit limit) ≠ [] := by
          rintro empty
          rw [empty] at ends
          cases ends
        have endsNext : (shown ++ rest.take (pageLimit limit)).getLast? = some last := by
          rw [List.getLast?_append_of_ne_nil _ some_, ends]
        have fewer : (rest.drop (pageLimit limit)).length < calls := by
          have positive := pageLimit_pos limit
          rw [List.length_drop]
          omega
        obtain ⟨pages, later, rows, counts⟩ := ih splitNext back (by rw [endsNext]) fewer
        rw [later]
        refine ⟨_, rfl, ?_, ?_⟩
        · rw [List.flatMap_cons, rows, ← List.map_append, List.take_append_drop]
        · intro page member
          rcases List.mem_cons.mp member with rfl | tail
          · rfl
          · exact counts page tail

/-- Read page by page until no cursor comes back, a cell shows each of its rows once and in order,
and every page counts them all. -/
theorem drillDown_pages (pageable : Pageable d)
    (parses : ∀ t ∈ d.transactions, parseUUID t.id.text = some t.id)
    (belongs : d.members.any (·.userID = userID)) (cell : Cell req period line sel)
    (fits : Wrapping.Fits (exactSum ((onLine d sel.args sel.line.string).map (·.txn))))
    (limit : Int) :
    ∃ (calls : Nat) (pages : List DrillDown) (rows : List CellRow),
      readPages parseUUID
        (fun cursor => Service.lineTransactions userID req period line cursor limit d) calls "" =
          some pages ∧
      rows.Perm (onLine d sel.args sel.line.string) ∧
      rows.Pairwise (fun a b => a.txn.bookedOn < b.txn.bookedOn ∨
        a.txn.bookedOn = b.txn.bookedOn ∧ a.txn.id < b.txn.id) ∧
      pages.flatMap (·.rows) = rows.map drillRow ∧
      ∀ page ∈ pages, page.rowCount = rows.length := by
  have totalled : lineTotal d sel.args sel.line.string =
      .ok ⟨(onLine d sel.args sel.line.string).length,
        Int64.ofInt (exactSum ((onLine d sel.args sel.line.string).map (·.txn)))⟩ := by
    simp [lineTotal, bigint, fits, Except.map]
  have perm : (orderedRows d sel.args sel.line.string).Perm (onLine d sel.args sel.line.string) :=
    List.perm_insertionSort _ _
  obtain ⟨pages, read, rows, counts⟩ := pageable.readPages_from parses belongs cell totalled
    (List.nil_append _).symm (show parseCursor parseUUID "" = .ok .zero from rfl) rfl limit
    (Nat.lt_succ_self _)
  refine ⟨_, pages, _, read, perm, pageable.strict, rows, ?_⟩
  intro page member
  rw [counts page member, perm.length_eq]

end

/-- `uuid.Parse` on the form that `uuid.String` writes. -/
def canonicalUUID (s : String) : Option UUID :=
  if s.length = 36 then
    some ((s.toList.filter (· ≠ '-')).foldl
      (fun n c => 16 * n + (if c.isDigit then c.toNat - '0'.toNat else c.toNat - 'a'.toNat + 10)) 0)
  else none

def monthRequest : Request where
  entityID := 1
  fromMonth := "2026-01"
  toMonth := "2026-01"
  granularity := .monthly
  basis := .bank

def monthSelection : Selection where
  entityID := 1
  basis := .bank
  fromDate := sampleDay 1
  toDate := sampleDay 31
  line := .bucketLine .unclassified

/-- Unanswered payments of one day. -/
def oneDay (payments : List (UUID × Int64)) : Database :=
  { Database.empty "BYN" with
    members := [⟨7, .viewer⟩]
    transactions := payments.map fun (id, amount) =>
      sampleTransaction id .bank (sampleDay 5) amount }

theorem monthCell : Cell monthRequest "2026-01" (.bucketLine .unclassified) monthSelection :=
  ⟨by decide, ⟨["2026-01"], by decide +kernel, by decide⟩, by decide, by decide +kernel⟩

theorem drillDown_pages_sample :
    ∃ (calls : Nat) (pages : List DrillDown),
      readPages canonicalUUID (fun cursor => Service.lineTransactions 7 monthRequest "2026-01"
        (.bucketLine .unclassified) cursor 1 (oneDay [(3, 500), (1, -200), (2, 900)])) calls "" =
          some pages ∧
      (pages.flatMap (·.rows)).length = 3 := by
  have pageable : Pageable (oneDay [(3, 500), (1, -200), (2, 900)]) :=
    ⟨by decide, by decide, by decide, by decide, by decide⟩
  obtain ⟨calls, pages, rows, read, perm, -, shown, -⟩ := @drillDown_pages _ canonicalUUID 7 _ _ _ _
    pageable (by decide +kernel) (by decide) monthCell (by decide +kernel) 1
  have three : (onLine (oneDay [(3, 500), (1, -200), (2, 900)]) monthSelection.args
      monthSelection.line.string).length = 3 := by decide +kernel
  refine ⟨calls, pages, read, ?_⟩
  rw [shown, List.length_map, perm.length_eq, three]

/-- Two payments whose sum no bigint holds cannot be opened at all, and a page that ends at a row
with the nil identifier sends no cursor for the rows behind it. -/
theorem pages_cut_short :
    (∀ d ∈ [oneDay [(1, 4611686018427387904), (2, 4611686018427387904)], oneDay [(0, 100), (1, 200)]],
      (∀ t ∈ d.transactions, (d.liveOf t.id).length ≤ 1) ∧ (d.transactions.map (·.id)).Nodup ∧
      (∀ t ∈ d.transactions, 1 ≤ t.bookedOn.year ∧ t.bookedOn.year ≤ 9999)) ∧
    Cell monthRequest "2026-01" (.bucketLine .unclassified) monthSelection ∧
    (∀ calls, readPages canonicalUUID (fun cursor => Service.lineTransactions 7 monthRequest "2026-01"
      (.bucketLine .unclassified) cursor 100
        (oneDay [(1, 4611686018427387904), (2, 4611686018427387904)])) calls "" = none) ∧
    (readPages canonicalUUID (fun cursor => Service.lineTransactions 7 monthRequest "2026-01"
      (.bucketLine .unclassified) cursor 1 (oneDay [(0, 100), (1, 200)])) 1 "").map
        (·.map fun page => (page.rows.length, page.rowCount)) = some [(1, 2)] := by
  refine ⟨by decide, monthCell, ?_, by decide +kernel⟩
  intro calls
  cases calls with
  | zero => rfl
  | succ calls =>
      have refused : (Service.lineTransactions 7 monthRequest "2026-01" (.bucketLine .unclassified)
          .zero 100 (oneDay [(1, 4611686018427387904), (2, 4611686018427387904)])).toOption =
            none := by decide +kernel
      have start : (parseCursor canonicalUUID "").toOption = some .zero := rfl
      simp only [readPages, start, refused, Option.bind_eq_bind, Option.bind_some, Option.bind_none]

end Vekst.Reports
