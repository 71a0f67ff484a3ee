import Vekst.Proof.Ingest.Charset
import Vekst.Proof.Ingest.MapOrder
import Vekst.Proof.Ingest.WellFormed
import Vekst.Text.Fixed

namespace Vekst.Ingest.Priorbank
open Regex

/-! ## Lines that begin with a date -/

/-- dd.mm.yyyy, of whatever digits. -/
def isDate : Text → Bool
  | [a, b, p, c, d, q, e, f, g, h] =>
      [a, b, c, d, e, f, g, h].all Char.isDigit && p = '.' && q = '.'
  | _ => false

theorem matchString_datePrefix (s : Text) : matchString datePrefix s = isDate s := by
  have number := Pattern.fixed_set Char.isDigit
  have point := Pattern.fixed_set (· = '.')
  have year : Pattern.Fixed (times 4 digit) 4 _ :=
    number.seq (number.seq (number.seq (number.seq Pattern.fixed_empty)))
  have fixed : Pattern.Fixed date 10 _ := number.seq (number.seq (point.seq (number.seq
    (number.seq (point.seq (year.seq Pattern.fixed_empty))))))
  rw [Bool.eq_iff_iff]
  refine (fixed.whole s).trans ?_
  rcases s with _ | ⟨a, _ | ⟨b, _ | ⟨p, _ | ⟨c, _ | ⟨d, _ | ⟨q, _ | ⟨e, _ | ⟨f, _ | ⟨g, _ |
    ⟨h, _ | ⟨i, s⟩⟩⟩⟩⟩⟩⟩⟩⟩⟩⟩
  all_goals simp [isDate]
  tauto

/-- The lines of a text with their numbers, without the quotation marks. -/
def physicalLines (text : Text) : List (Text × Nat) :=
  ((text.filter (· ≠ '"')).splitOn '\n').zipIdx 1

def cellsOf (delimiter : Char) (line : Text) : List Text :=
  (Csv.dropReturn line).splitOn delimiter

def dated (delimiter : Char) (line : Text × Nat) : Bool :=
  isDate (trimSpace (cell (cellsOf delimiter line.1) 0))

theorem dated_records (delimiter : Char) (text : Text) :
    (Csv.records delimiter (text.filter (· ≠ '"'))).filter (isRow ·.2) =
      ((physicalLines text).filter (dated delimiter)).map fun line =>
        (line.2, cellsOf delimiter line.1) := by
  unfold Csv.records physicalLines
  generalize ((text.filter (· ≠ '"')).splitOn '\n').zipIdx 1 = lines
  induction lines with
  | nil => rfl
  | cons line lines ih =>
      have same : isRow (cellsOf delimiter line.1) = dated delimiter line := matchString_datePrefix _
      rw [List.filter_cons]
      by_cases empty : Csv.dropReturn line.1 = []
      · have undated : dated delimiter line = false := by
          simp [dated, cellsOf, empty, cell, trimSpace, isDate]
        rw [undated, List.filterMap_cons_none (by simp [empty]), ih]
        rfl
      · rw [List.filterMap_cons_some (b := (line.2, cellsOf delimiter line.1)) (by simp [empty, cellsOf]),
          List.filter_cons, same, ih]
        split <;> simp

/-! ## Rows -/

variable {layout : Layout} {order : Order} {st st' : Statement} {records : List (Nat × List Text)}

/-- A row is what its record says, in the currency of the moment. -/
def RowOf (layout : Layout) (order : Order) (record : Nat × List Text) (r : Row) : Prop :=
  ∃ currency, parseRow record.2 record.1 layout.header layout.debitAt layout.creditAt currency
    order = some r

theorem foldlM_rows (read : records.foldlM (readRecord layout order) st = some st') :
    ∃ rows, st'.rows = st.rows ++ rows ∧
      List.Forall₂ (RowOf layout order) (records.filter (isRow ·.2)) rows := by
  induction records generalizing st with
  | nil =>
      cases read
      exact ⟨[], (List.append_nil _).symm, .nil⟩
  | cons record rest ih =>
      rw [List.foldlM_cons] at read
      obtain ⟨next, first, read⟩ := Option.bind_eq_some_iff.mp read
      obtain ⟨rows, written, exact_⟩ := ih read
      obtain ⟨lineNo, rec_⟩ := record
      by_cases row : isRow rec_
      · rw [readRecord_row row] at first
        obtain ⟨r, parsed, rfl⟩ := Option.map_eq_some_iff.mp first
        refine ⟨r :: rows, by rw [written, List.append_assoc]; rfl, ?_⟩
        rw [List.filter_cons, if_pos row]
        exact .cons ⟨_, parsed⟩ exact_
      · refine ⟨rows, by rw [written, rows_readRecord row first], ?_⟩
        rw [List.filter_cons, if_neg row]
        exact exact_

/-! ## Files -/

/-- Every summary line holds two amounts of the currency of the moment, and that of every row is
known. -/
def SummariesRead (layout : Layout) (currency : String) (records : List (Nat × List Text)) : Prop :=
  (records.map Prod.snd).foldlM (currencyBehind layout.hasEquivalent) currency ≠ none

/-- The rows of a statement are the lines that begin with a date, each under its number. -/
structure RowsExact (layout : Layout) (order : Order) (delimiter : Char) (text : Text)
    (rows : List Row) : Prop where
  lines : List.Forall₂ (fun line r => r.lineNo = line.2 ∧
    r.bookedOn = trimSpace (cell (cellsOf delimiter line.1) 0) ∧
    RowOf layout order (line.2, cellsOf delimiter line.1) r)
    ((physicalLines text).filter (dated delimiter)) rows
  ascending : (rows.map (·.lineNo)).Pairwise (· < ·)

theorem RowOf.fields {record : Nat × List Text} {r : Row} (of_record : RowOf layout order record r) :
    r.lineNo = record.1 ∧ r.bookedOn = trimSpace (cell record.2 0) := by
  obtain ⟨currency, parsed⟩ := of_record
  have made : parseRow record.2 record.1 layout.header layout.debitAt layout.creditAt
      ({ emptyStatement with currency } : Statement).currency order = _ := parseRow_eq
  rw [parsed] at made
  obtain ⟨zero, _, rfl⟩ := Option.map_eq_some_iff.mp made.symm
  exact ⟨rfl, rfl⟩

theorem lineNos_of_lines {delimiter : Char} {text : Text} {rows : List Row}
    (lines : List.Forall₂ (fun line r => r.lineNo = line.2)
      ((physicalLines text).filter (dated delimiter)) rows) :
    rows.map (·.lineNo) = ((physicalLines text).filter (dated delimiter)).map Prod.snd := by
  rw [← List.forall₂_eq_eq_eq, List.forall₂_map_left_iff, List.forall₂_map_right_iff]
  exact lines.flip

theorem ascending_lines (delimiter : Char) (text : Text) :
    (((physicalLines text).filter (dated delimiter)).map Prod.snd).Pairwise (· < ·) := by
  have all := (List.filter_sublist (p := dated delimiter) (l := physicalLines text)).map Prod.snd
  rw [physicalLines, List.zipIdx_map_snd] at all
  exact List.Pairwise.sublist all (List.pairwise_lt_range' 1 Nat.zero_lt_one)

theorem parsePriorbankWithParams_decoded {enc : Encodings} {raw : Bytes} {params : Option Parameters}
    {text : Text} (decoded : decode enc raw (charsetOf enc raw params) = some text)
    (delimiter : invalidDelimiter (delimiterOf params) = false) :
    parsePriorbankWithParams enc raw params order =
      parseRecords (Csv.records (delimiterOf params) (text.filter (· ≠ '"'))) order := by
  simp only [parsePriorbankWithParams, decoded, recordsOf, delimiter, Bool.false_eq_true, if_false,
    Option.bind_eq_bind, Option.bind_some]

theorem parseRecords_recognised (read : parseRecords records order = some st) :
    ∃ layout opened, openStatement records order = some (layout, opened) := by
  obtain ⟨⟨layout, opened⟩, recognised, _⟩ := Option.bind_eq_some_iff.mp read
  exact ⟨layout, opened, recognised⟩

/-- A file of the bank is read unless a summary line of it cannot be, and whatever stands between
them, its rows are the lines that begin with a date. -/
theorem parsePriorbankWithParams_rows (enc : Encodings) (raw : Bytes) (params : Option Parameters)
    (order : Order) (text : Text) (layout : Layout) (opened : Statement)
    (decoded : decode enc raw (charsetOf enc raw params) = some text)
    (delimiter : invalidDelimiter (delimiterOf params) = false)
    (recognised : openStatement (Csv.records (delimiterOf params) (text.filter (· ≠ '"'))) order =
      some (layout, opened)) :
    ((parsePriorbankWithParams enc raw params order).isSome ↔ SummariesRead layout opened.currency
      (Csv.records (delimiterOf params) (text.filter (· ≠ '"')))) ∧
    ∀ st, parsePriorbankWithParams enc raw params order = some st →
      RowsExact layout order (delimiterOf params) text st.rows := by
  have run : parsePriorbankWithParams enc raw params order =
      (Csv.records (delimiterOf params) (text.filter (· ≠ '"'))).foldlM (readRecord layout order)
        opened := by
    rw [parsePriorbankWithParams_decoded decoded delimiter, parseRecords, recognised]
    rfl
  rw [run]
  constructor
  · unfold SummariesRead
    rw [← @foldlM_currency order, Ne, Option.map_eq_none_iff, ← Ne, Option.isSome_iff_ne_none]
  · intro st read
    obtain ⟨rows, written, each⟩ := foldlM_rows read
    have first : opened.rows = [] := (openStatement_opened recognised).1.rows
    rw [first, List.nil_append] at written
    rw [dated_records, List.forall₂_map_left_iff] at each
    rw [written]
    refine ⟨each.imp fun line r of_line => ⟨of_line.fields.1, of_line.fields.2, of_line⟩, ?_⟩
    rw [lineNos_of_lines (each.imp fun line r of_line => of_line.fields.1)]
    exact ascending_lines _ text

/-- A blank line, the header twice, and a summary behind a row. -/
def interrupted : Text :=
  "Приорбанк\n\nДата док;Назначение;Номинал.Дебет;Номинал.Кредит\n15.01.2026;A;0,00;5,00\n".toList ++
    "Обороты;0,00;5,00\nДата док\n\"16.01.2026\";B;1,00;0,00".toList

theorem parsePriorbankWithParams_rows_sample : ∃ st,
    parsePriorbankWithParams charmaps (Utf8.encode interrupted) none (fun _ => []) = some st ∧
      st.rows.map (·.lineNo) = [4, 7] ∧ ∃ layout,
        RowsExact layout (fun _ => []) ';' interrupted st.rows := by
  have plain : withoutMark interrupted = interrupted := if_neg (by decide +kernel)
  have decoded : decode charmaps (Utf8.encode interrupted)
      (charsetOf charmaps (Utf8.encode interrupted) none) = some interrupted :=
    (recognised_unmarked interrupted).2.trans (congrArg some plain)
  have reads : (parseRecords (Csv.records ';' (interrupted.filter (· ≠ '"'))) fun _ => []).isSome := by
    decide +kernel
  obtain ⟨st, read⟩ := Option.isSome_iff_exists.mp reads
  obtain ⟨layout, opened, recognised⟩ := parseRecords_recognised read
  have parsed : parsePriorbankWithParams charmaps (Utf8.encode interrupted) none (fun _ => []) =
      some st := by
    rw [parsePriorbankWithParams_decoded decoded (by decide)]
    exact read
  have exact_ := (parsePriorbankWithParams_rows charmaps (Utf8.encode interrupted) none
    (fun _ => []) interrupted layout opened decoded (by decide) recognised).2 st parsed
  refine ⟨st, parsed, ?_, layout, exact_⟩
  rw [lineNos_of_lines (exact_.lines.imp fun line r of_line => of_line.1)]
  decide +kernel

end Vekst.Ingest.Priorbank
