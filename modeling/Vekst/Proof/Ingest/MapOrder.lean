import Vekst.Ingest.Charmap
import Vekst.Ingest.Priorbank
import Vekst.Text.Trim

namespace Vekst.Ingest.Priorbank
open Regex

/-! ## The columns that an order may choose -/

def Lookup.field : Lookup → String
  | .debit => "debit"
  | .credit => "credit"
  | .documentRef _ => "document_ref"
  | .counterparty _ => "counterparty"
  | .description _ => "description"

/-- The name the bank itself gives the column. -/
def Lookup.builtIn : Lookup → Text
  | .debit => "Номинал.Дебет".toList
  | .credit => "Номинал.Кредит".toList
  | .documentRef _ => "N док.".toList
  | .counterparty _ => "Корреспондент.Название".toList
  | .description _ => "Назначение".toList

/-- The source columns of a lookup, over all orders of the map. -/
def sources (m : ColumnMap) (lookup : Lookup) : List Text :=
  match (m.filter (·.2 = lookup.field)).map Prod.fst with
  | [] => [lookup.builtIn]
  | columns => columns

/-- The one that an order chooses. -/
def chosen (order : Order) (lookup : Lookup) : Text :=
  sourceColumn (order lookup) lookup.field lookup.builtIn

variable {m : ColumnMap} {order other : Order}

theorem chosen_mem (perm : ∀ lookup, (order lookup).Perm m) (lookup : Lookup) :
    chosen order lookup ∈ sources m lookup := by
  have same : ((order lookup).filter (·.2 = lookup.field)).Perm (m.filter (·.2 = lookup.field)) :=
    (perm lookup).filter _
  unfold chosen sourceColumn sources
  rw [← List.head?_filter]
  cases entries : (order lookup).filter (·.2 = lookup.field) with
  | nil =>
      rw [entries, List.nil_perm] at same
      simp [same]
  | cons entry rest =>
      rw [entries] at same
      have member : entry ∈ m.filter (·.2 = lookup.field) := same.subset List.mem_cons_self
      split
      case h_1 none_ =>
        rw [List.map_eq_nil_iff] at none_
        rw [none_] at member
        cases member
      case h_2 => exact List.mem_map_of_mem member

theorem exists_order (choice : Lookup → Text) (mem : ∀ lookup, choice lookup ∈ sources m lookup) :
    ∃ order : Order, (∀ lookup, (order lookup).Perm m) ∧
      ∀ lookup, chosen order lookup = choice lookup := by
  have each : ∀ lookup, ∃ entries : ColumnMap, entries.Perm m ∧
      sourceColumn entries lookup.field lookup.builtIn = choice lookup := by
    intro lookup
    have member := mem lookup
    unfold sources at member
    split at member
    case h_1 none_ =>
      rw [List.map_eq_nil_iff] at none_
      rw [List.mem_singleton] at member
      refine ⟨m, .refl m, ?_⟩
      rw [member, sourceColumn, ← List.head?_filter, none_]
      rfl
    case h_2 =>
      obtain ⟨entry, found, column⟩ := List.mem_map.mp member
      obtain ⟨found, names⟩ := List.mem_filter.mp found
      refine ⟨entry :: m.erase entry, (List.perm_cons_erase found).symm, ?_⟩
      simp [sourceColumn, of_decide_eq_true names, column]
  choose entries perm column using each
  exact ⟨entries, perm, column⟩

/-! ## What a row shows -/

/-- What a record holds under a column of the header. -/
def shows (header rec_ : List Text) (column : Text) : Text := trimSpace (named rec_ header column)

def isRow (rec_ : List Text) : Bool := matchString datePrefix (trimSpace (cell rec_ 0))

def rowLookups (lineNo : Nat) : List Lookup :=
  [.debit, .credit, .documentRef lineNo, .counterparty lineNo, .description lineNo]

def Row.texts (row : Row) : List Text :=
  [row.debitRaw, row.creditRaw, row.documentNo, row.counterpartyName, row.description]

def textsAt (header : List Text) (choice : Lookup → Text) (record : Nat × List Text) : List Text :=
  (rowLookups record.1).map fun lookup => shows header record.2 (choice lookup)

theorem parseAmount_trimSpace (currency : String) (raw : Text) :
    parseAmount currency (trimSpace raw) = parseAmount currency raw := by
  have trimmed : trimSpace ((trimSpace raw).filter (· ∉ thousandSpaces)) =
      trimSpace (raw.filter (· ∉ thousandSpaces)) := strip_filter_strip _ raw
  unfold parseAmount decimalFromLocale unsignedText
  rw [trimmed]

theorem newMoney_eq_none_iff {currency : String} {minorUnits : Int64} :
    newMoney currency minorUnits = none ↔ Money.exponent currency = none := by
  unfold newMoney Money.make
  cases Money.exponent currency <;> simp [Except.toOption]

theorem newMoney_eq {currency : String} {minorUnits : Int64} {m : Money}
    (made : newMoney currency minorUnits = some m) : m = ⟨currency, minorUnits⟩ := by
  unfold newMoney Money.make at made
  split at made
  · cases made
    rfl
  · cases made

theorem parseAmount_unknown {currency : String} (unknown : newMoney currency 0 = none)
    (raw : Text) : parseAmount currency raw = none := by
  have missing : Money.exponent currency = none := newMoney_eq_none_iff.mp unknown
  unfold parseAmount
  cases decimalFromLocale raw with
  | none => rfl
  | some decimal => simp [Money.parse, missing]

theorem amountOrZero_eq (currency : String) (raw : Text) : amountOrZero currency raw =
    (newMoney currency 0).map fun zero => (parseAmount currency raw).getD zero := by
  unfold amountOrZero
  cases known : newMoney currency 0 with
  | none => rw [parseAmount_unknown known]; rfl
  | some zero => cases parseAmount currency raw <;> rfl

/-! ## Records -/

variable {layout layout' : Layout} {rec_ : List Text} {lineNo : Nat} {st st' : Statement}

/-- The currency behind a record, where what it says of money can be read. -/
def currencyBehind (hasEquivalent : Bool) (currency : String) (rec_ : List Text) : Option String :=
  let first := trimSpace (cell rec_ 0)
  if isRow rec_ then (newMoney currency 0).map fun _ => currency
  else if "Входящее сальдо".toList.isPrefixOf first then
    (summaryBalance rec_ currency hasEquivalent).map fun _ =>
      if currencyFromSummary rec_ = [] then currency else String.ofList (currencyFromSummary rec_)
  else if "Исходящее сальдо".toList.isPrefixOf first then
    (summaryBalance rec_ currency hasEquivalent).map fun _ => currency
  else if "Обороты".toList.isPrefixOf first then
    (summaryPair rec_ currency hasEquivalent).map fun _ => currency
  else some currency

/-- The columns of a layout are those that the order chooses. -/
def Chosen (layout : Layout) (order : Order) : Prop :=
  columnOf layout.header (chosen order .debit) = some layout.debitAt ∧
    columnOf layout.header (chosen order .credit) = some layout.creditAt

theorem starts_with_digit {s : Text} (dated : matchString datePrefix s) :
    ∃ c rest, s = c :: rest ∧ c.isDigit := by
  cases s with
  | nil => cases dated
  | cons c rest =>
      refine ⟨c, rest, rfl, ?_⟩
      by_contra other
      simp [matchString, datePrefix, date, digit, Pattern.sequence, Pattern.matchAt,
        Pattern.lengths, other] at dated

theorem readRecord_row (row : isRow rec_) : readRecord layout order st (lineNo, rec_) =
    (parseRow rec_ lineNo layout.header layout.debitAt layout.creditAt st.currency order).map
      fun row => { st with rows := st.rows ++ [row] } := by
  obtain ⟨c, rest, first, number⟩ := starts_with_digit row
  have word {d : Char} (s : Text) (letter : d.isDigit = false) :
      (d :: s).isPrefixOf (trimSpace (cell rec_ 0)) = false := by
    have apart : d ≠ c := by
      intro same
      rw [same, number] at letter
      cases letter
    rw [first]
    simp only [List.isPrefixOf, beq_eq_false_iff_ne.mpr apart, Bool.false_and]
  have dated : matchString datePrefix (trimSpace (cell rec_ 0)) := row
  simp only [readRecord]
  rw [if_neg (by simp [word]), if_neg (by simp [word]), if_neg (by simp [word]), if_pos dated]
  cases parseRow rec_ lineNo layout.header layout.debitAt layout.creditAt st.currency order <;> rfl

theorem readRecord_other (other_ : ¬ isRow rec_)
    (same : layout.hasEquivalent = layout'.hasEquivalent) :
    readRecord layout order st (lineNo, rec_) = readRecord layout' other st (lineNo, rec_) := by
  simp only [isRow] at other_
  simp only [readRecord, same, if_neg other_]

theorem rows_readRecord (other_ : ¬ isRow rec_)
    (read : readRecord layout order st (lineNo, rec_) = some st') : st'.rows = st.rows := by
  simp only [isRow] at other_
  simp only [readRecord, if_neg other_] at read
  split at read
  · obtain ⟨opening, _, read⟩ := Option.bind_eq_some_iff.mp read
    cases read
    rfl
  split at read
  · obtain ⟨closing, _, read⟩ := Option.bind_eq_some_iff.mp read
    cases read
    rfl
  split at read
  · obtain ⟨turnovers, _, read⟩ := Option.bind_eq_some_iff.mp read
    cases read
    rfl
  · cases read
    rfl

theorem parseRow_eq : parseRow rec_ lineNo layout.header layout.debitAt layout.creditAt
    st.currency order = (newMoney st.currency 0).map fun zero => {
        lineNo
        bookedOn := trimSpace (cell rec_ 0)
        documentNo := shows layout.header rec_ (chosen order (.documentRef lineNo))
        counterpartyName := shows layout.header rec_ (chosen order (.counterparty lineNo))
        counterpartyTaxID := trimSpace (named rec_ layout.header "Корреспондент.УНП".toList)
        counterpartyAccount := trimSpace (named rec_ layout.header "Корреспондент.Счет".toList)
        description := shows layout.header rec_ (chosen order (.description lineNo))
        regulatedCode := []
        debit := (parseAmount st.currency (cell rec_ layout.debitAt)).getD zero
        credit := (parseAmount st.currency (cell rec_ layout.creditAt)).getD zero
        debitRaw := trimSpace (cell rec_ layout.debitAt)
        creditRaw := trimSpace (cell rec_ layout.creditAt) } := by
  simp only [parseRow, amountOrZero_eq]
  cases newMoney st.currency 0 <;> rfl

theorem readRecord_currency (record : Nat × List Text) :
    (readRecord layout order st record).map (·.currency) =
      currencyBehind layout.hasEquivalent st.currency record.2 := by
  obtain ⟨lineNo, rec_⟩ := record
  unfold currencyBehind
  by_cases row : isRow rec_
  · rw [readRecord_row row, parseRow_eq, if_pos row]
    cases newMoney st.currency 0 <;> rfl
  · rw [if_neg row]
    simp only [isRow] at row
    simp only [readRecord, if_neg row]
    split
    · cases summaryBalance rec_ st.currency layout.hasEquivalent <;> rfl
    split
    · cases summaryBalance rec_ st.currency layout.hasEquivalent <;> rfl
    split
    · cases summaryPair rec_ st.currency layout.hasEquivalent <;> rfl
    · rfl

theorem shows_debit (columns : Chosen layout order) (rec_ : List Text) :
    shows layout.header rec_ (chosen order .debit) = trimSpace (cell rec_ layout.debitAt) := by
  simp [shows, named, columns.1]

theorem shows_credit (columns : Chosen layout order) (rec_ : List Text) :
    shows layout.header rec_ (chosen order .credit) = trimSpace (cell rec_ layout.creditAt) := by
  simp [shows, named, columns.2]

/-- What a record adds to the rows, of the texts that a column is chosen for. -/
theorem readRecord_texts (columns : Chosen layout order) {record : Nat × List Text}
    (read : readRecord layout order st record = some st') : st'.rows.map Row.texts =
      st.rows.map Row.texts ++
        (if isRow record.2 then [textsAt layout.header (chosen order) record] else []) := by
  obtain ⟨lineNo, rec_⟩ := record
  by_cases row : isRow rec_
  · rw [readRecord_row row, parseRow_eq, Option.map_map] at read
    obtain ⟨zero, _, rfl⟩ := Option.map_eq_some_iff.mp read
    rw [if_pos row]
    simp [textsAt, rowLookups, Row.texts, shows_debit columns, shows_credit columns]
  · rw [rows_readRecord row read, if_neg row, List.append_nil]

/-- Two orders whose columns read a record alike make the same of it. -/
theorem readRecord_congr (columns : Chosen layout order) (columns' : Chosen layout' other)
    (header : layout.header = layout'.header)
    (equivalent : layout.hasEquivalent = layout'.hasEquivalent) {record : Nat × List Text}
    (alike : isRow record.2 →
      textsAt layout.header (chosen order) record = textsAt layout'.header (chosen other) record) :
    readRecord layout order st record = readRecord layout' other st record := by
  obtain ⟨lineNo, rec_⟩ := record
  by_cases row : isRow rec_
  · have texts := alike row
    simp only [textsAt, rowLookups, List.map_cons, List.map_nil, List.cons.injEq, and_true,
      shows_debit columns, shows_debit columns', shows_credit columns,
      shows_credit columns'] at texts
    obtain ⟨debit, credit, document, counterparty, description⟩ := texts
    rw [readRecord_row row, readRecord_row row, parseRow_eq, parseRow_eq, document, counterparty,
      description, ← parseAmount_trimSpace _ (cell rec_ layout.debitAt),
      ← parseAmount_trimSpace _ (cell rec_ layout.creditAt), debit, credit, parseAmount_trimSpace,
      parseAmount_trimSpace, header]
  · exact readRecord_other row equivalent

/-! ## Runs over the records -/

variable {records : List (Nat × List Text)}

theorem foldlM_currency : (records.foldlM (readRecord layout order) st).map (·.currency) =
    (records.map Prod.snd).foldlM (currencyBehind layout.hasEquivalent) st.currency := by
  induction records generalizing st with
  | nil => rfl
  | cons record rest ih =>
      rw [List.map_cons, List.foldlM_cons, List.foldlM_cons,
        ← @readRecord_currency order]
      cases readRecord layout order st record with
      | none => rfl
      | some next => exact ih

theorem foldlM_texts (columns : Chosen layout order)
    (read : records.foldlM (readRecord layout order) st = some st') : st'.rows.map Row.texts =
      st.rows.map Row.texts ++
        (records.filter (isRow ·.2)).map (textsAt layout.header (chosen order)) := by
  induction records generalizing st with
  | nil =>
      cases read
      simp
  | cons record rest ih =>
      rw [List.foldlM_cons] at read
      obtain ⟨next, first, read⟩ := Option.bind_eq_some_iff.mp read
      rw [ih read, readRecord_texts columns first, List.append_assoc, List.filter_cons]
      split <;> simp

theorem foldlM_congr (columns : Chosen layout order) (columns' : Chosen layout' other)
    (header : layout.header = layout'.header)
    (equivalent : layout.hasEquivalent = layout'.hasEquivalent)
    (alike : ∀ record ∈ records, isRow record.2 →
      textsAt layout.header (chosen order) record = textsAt layout'.header (chosen other) record) :
    records.foldlM (readRecord layout order) st = records.foldlM (readRecord layout' other) st := by
  induction records generalizing st with
  | nil => rfl
  | cons record rest ih =>
      rw [List.foldlM_cons, List.foldlM_cons,
        readRecord_congr columns columns' header equivalent (alike record List.mem_cons_self)]
      congr 1
      funext next
      exact ih fun record member => alike record (List.mem_cons_of_mem _ member)

/-! ## Files -/

def headerOf (records : List (Nat × List Text)) (headerAt : Nat) : List Text :=
  ((records.map Prod.snd)[headerAt]?).getD []

def hasEquivalentOf (records : List (Nat × List Text)) (headerAt : Nat) : Bool :=
  (columnOf (headerOf records headerAt) "Эквивалент.Дебет".toList).isSome

/-- What the lines before the header say. -/
def preambleOf (records : List (Nat × List Text)) (headerAt : Nat) : Statement :=
  let st := parsePreamble ((records.take headerAt).map Prod.snd) emptyStatement
  { st with currency := if st.currency = "" then "BYN" else st.currency }

def Statement.zeroed (st : Statement) (zero : Money) : Statement :=
  { st with opening := zero, closing := zero, declaredDebit := zero, declaredCredit := zero }

/-- What the records say of money can be read, in the account's currency and those behind it. -/
def MoneyRead (records : List (Nat × List Text)) (headerAt : Nat) : Prop :=
  newMoney (preambleOf records headerAt).currency 0 ≠ none ∧
    (records.map Prod.snd).foldlM (currencyBehind (hasEquivalentOf records headerAt))
      (preambleOf records headerAt).currency ≠ none

/-- The file has no header or no column for one of the amounts, or its money cannot be read: or all
source columns of an amount stand in the header and all source columns of a lookup hold the same,
outer white space apart, in every row it is made for. -/
def ColumnsAgree (m : ColumnMap) (records : List (Nat × List Text)) : Prop :=
  ∀ headerAt, records.findIdx? (isHeader ·.2) = some headerAt →
    let header := headerOf records headerAt
    (∃ lookup ∈ [Lookup.debit, .credit], ∀ column ∈ sources m lookup,
      columnOf header column = none) ∨
    ¬ MoneyRead records headerAt ∨
    (∀ lookup ∈ [Lookup.debit, .credit], ∀ column ∈ sources m lookup,
      columnOf header column ≠ none) ∧
    ∀ record ∈ records, isRow record.2 → ∀ lookup ∈ rowLookups record.1,
      ∀ column ∈ sources m lookup, ∀ column' ∈ sources m lookup,
        shows header record.2 column = shows header record.2 column'

variable {headerAt debitAt creditAt : Nat}

theorem parseRecords_eq (found : records.findIdx? (isHeader ·.2) = some headerAt) :
    parseRecords records order =
      (columnOf (headerOf records headerAt) (chosen order .debit)).bind fun debitAt =>
      (columnOf (headerOf records headerAt) (chosen order .credit)).bind fun creditAt =>
      (newMoney (preambleOf records headerAt).currency 0).bind fun zero =>
        records.foldlM (readRecord ⟨headerOf records headerAt, debitAt, creditAt,
          hasEquivalentOf records headerAt⟩ order) ((preambleOf records headerAt).zeroed zero) := by
  unfold parseRecords openStatement
  simp only [found, Option.bind_eq_bind, Option.bind_some, Option.bind_assoc]
  rfl

theorem parseRecords_isSome_iff (found : records.findIdx? (isHeader ·.2) = some headerAt) :
    (parseRecords records order).isSome ↔
      (∀ lookup ∈ [Lookup.debit, .credit],
        columnOf (headerOf records headerAt) (chosen order lookup) ≠ none) ∧
      MoneyRead records headerAt := by
  rw [parseRecords_eq found]
  cases debit : columnOf (headerOf records headerAt) (chosen order .debit) with
  | none => simp [debit]
  | some debitAt =>
      cases credit : columnOf (headerOf records headerAt) (chosen order .credit) with
      | none => simp [credit]
      | some creditAt =>
          unfold MoneyRead
          cases known : newMoney (preambleOf records headerAt).currency 0 with
          | none => simp
          | some zero =>
              have same := @foldlM_currency order ⟨headerOf records headerAt, debitAt, creditAt,
                hasEquivalentOf records headerAt⟩ ((preambleOf records headerAt).zeroed zero) records
              have currency : ((preambleOf records headerAt).zeroed zero).currency =
                (preambleOf records headerAt).currency := rfl
              rw [currency] at same
              simp [← same, debit, credit, Option.isSome_iff_ne_none]

/-- Where the file is read, its columns are found. -/
theorem parseRecords_some (found : records.findIdx? (isHeader ·.2) = some headerAt)
    (read : (parseRecords records order).isSome) : ∃ debitAt creditAt zero,
      let layout : Layout := ⟨headerOf records headerAt, debitAt, creditAt,
        hasEquivalentOf records headerAt⟩
      Chosen layout order ∧ newMoney (preambleOf records headerAt).currency 0 = some zero ∧
        parseRecords records order =
          records.foldlM (readRecord layout order) ((preambleOf records headerAt).zeroed zero) := by
  obtain ⟨columns, known, _⟩ := (parseRecords_isSome_iff found).mp read
  obtain ⟨debitAt, debit⟩ := Option.ne_none_iff_exists'.mp (columns .debit (by simp))
  obtain ⟨creditAt, credit⟩ := Option.ne_none_iff_exists'.mp (columns .credit (by simp))
  obtain ⟨zero, known⟩ := Option.ne_none_iff_exists'.mp known
  refine ⟨debitAt, creditAt, zero, ⟨debit, credit⟩, known, ?_⟩
  rw [parseRecords_eq found, debit, credit, known]
  rfl

/-- One statement under two orders shows one text in every row under the columns of both. -/
theorem shows_of_same (found : records.findIdx? (isHeader ·.2) = some headerAt)
    (read : (parseRecords records other).isSome)
    (same : parseRecords records order = parseRecords records other) :
    ∀ record ∈ records, isRow record.2 → ∀ lookup ∈ rowLookups record.1,
      shows (headerOf records headerAt) record.2 (chosen order lookup) =
        shows (headerOf records headerAt) record.2 (chosen other lookup) := by
  obtain ⟨_, _, zero, columns, known, run⟩ := parseRecords_some found (by rwa [same])
  obtain ⟨_, _, zero', columns', known', run'⟩ := parseRecords_some found read
  obtain ⟨st, done_⟩ := Option.isSome_iff_exists.mp read
  rw [done_] at same run'
  rw [same] at run
  rw [known] at known'
  cases known'
  have texts := foldlM_texts columns run.symm
  rw [foldlM_texts columns' run'.symm] at texts
  have each := List.map_inj_left.mp (List.append_cancel_left texts)
  intro record member row lookup of_row
  exact (List.map_inj_left.mp (each record (List.mem_filter.mpr ⟨member, row⟩)) lookup of_row).symm

theorem parseRecords_congr (found : records.findIdx? (isHeader ·.2) = some headerAt)
    (read : (parseRecords records order).isSome) (read' : (parseRecords records other).isSome)
    (alike : ∀ record ∈ records, isRow record.2 → ∀ lookup ∈ rowLookups record.1,
      shows (headerOf records headerAt) record.2 (chosen order lookup) =
        shows (headerOf records headerAt) record.2 (chosen other lookup)) :
    parseRecords records order = parseRecords records other := by
  obtain ⟨_, _, zero, columns, known, run⟩ := parseRecords_some found read
  obtain ⟨_, _, zero', columns', known', run'⟩ := parseRecords_some found read'
  rw [known] at known'
  cases known'
  rw [run, run']
  apply foldlM_congr columns columns' rfl rfl
  intro record member row
  exact List.map_inj_left.mpr (alike record member row)

/-- An order that takes a given source column at one lookup, and those of another order elsewhere. -/
theorem exists_order_at (perm : ∀ lookup, (order lookup).Perm m) {lookup : Lookup} {column : Text}
    (source : column ∈ sources m lookup) : ∃ next : Order, (∀ l, (next l).Perm m) ∧
      chosen next lookup = column ∧ ∀ l ≠ lookup, chosen next l = chosen order l := by
  obtain ⟨next, permuted, choices⟩ :=
    exists_order (m := m) (Function.update (chosen order) lookup column) (by
      intro l
      by_cases same : l = lookup
      · rw [same, Function.update_self]
        exact source
      · rw [Function.update_of_ne same]
        exact chosen_mem perm l)
  refine ⟨next, permuted, ?_, ?_⟩
  · rw [choices, Function.update_self]
  · intro l different
    rw [choices, Function.update_of_ne different]

/-- Every order of the map makes the same of the records just when its columns agree on them. -/
theorem parseRecords_agree_iff : (∀ order other : Order, (∀ lookup, (order lookup).Perm m) →
      (∀ lookup, (other lookup).Perm m) →
      parseRecords records order = parseRecords records other) ↔ ColumnsAgree m records := by
  constructor
  · intro agree headerAt found
    by_cases missing : ∃ lookup ∈ [Lookup.debit, .credit], ∀ column ∈ sources m lookup,
      columnOf (headerOf records headerAt) column = none
    · exact .inl missing
    by_cases money : MoneyRead records headerAt
    case neg => exact .inr (.inl money)
    -- An order under which the file is read, and what every other one makes of a lookup.
    push Not at missing
    obtain ⟨debit, debits, debitFound⟩ := missing .debit (by simp)
    obtain ⟨credit, credits, creditFound⟩ := missing .credit (by simp)
    obtain ⟨first, perm, toDebit, _⟩ := @exists_order_at m (fun _ => m) (fun _ => .refl m) _ _ debits
    obtain ⟨base, perm, toCredit, kept⟩ := exists_order_at perm credits
    have read : (parseRecords records base).isSome := by
      refine (parseRecords_isSome_iff found).mpr ⟨?_, money⟩
      intro lookup amount
      rcases List.mem_pair.mp amount with rfl | rfl
      · rwa [kept .debit (by simp), toDebit]
      · rwa [toCredit]
    refine .inr (.inr ⟨?_, ?_⟩)
    · intro lookup amount column source
      obtain ⟨next, permuted, at_, _⟩ := exists_order_at perm source
      have also : (parseRecords records next).isSome := by rwa [agree next base permuted perm]
      rw [← at_]
      exact ((parseRecords_isSome_iff found).mp also).1 lookup amount
    · have same_as_base : ∀ record ∈ records, isRow record.2 → ∀ lookup ∈ rowLookups record.1,
          ∀ column ∈ sources m lookup, shows (headerOf records headerAt) record.2 column =
            shows (headerOf records headerAt) record.2 (chosen base lookup) := by
        intro record member row lookup of_row column source
        obtain ⟨next, permuted, at_, _⟩ := exists_order_at perm source
        rw [← at_]
        exact shows_of_same found read (agree next base permuted perm) record member row lookup of_row
      intro record member row lookup of_row column source column' source'
      exact (same_as_base record member row lookup of_row column source).trans
        (same_as_base record member row lookup of_row column' source').symm
  · intro agree order other perm perm'
    cases found : records.findIdx? (isHeader ·.2) with
    | none => simp [parseRecords, openStatement, found]
    | some headerAt =>
        have unread {order : Order} (perm : ∀ lookup, (order lookup).Perm m)
            (missing : (∃ lookup ∈ [Lookup.debit, .credit], ∀ column ∈ sources m lookup,
              columnOf (headerOf records headerAt) column = none) ∨ ¬ MoneyRead records headerAt) :
            parseRecords records order = none := by
          rw [← Option.not_isSome_iff_eq_none, parseRecords_isSome_iff found]
          rintro ⟨columns, money⟩
          rcases missing with ⟨lookup, amount, missing⟩ | unread
          · exact columns lookup amount (missing _ (chosen_mem perm lookup))
          · exact unread money
        rcases or_assoc.mpr (agree headerAt found) with missing | ⟨columns, alike⟩
        · rw [unread perm missing, unread perm' missing]
        by_cases money : MoneyRead records headerAt
        case neg => rw [unread perm (.inr money), unread perm' (.inr money)]
        have read {order : Order} (perm : ∀ lookup, (order lookup).Perm m) :
            (parseRecords records order).isSome :=
          (parseRecords_isSome_iff found).mpr
            ⟨fun lookup amount => columns lookup amount _ (chosen_mem perm lookup), money⟩
        apply parseRecords_congr found (read perm) (read perm')
        intro record member row lookup of_row
        exact alike record member row lookup of_row _ (chosen_mem perm lookup) _
          (chosen_mem perm' lookup)

variable {enc : Encodings} {raw : Bytes} {params : Option Parameters}

/-- The file is not read as records, or the columns of the map agree on them. -/
def FileColumnsAgree (enc : Encodings) (raw : Bytes) (params : Option Parameters) : Prop :=
  ∀ text, decode enc raw (charsetOf enc raw params) = some text →
    ∀ records, recordsOf text (delimiterOf params) = some records →
      ColumnsAgree ((params.map (·.columnMap)).getD []) records

theorem parsePriorbankWithParams_agree_iff (enc : Encodings) (raw : Bytes)
    (params : Option Parameters) : (∀ order other, OrderOf params order → OrderOf params other →
      parsePriorbankWithParams enc raw params order =
        parsePriorbankWithParams enc raw params other) ↔ FileColumnsAgree enc raw params := by
  unfold FileColumnsAgree parsePriorbankWithParams
  cases decode enc raw (charsetOf enc raw params) with
  | none => simp
  | some text =>
      simp only [Option.bind_eq_bind, Option.bind_some, Option.some.injEq, forall_eq']
      cases recordsOf text (delimiterOf params) with
      | none => simp
      | some records =>
          simp only [Option.bind_some, Option.some.injEq, forall_eq']
          exact parseRecords_agree_iff

theorem parsePriorbankWithParams_same {other : Order} (agree : FileColumnsAgree enc raw params)
    (first : OrderOf params order) (second : OrderOf params other) :
    parsePriorbankWithParams enc raw params order =
      parsePriorbankWithParams enc raw params other := by
  unfold FileColumnsAgree at agree
  unfold parsePriorbankWithParams
  cases decoded : decode enc raw (charsetOf enc raw params) with
  | none => rfl
  | some text =>
      cases read : recordsOf text (delimiterOf params) with
      | none => simp [read]
      | some records =>
          simp only [Option.bind_eq_bind, Option.bind_some, read]
          exact parseRecords_agree_iff.mpr (agree text decoded records read) order other first second

/-- The two pages, and UTF-8 as it is on ASCII. -/
def russianEncodings : Encodings where
  windows1251 := windows1251
  codePage866 := codePage866
  utf8 raw := raw.map fun b => if b < 0x80 then Char.ofNat b.toNat else '\ufffd'
  utf8Valid raw := raw.all (· < 0x80)

/-- The byte of an ASCII character or of a letter from А to я. -/
def russianByte (c : Char) : UInt8 :=
  if c.toNat < 0x80 then .ofNat c.toNat else .ofNat (c.toNat - 'А'.toNat + 0xc0)

def encoded (text : String) : Bytes := text.toList.map russianByte

/-- Two columns of a map that name one field: the amount of a row is the one or the other. -/
theorem column_map_order_decides_amount : ¬ ∀ (enc : Encodings) (raw : Bytes) (id : UUID)
    (input : ProfileInput) (p : Profile) (profiles : List Profile),
    createImportProfile [] id input = .ok (p, profiles) →
    ∀ order other, OrderOf (some p.toParameters) order → OrderOf (some p.toParameters) other →
      parsePriorbankWithParams enc raw (some p.toParameters) order =
        parsePriorbankWithParams enc raw (some p.toParameters) other := by
  intro agree
  let m : ColumnMap := [("A".toList, "debit"), ("B".toList, "debit")]
  let p : Profile := ⟨1, "n", "bank", m, "windows-1251", "", "", ""⟩
  have same := agree russianEncodings
    (encoded "Дата док;A;B;Номинал.Кредит\n01.02.2024;1,00;2,00;0,00\n") 1
    ⟨"n", "bank", m, "windows-1251", "", "", ""⟩ p [p] (by decide +kernel) (fun _ => m)
    (fun _ => m.reverse) (fun _ => .refl m) (fun _ => m.reverse_perm)
  revert same
  decide +kernel

end Vekst.Ingest.Priorbank
