import Vekst.Ingest.Decode
import Vekst.Ingest.Locale
import Vekst.Ingest.Profile
import Vekst.Text.Csv

namespace Vekst.Ingest.Priorbank
open Regex

/-- One line of the statement, still in the bank's own terms. -/
structure Row where
  lineNo : Nat
  bookedOn : Text
  documentNo : Text
  counterpartyName : Text
  counterpartyTaxID : Text
  counterpartyAccount : Text
  description : Text
  regulatedCode : Text
  /-- Zero where the text is no amount. -/
  debit : Money
  credit : Money
  debitRaw : Text
  creditRaw : Text
deriving DecidableEq, Repr

structure Statement where
  format : String
  account : Text
  currency : String
  holder : Text
  declaredRowCount : Option Nat
  periodFrom : Text
  periodTo : Text
  opening : Money
  closing : Money
  declaredDebit : Money
  declaredCredit : Money
  hasDeclaredBalance : Bool
  rows : List Row
deriving DecidableEq, Repr

/-! ## Patterns -/

def digit : Pattern := .set Char.isDigit

def times (n : Nat) (r : Pattern) : Pattern := .sequence (List.replicate n r)

def isUpperASCII (c : Char) : Bool := 'A' ≤ c && c ≤ 'Z'

/-- `\s` of Go's `regexp`. -/
def isRegexpSpace (c : Char) : Bool := c ∈ ['\t', '\n', '\x0c', '\r', ' ']

def date : Pattern :=
  .sequence [digit, digit, .set (· = '.'), digit, digit, .set (· = '.'), times 4 digit]

def datePrefix : Pattern := .sequence [.start, date, .finish]

def numericCell : Pattern := .sequence [.start,
  .many (fun c => c.isDigit || c = ' ' || c = '\u00a0') 1, .set (· = ','), digit, digit, .finish]

def currencyCell : Pattern := .sequence [.start, times 3 (.set isUpperASCII), .finish]

def matchString (r : Pattern) (s : Text) : Bool := (r.matchAt [] s).isSome

/-- The text of a group behind what must come before it, where what must follow does. -/
def group (before inside after : Pattern) (s : Text) : Option (Text × Text) :=
  (before.lengths [] s).findSome? fun n =>
    (inside.lengths (s.take n).reverse (s.drop n)).findSome? fun m =>
      if (after.lengths (s.take (n + m)).reverse (s.drop (n + m))).isEmpty then none
      else some ((s.drop n).take m, s.drop (n + m))

def stars : Pattern := .seq (.many (· = '*') 0) (.many isRegexpSpace 0)

/-- `^Счет клиента\**\s*(\S+)(?:\s+([A-Z]{3}))?`. -/
def accountLine (line : Text) : Option (Text × Text) :=
  (group (.sequence [.start, .text "Счет клиента".toList, stars])
    (.many (!isRegexpSpace ·) 1) .empty line).map fun (account, rest) =>
      (account, ((group (.many isRegexpSpace 1) (times 3 (.set isUpperASCII)) .empty rest).map
        Prod.fst).getD [])

/-- `^Наименование счета\**\s*(.+)$`. -/
def holderLine (line : Text) : Option Text :=
  (group (.sequence [.start, .text "Наименование счета".toList, stars])
    (.many (· ≠ '\n') 1) .finish line).map Prod.fst

/-- `^ВЫПИСКА ПО СЧЕТУ \S+ С (\d{2}\.\d{2}\.\d{4}) ПО (\d{2}\.\d{2}\.\d{4})`. -/
def periodLine (line : Text) : Option (Text × Text) := do
  let (from_, rest) ← group (.sequence [.start, .text "ВЫПИСКА ПО СЧЕТУ ".toList,
    .many (!isRegexpSpace ·) 1, .text " С ".toList]) date (.seq (.text " ПО ".toList) date) line
  let (to_, _) ← group (.text " ПО ".toList) date .empty rest
  return (from_, to_)

/-! ## Cells -/

def cell (rec_ : List Text) (i : Nat) : Text := (rec_[i]?).getD []

/-- Where a column stands: of columns of one name, the last. -/
def columnOf (header : List Text) (name : Text) : Option Nat :=
  ((header.zipIdx.reverse.find? fun (cell, _) => trimSpace cell = name)).map Prod.snd

def named (rec_ header : List Text) (name : Text) : Text :=
  ((columnOf header name).map (cell rec_)).getD []

/-! ## Summary rows -/

/-- The nominal debit and credit of a summary row, found among its numeric cells. -/
def summaryPair (rec_ : List Text) (currency : String) (hasEquivalent : Bool) :
    Option (Money × Money) :=
  let found := rec_.filter fun c => matchString numericCell (trimSpace c)
  if found.length < 2 then none
  else do
    let pair := if hasEquivalent then found.take 2 else found.drop (found.length - 2)
    let debit ← parseAmount currency (cell pair 0)
    let credit ← parseAmount currency (cell pair 1)
    return (debit, credit)

def newMoney (currency : String) (minorUnits : Int64) : Option Money :=
  (Money.make currency minorUnits).toOption

/-- A balance is signed as credit minus debit. -/
def summaryBalance (rec_ : List Text) (currency : String) (hasEquivalent : Bool) : Option Money := do
  let (debit, credit) ← summaryPair rec_ currency hasEquivalent
  newMoney currency (credit.minorUnits - debit.minorUnits)

def currencyFromSummary (rec_ : List Text) : Text :=
  ((rec_.map trimSpace).find? (matchString currencyCell)).getD []

/-! ## Rows -/

/-- A use of the column map: two for the file, and three for each row. -/
inductive Lookup where
  | debit
  | credit
  | documentRef (lineNo : Nat)
  | counterparty (lineNo : Nat)
  | description (lineNo : Nat)
deriving DecidableEq, Repr

/-- The order in which the map's entries come, at each of its uses. -/
abbrev Order := Lookup → ColumnMap

/-- A text that is no amount counts as zero here; what the row says of it is kept beside it. -/
def amountOrZero (currency : String) (raw : Text) : Option Money :=
  (parseAmount currency raw).or (newMoney currency 0)

def parseRow (rec_ : List Text) (lineNo : Nat) (header : List Text) (debitAt creditAt : Nat)
    (currency : String) (order : Order) : Option Row := do
  let debitRaw := cell rec_ debitAt
  let creditRaw := cell rec_ creditAt
  let debit ← amountOrZero currency debitRaw
  let credit ← amountOrZero currency creditRaw
  let column (lookup : Lookup) (field : String) (default_ : String) : Text :=
    trimSpace (named rec_ header (sourceColumn (order lookup) field default_.toList))
  return {
    lineNo
    bookedOn := trimSpace (cell rec_ 0)
    documentNo := column (.documentRef lineNo) "document_ref" "N док."
    counterpartyName := column (.counterparty lineNo) "counterparty" "Корреспондент.Название"
    counterpartyTaxID := trimSpace (named rec_ header "Корреспондент.УНП".toList)
    counterpartyAccount := trimSpace (named rec_ header "Корреспондент.Счет".toList)
    description := column (.description lineNo) "description" "Назначение"
    regulatedCode := []
    debit
    credit
    debitRaw := trimSpace debitRaw
    creditRaw := trimSpace creditRaw }

/-! ## The file -/

def preambleLine (st : Statement) (rec_ : List Text) : Statement :=
  let line := trimSpace (cell rec_ 0)
  match accountLine line with
  | some (account, currency) =>
      { st with account, currency := if currency = [] then st.currency else String.ofList currency }
  | none => match holderLine line with
      | some holder => { st with holder := trimSpace holder }
      | none => match periodLine line with
          | some (periodFrom, periodTo) => { st with periodFrom, periodTo }
          | none => st

def parsePreamble (records : List (List Text)) (st : Statement) : Statement :=
  records.foldl preambleLine st

def isHeader (rec_ : List Text) : Bool :=
  "Дата док".toList.isPrefixOf (trimSpace (cell rec_ 0))

/-- What the loop over the records needs beside the statement so far. -/
structure Layout where
  header : List Text
  debitAt : Nat
  creditAt : Nat
  hasEquivalent : Bool
deriving DecidableEq, Repr

/-- One record: a balance, the turnovers, a row, or nothing. -/
def readRecord (layout : Layout) (order : Order) (st : Statement) (record : Nat × List Text) :
    Option Statement :=
  let (lineNo, rec_) := record
  let first := trimSpace (cell rec_ 0)
  if "Входящее сальдо".toList.isPrefixOf first then do
    let opening ← summaryBalance rec_ st.currency layout.hasEquivalent
    let currency := currencyFromSummary rec_
    return { st with
      opening
      currency := if currency = [] then st.currency else String.ofList currency
      hasDeclaredBalance := true }
  else if "Исходящее сальдо".toList.isPrefixOf first then do
    let closing ← summaryBalance rec_ st.currency layout.hasEquivalent
    return { st with closing, hasDeclaredBalance := true }
  else if "Обороты".toList.isPrefixOf first then do
    let (declaredDebit, declaredCredit) ← summaryPair rec_ st.currency layout.hasEquivalent
    return { st with declaredDebit, declaredCredit }
  else if matchString datePrefix first then do
    let row ← parseRow rec_ lineNo layout.header layout.debitAt layout.creditAt st.currency order
    return { st with rows := st.rows ++ [row] }
  else some st

def noMoney : Money := ⟨"", 0⟩

def emptyStatement : Statement where
  format := ""
  account := []
  currency := ""
  holder := []
  declaredRowCount := none
  periodFrom := []
  periodTo := []
  opening := noMoney
  closing := noMoney
  declaredDebit := noMoney
  declaredCredit := noMoney
  hasDeclaredBalance := false
  rows := []

/-- The statement before its records are read, and where their cells are. -/
def openStatement (records : List (Nat × List Text)) (order : Order) :
    Option (Layout × Statement) := do
  let headerAt ← records.findIdx? fun record => isHeader record.2
  let header := ((records.map Prod.snd)[headerAt]?).getD []
  let debitAt ← columnOf header (sourceColumn (order .debit) "debit" "Номинал.Дебет".toList)
  let creditAt ← columnOf header (sourceColumn (order .credit) "credit" "Номинал.Кредит".toList)
  let hasEquivalent := (columnOf header "Эквивалент.Дебет".toList).isSome
  let st := parsePreamble ((records.take headerAt).map Prod.snd) emptyStatement
  let st := { st with currency := if st.currency = "" then "BYN" else st.currency }
  let zero ← newMoney st.currency 0
  return (⟨header, debitAt, creditAt, hasEquivalent⟩,
    { st with opening := zero, closing := zero, declaredDebit := zero, declaredCredit := zero })

def parseRecords (records : List (Nat × List Text)) (order : Order) : Option Statement := do
  let (layout, st) ← openStatement records order
  records.foldlM (readRecord layout order) st

/-- The delimiters the reader refuses. -/
def invalidDelimiter (c : Char) : Bool := c ∈ ['\x00', '"', '\r', '\n', '\ufffd']

def delimiterOf (params : Option Parameters) : Char := match params with
  | none => ';'
  | some p => if p.delimiter = 0 then ';' else Char.ofNat p.delimiter.toNat

/-- A quotation mark is prose here, never quoting, and falls away before the reader. -/
def recordsOf (text : Text) (delimiter : Char) : Option (List (Nat × List Text)) :=
  if invalidDelimiter delimiter then none
  else some (Csv.records delimiter (text.filter (· ≠ '"')))

def charsetOf (enc : Encodings) (raw : Bytes) (params : Option Parameters) : String :=
  match params with
  | none => detectCharset enc raw
  | some p => if p.charset = "" then detectCharset enc raw else p.charset

def parsePriorbankWithParams (enc : Encodings) (raw : Bytes) (params : Option Parameters)
    (order : Order) : Option Statement := do
  let text ← decode enc raw (charsetOf enc raw params)
  let records ← recordsOf text (delimiterOf params)
  parseRecords records order

/-- The bank's own name together with the header row, in the first bytes. -/
def detect (enc : Encodings) (raw : Bytes) : Bool :=
  let raw := raw.take 4096
  match decode enc raw (detectCharset enc raw) with
  | none => false
  | some text => "Приорбанк".toList <:+: text && "Дата док".toList <:+: text

/-- The one parser of the registry. -/
def parseWithParams (enc : Encodings) (raw : Bytes) (params : Option Parameters) (order : Order) :
    Option Statement :=
  if detect enc raw then
    (parsePriorbankWithParams enc raw params order).map ({ · with format := "priorbank-by" })
  else none

/-- The orders a map of these entries may come in; without a profile there is none. -/
def OrderOf (params : Option Parameters) (order : Order) : Prop :=
  ∀ lookup, (order lookup).Perm ((params.map (·.columnMap)).getD [])

end Vekst.Ingest.Priorbank
