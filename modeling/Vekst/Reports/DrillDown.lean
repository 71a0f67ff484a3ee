import Vekst.Reports.Service

namespace Vekst.Reports
open Calendar Decimal Isolation Ledger

namespace Code
def unknownLine : String := "report_unknown_line"
def unknownPeriod : String := "report_unknown_period"
def badCursor : String := "report_bad_cursor"
end Code

/-! ## Cursors -/

/-- A position in a drill-down; the nil identifier is the start. -/
structure Cursor where
  bookedOn : Date
  id : UUID
deriving DecidableEq, Repr

/-- The zero `time.Time` and the nil identifier. -/
def Cursor.zero : Cursor := ⟨Month.firstDay ⟨1, 1, Month.january_valid⟩, UUID.zero⟩

/-- `Format("2006-01-02")`: the sign of a year before zero stands in front of its four digits. -/
def formatDate (d : Date) : List Char :=
  (if d.year < 0 then '-' :: padded 4 d.year.natAbs else padded 4 d.year.natAbs) ++
    '-' :: padded 2 d.month ++ '-' :: padded 2 d.day

def Cursor.string (c : Cursor) : String :=
  if c.id = UUID.zero then "" else String.ofList (formatDate c.bookedOn ++ ':' :: c.id.text.toList)

/-- What `ParseCursor` refuses, with the text its message quotes. -/
inductive CursorFailure where
  | notACursor (text : String)
  | cursorDate (text : String)
  | cursorID (text : String)
deriving DecidableEq, Repr

/-- The digits of a field of fixed width at the start of a text. -/
def fixedField (width : Nat) (text : List Char) : Option (Nat × List Char) :=
  let digits := text.take width
  if digits.length = width ∧ digits.all Char.isDigit then
    some (Decimal.value digits, text.drop width)
  else none

/-- `time.Parse("2006-01-02")`: nothing may follow the day, and the month must have that day. -/
def parseDate (text : List Char) : Option Date := do
  let (year, rest) ← fixedField 4 text
  let rest ← Scan.literal '-' rest
  let (month, rest) ← fixedField 2 rest
  let rest ← Scan.literal '-' rest
  let (day, rest) ← fixedField 2 rest
  if valid : (1 ≤ month ∧ month ≤ 12) ∧ (1 ≤ day ∧ day ≤ daysIn year month) ∧ rest = [] then
    some ⟨year, month, day, valid.1, valid.2.1⟩
  else none

/-- `strings.Cut` at the first occurrence. -/
def cut (separator : Char) (text : List Char) : Option (List Char × List Char) :=
  match text.dropWhile (· ≠ separator) with
  | [] => none
  | _ :: after => some (text.takeWhile (· ≠ separator), after)

/-- `uuid.Parse` is the parameter. -/
def parseCursor (parseUUID : String → Option UUID) (s : String) : Except CursorFailure Cursor :=
  if s = "" then .ok .zero
  else match cut ':' s.toList with
    | none => .error (.notACursor s)
    | some (date, id) =>
        match parseDate date with
        | none => .error (.cursorDate (String.ofList date))
        | some on =>
            match parseUUID (String.ofList id) with
            | none => .error (.cursorID (String.ofList id))
            | some parsed => .ok ⟨on, parsed⟩

/-- The two parameters of the query: `NULL` at the start. -/
def Cursor.position (c : Cursor) : Option (Date × UUID) :=
  if c.id = UUID.zero then none else some (c.bookedOn, c.id)

/-! ## What a drill-down answers with -/

inductive Answer where
  | transactions
  | operands
deriving DecidableEq, Repr

/-- One transaction behind a figure, with the fields that say why it is on that line. -/
structure DrillRow where
  id : UUID
  bookedOn : String
  batchID : UUID
  lineNo : Int
  postingNo : Int
  documentRef : String
  amount : Money
  /-- Zero-valued where the row needed no conversion. -/
  baseAmount : Money
  counterpartyRaw : String
  description : String
  regulatedCode : String
  sourceKind : String
  categoryCode : String
  categoryName : String
  engineLayer : String
  evidence : String
  confidence : ℚ
  hasConfidence : Bool
  decidedBy : UUID
deriving DecidableEq, Repr

/-- One line a computed line is made of. -/
structure Operand where
  code : String
  label : String
  subtracted : Bool
deriving DecidableEq, Repr

structure DrillDown where
  line : LineRef
  period : String
  kind : Answer
  rows : List DrillRow
  operands : List Operand
  rowCount : Nat
  total : Money
  /-- Empty when the page is the last one. -/
  nextCursor : String
deriving DecidableEq, Repr

def sectionLabels : List (String × String) := [
  (netSales, "NET SALES"), (cs, "CS"), (ocs, "OCS"), (opex, "OPEX"), (oie, "OIE"), (fr, "FR"),
  (cit, "CIT"), (capex, "CAPEX"), (outOfPNL, "OUT OF P&L")]

def labelOf (code : String) : String :=
  match sectionLabels.lookup code with
  | some label => label
  | none => ((chain.find? (·.code = code)).map (·.label)).getD code

/-- The operands of a computed line, those its formula adds first. -/
def operandsOf (code : String) : List Operand :=
  (chain.filter (·.code = code)).flatMap fun l =>
    l.plus.map (fun c => ⟨c, labelOf c, false⟩) ++ l.minus.map fun c => ⟨c, labelOf c, true⟩

def baseAmountOf (t : TransactionRow) : Money :=
  match t.baseAmountMinor, t.baseCurrency with
  | some minor, some currency => ⟨currency, minor⟩
  | _, _ => ⟨"", 0⟩

def drillRow (row : CellRow) : DrillRow where
  id := row.txn.id
  bookedOn := String.ofList (formatDate row.txn.bookedOn)
  batchID := row.txn.batchID
  lineNo := row.txn.lineNo
  postingNo := row.txn.postingNo
  documentRef := row.txn.documentRef.getD ""
  amount := ⟨row.txn.currency, row.txn.amountMinor⟩
  baseAmount := baseAmountOf row.txn
  counterpartyRaw := row.txn.counterpartyRaw
  description := row.txn.descriptionRaw
  regulatedCode := row.txn.regulatedCode
  sourceKind := row.txn.sourceKind.text
  categoryCode := (row.category.map (·.code)).getD ""
  categoryName := (row.category.map (·.name)).getD ""
  engineLayer := (row.classification.map (·.engineLayer)).getD ""
  evidence := (row.classification.map (·.evidence)).getD ""
  confidence := (row.classification.map (·.confidence)).getD 0
  hasConfidence := row.classification.isSome
  decidedBy := (row.classification.bind (·.decidedBy)).getD UUID.zero

/-! ## Opening one cell -/

def pageLimit (limit : Int) : Nat := if limit ≤ 0 ∨ 500 < limit then 100 else limit.toNat

/-- The cursor behind the last row of the page, if the look-ahead row was read. -/
def nextCursor (rows : List CellRow) (limit : Nat) : String :=
  if limit < rows.length then
    match rows[limit - 1]? with
    | some last => (Cursor.mk last.txn.bookedOn last.txn.id).string
    | none => ""
  else ""

def readCell (period : String) (sel : Selection) (cursor : Cursor) (limit : Nat) :
    Tx DrillDown := do
  let baseCcy ← Prog.query fun d => .ok d.baseCurrency
  let total ← Prog.query (lineTotal · sel.args sel.line.string)
  let rows ← Prog.query fun d =>
    .ok (lineTransactions d sel.args sel.line.string cursor.position (limit + 1))
  return {
    line := sel.line
    period
    kind := .transactions
    rows := (rows.take limit).map drillRow
    operands := []
    rowCount := total.rowCount
    total := ⟨baseCcy, total.amountMinor⟩
    nextCursor := nextCursor rows limit }

/-- The answer for a computed line: the lines it is made of. -/
def computedAnswer (period code : String) : DrillDown where
  line := .sectionLine code
  period := period
  kind := .operands
  rows := []
  operands := operandsOf code
  rowCount := 0
  total := ⟨"", 0⟩
  nextCursor := ""

/-- The code of the computed line a cell is on, if it is on one. -/
def computedCode : LineRef → Option String
  | .sectionLine code => if operands code = [] then none else some code
  | .bucketLine _ => none

/-- `Service.LineTransactions` with the database to itself. -/
def Service.lineTransactions (userID : UUID) (req : Request) (period : String) (line : LineRef)
    (cursor : Cursor) (limit : Int) (d : Database) : Except Vekst.Failure DrillDown :=
  if req.basis ≠ .ledger ∧ req.basis ≠ .bank then .error (.coded Code.unknownBasis)
  else match periods req.fromMonth req.toMonth req.granularity with
    | .error _ => .error (.coded Code.unknownGranularity)
    | .ok periods =>
        if period ∉ periods then .error (.coded Code.unknownPeriod)
        else match computedCode line with
          | some code => .ok (computedAnswer period code)
          | none =>
              match selectionFor req period line with
              | .error _ => .error (.coded Code.unknownLine)
              | .ok sel => do
                  let _ ← (bindMember userID).run Database.apply d
                  let (page, _) ←
                    (readCell period sel cursor (pageLimit limit)).run Database.apply d
                  return page

end Vekst.Reports
