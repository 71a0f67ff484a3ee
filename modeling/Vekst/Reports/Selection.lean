import Vekst.Reports.Periods

namespace Vekst.Reports
open Calendar Decimal

structure Request where
  entityID : UUID
  fromMonth : String
  toMonth : String
  granularity : Granularity
  basis : Basis
deriving DecidableEq, Repr

/-- The wire form: the code or the bucket name unchanged. -/
def LineRef.string : LineRef → String
  | .sectionLine code => code
  | .bucketLine bucket => bucket.name

def parseLineRef (s : String) : Except Failure LineRef :=
  match bucketOrder.find? (·.name = s) with
  | some bucket => .ok (.bucketLine bucket)
  | none => if s ∈ order ++ nonPNLSections then .ok (.sectionLine s) else .error (.notALine s)

/-- The lines a computed line is made of; none for a line that receives transactions. -/
def operands (code : String) : List String :=
  match chain.find? (·.code = code) with
  | some line => line.plus ++ line.minus
  | none => []

/-- The set of transactions one figure was summed from. -/
structure Selection where
  entityID : UUID
  basis : Basis
  fromDate : Date
  toDate : Date
  line : LineRef
deriving DecidableEq, Repr

def scanQuarter (text : List Char) : Option (Int × Int) := do
  let (year, rest) ← Scan.int 4 text
  let rest ← Scan.literal '-' rest
  let rest ← Scan.literal 'Q' rest
  let (quarter, _) ← Scan.int 1 rest
  return (year, quarter)

/-- The first and last month a column covers, before clipping. -/
def periodMonths (period : String) (g : Granularity) : Except Failure (String × String) :=
  if g = .monthly then (parseMonth period).map fun _ => (period, period)
  else if g = .quarterly then
    match scanQuarter period.toList with
    | none => .error (.notAQuarter period)
    | some (year, quarter) =>
        if valid : 1 ≤ quarter ∧ quarter ≤ 4 ∧ period.utf8ByteSize = 7 then
          .ok (monthText ⟨year, (quarter.toNat - 1) * 3 + 1, by omega⟩,
            monthText ⟨year, quarter.toNat * 3, by omega⟩)
        else .error (.notAQuarter period)
  else if g = .yearly then
    match Scan.int 4 period.toList with
    | none => .error (.notAYear period)
    | some (year, _) =>
        if period.utf8ByteSize = 4 then
          .ok (monthText ⟨year, 1, Month.january_valid⟩, monthText ⟨year, 12, Month.december_valid⟩)
        else .error (.notAYear period)
  else .error (.notAGranularity g.name)

/-- The closed interval of dates two months span. -/
def monthRange (fromMonth toMonth : String) : Except Failure (Date × Date) := do
  let first ← parseMonth fromMonth
  let last ← parseMonth toMonth
  if toMonth < fromMonth then .error (.periodIsAfter fromMonth toMonth)
  .ok (first.firstDay, last.next.firstDay.pred)

def selectionFor (req : Request) (period : String) (line : LineRef) :
    Except Failure Selection := do
  if let .sectionLine code := line then
    if operands code ≠ [] then .error (.isComputed code (operands code))
  let (fromMonth, toMonth) ← periodMonths period req.granularity
  let fromMonth := if fromMonth < req.fromMonth then req.fromMonth else fromMonth
  let toMonth := if req.toMonth < toMonth then req.toMonth else toMonth
  if toMonth < fromMonth then .error (.outsideRange period req.fromMonth req.toMonth)
  let (fromDate, toDate) ← monthRange fromMonth toMonth
  return { entityID := req.entityID, basis := req.basis, fromDate, toDate, line }

end Vekst.Reports
