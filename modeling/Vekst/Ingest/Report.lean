import Vekst.Ingest.Landing
import Vekst.Text.Json

namespace Vekst.Ingest.Report

/-! ## The validation report on the strings of Go -/

structure ValidationError where
  line : Int64
  field : GoString
  code : GoString
  raw : GoString
deriving DecidableEq, Repr

structure BalanceMismatchDetail where
  opening : Int64
  movements : Int64
  closing : Int64
  difference : Int64
  currency : GoString
deriving DecidableEq, Repr

structure ValidationWarning where
  code : GoString
  balance : Option BalanceMismatchDetail
deriving DecidableEq, Repr

structure ValidationResult where
  errors : List ValidationError
  warnings : List ValidationWarning
deriving DecidableEq, Repr

def reportSchema : Int64 := 1

structure ReportError where
  line : Int64
  field : GoString
  code : GoString
  raw : GoString

structure ReportWarning where
  code : GoString
  detail : Option BalanceMismatchDetail

structure ReportDoc where
  schema : Int64
  errors : List ReportError
  warnings : List ReportWarning

def capRaw (s : GoString) : GoString :=
  if s.length > maxRawLength then s.take maxRawLength else s

/-! ## The document as JSON -/

def ReportError.json (e : ReportError) : Json :=
  .object [("line", .ofInt64 e.line), ("field", .ofString e.field), ("code", .ofString e.code),
    ("raw", .ofString e.raw)]

def BalanceMismatchDetail.json (d : BalanceMismatchDetail) : Json :=
  .object [("Opening", .ofInt64 d.opening), ("Movements", .ofInt64 d.movements),
    ("Closing", .ofInt64 d.closing), ("Difference", .ofInt64 d.difference),
    ("Currency", .ofString d.currency)]

/-- A detail that is not there is omitted. -/
def ReportWarning.json (w : ReportWarning) : Json :=
  .object (("code", .ofString w.code) ::
    (w.detail.map fun d => ("detail", BalanceMismatchDetail.json d)).toList)

def ReportDoc.json (doc : ReportDoc) : Json :=
  .object [("schema", .ofInt64 doc.schema), ("errors", .ofSlice ReportError.json doc.errors),
    ("warnings", .ofSlice ReportWarning.json doc.warnings)]

def ReportError.read (value : Json) : Option ReportError := do
  let member ← value.members
  return ⟨← (member "line").readInt64, ← (member "field").readString,
    ← (member "code").readString, ← (member "raw").readString⟩

def BalanceMismatchDetail.read (value : Json) : Option BalanceMismatchDetail := do
  let member ← value.members
  return ⟨← (member "Opening").readInt64, ← (member "Movements").readInt64,
    ← (member "Closing").readInt64, ← (member "Difference").readInt64,
    ← (member "Currency").readString⟩

def ReportWarning.read (value : Json) : Option ReportWarning := do
  let member ← value.members
  return ⟨← (member "code").readString,
    ← (member "detail").readPointer BalanceMismatchDetail.read⟩

def ReportDoc.read (value : Json) : Option ReportDoc := do
  let member ← value.members
  return ⟨← (member "schema").readInt64, ← (member "errors").readSlice ReportError.read,
    ← (member "warnings").readSlice ReportWarning.read⟩

/-! ## report.go -/

def buildReportJSON (result : ValidationResult) : Json :=
  let errors := result.errors.take (min result.errors.length maxReportedErrors)
  ReportDoc.json ⟨reportSchema, errors.map fun e => ⟨e.line, e.field, e.code, capRaw e.raw⟩,
    result.warnings.map fun w => ⟨w.code, w.balance⟩⟩

def parseReportJSON (raw : Json) : Option (List ValidationError × List ValidationWarning) := do
  let doc ← ReportDoc.read raw
  return (doc.errors.map fun e => ⟨e.line, e.field, e.code, e.raw⟩,
    doc.warnings.map fun w => ⟨w.code, w.detail⟩)

end Vekst.Ingest.Report
