import Vekst.Ingest.Statement
import Vekst.Text.Regex

namespace Vekst.Ingest
open Regex

/-! ## profile.go -/

/-- The fields a column map may name. -/
def canonicalFields : List String := [
  "booked_on", "value_on", "amount", "debit", "credit", "currency",
  "description", "counterparty", "bank_ref", "document_ref", "posting_no",
  "opening_balance", "closing_balance", "row_count_declared"]

/-- From the source's column names to canonical fields; no name has two. -/
abbrev ColumnMap := List (Text × String)

/-- What a profile can override; an empty field lets the detector decide that one. -/
structure Parameters where
  charset : String
  /-- Zero is the parser's own. -/
  delimiter : UInt8
  decimalSep : String
  dateFormat : String
  columnMap : ColumnMap
deriving DecidableEq, Repr

/-- The source column of a field: the first that names it, in the order the map's entries come. -/
def sourceColumn (order : ColumnMap) (field : String) (default_ : Text) : Text :=
  ((order.find? (·.2 = field)).map Prod.fst).getD default_

/-! ## profileservice.go -/

structure ProfileInput where
  name : String
  sourceKind : String
  columnMap : ColumnMap
  charset : String
  delimiter : String
  decimalSep : String
  dateFormat : String
deriving DecidableEq, Repr

structure Profile where
  id : UUID
  name : String
  sourceKind : String
  columnMap : ColumnMap
  charset : String
  delimiter : String
  decimalSep : String
  dateFormat : String
deriving DecidableEq, Repr

def invalidArgument : Failure := .coded "invalid_argument"

def validateProfileInput (input : ProfileInput) (requireSourceKind : Bool) : Except Failure Unit :=
  if trimSpace input.name.toList = [] then .error invalidArgument
  else if requireSourceKind && input.sourceKind ≠ "ledger" && input.sourceKind ≠ "bank" then
    .error invalidArgument
  else if input.columnMap = [] then .error invalidArgument
  else .ok ()

/-- The checks of the table, of which each text column takes an empty one as absent. -/
def checkProfile (others : List Profile) (p : Profile) : Except Failure Unit :=
  if !(p.name.toList.any (· ≠ ' ')) then .error (.constraint "import_profiles_name_check")
  else if p.sourceKind ≠ "ledger" && p.sourceKind ≠ "bank" then
    .error (.constraint "import_profiles_source_kind_check")
  else if 1 < p.delimiter.length then .error (.constraint "import_profiles_delimiter_check")
  else if p.decimalSep ≠ "" && p.decimalSep ≠ "," && p.decimalSep ≠ "." then
    .error (.constraint "import_profiles_decimal_sep_check")
  else if !(p.columnMap.all (·.2 ∈ canonicalFields)) then
    .error (.constraint "import_profiles_column_map_is_canonical")
  else if others.any (·.name = p.name) then
    .error (.constraint "import_profiles_org_id_name_key")
  else .ok ()

def createImportProfile (profiles : List Profile) (id : UUID) (input : ProfileInput) :
    Except Failure (Profile × List Profile) := do
  validateProfileInput input true
  let p : Profile := ⟨id, input.name, input.sourceKind, input.columnMap, input.charset,
    input.delimiter, input.decimalSep, input.dateFormat⟩
  checkProfile profiles p
  return (p, profiles ++ [p])

def updateImportProfile (profiles : List Profile) (id : UUID) (input : ProfileInput) :
    Except Failure (Profile × List Profile) := do
  validateProfileInput input false
  match profiles.find? (·.id = id) with
  | none => .error .noRowsAffected
  | some old =>
      let p : Profile := ⟨id, input.name, old.sourceKind, input.columnMap, input.charset,
        input.delimiter, input.decimalSep, input.dateFormat⟩
      checkProfile (profiles.filter (·.id ≠ id)) p
      return (p, profiles.map fun x => if x.id = id then p else x)

/-- The delimiter is the first byte of its text. -/
def Profile.toParameters (p : Profile) : Parameters where
  charset := p.charset
  delimiter := (p.delimiter.toUTF8.toList.head?).getD 0
  decimalSep := p.decimalSep
  dateFormat := p.dateFormat
  columnMap := p.columnMap

end Vekst.Ingest
