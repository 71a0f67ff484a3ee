import Vekst.Arithmetic.Wrapping
import Vekst.Ingest.Priorbank
import Vekst.Ingest.Validation

namespace Vekst.Ingest.Priorbank
open Regex Calendar

/-! ## validate.go -/

/-- Nanoseconds, from the day before the first of the calendar. -/
abbrev Instant := Int

def nanosecondsPerDay : Int := 24 * 60 * 60 * 10 ^ 9

def midnight (d : Date) : Instant := d.dayNumber * nanosecondsPerDay

/-- What `time.ParseInLocation` reads in UTC, of a layout and a text. -/
abbrev TimeReader := String → Text → Option Instant

def dateWindow : Int := 10 * 365 * nanosecondsPerDay

/-- The booking date that validation reads: under the profile's layout alone where it names one. -/
def bookedAt (time : TimeReader) (params : Option Parameters) (raw : Text) : Option Instant :=
  let layout := (params.map (·.dateFormat)).getD ""
  if layout = "" then (parseDate (String.ofList raw)).toOption.map midnight
  else time layout (trimSpace raw)

def containsReplacementChar (s : Text) : Bool := '\ufffd' ∈ s

def checkRow (time : TimeReader) (r : Row) (currency : String) (now : Instant)
    (params : Option Parameters) : List ValidationError :=
  let error (field code : String) (raw : Text) : ValidationError :=
    ⟨r.lineNo, field, code, String.ofList raw⟩
  let dateErrors := match bookedAt time params r.bookedOn with
    | none => [error "booked_on" "date_implausible" r.bookedOn]
    | some t =>
        if t < now - dateWindow || now + nanosecondsPerDay < t then
          [error "booked_on" "date_implausible" r.bookedOn]
        else []
  let debitErrors := if (parseAmount currency r.debitRaw).isNone then
    [error "debit" "amount_unparseable" r.debitRaw] else []
  let creditErrors := if (parseAmount currency r.creditRaw).isNone then
    [error "credit" "amount_unparseable" r.creditRaw] else []
  let bothErrors := if r.debit.minorUnits ≠ 0 && r.credit.minorUnits ≠ 0 then
    [error "debit" "debit_and_credit_both_set" (r.debitRaw ++ " / ".toList ++ r.creditRaw)] else []
  let replacementFields := [("booked_on", r.bookedOn), ("document_no", r.documentNo),
    ("counterparty_name", r.counterpartyName), ("description", r.description)]
  let replacementErrors := (replacementFields.filter fun (_, value) =>
    containsReplacementChar value).map fun (field, value) =>
      error field "replacement_character" value
  let descriptionErrors := if trimSpace r.description = [] then
    [error "description" "description_missing" r.description] else []
  dateErrors ++ debitErrors ++ creditErrors ++ bothErrors ++ replacementErrors ++ descriptionErrors

def checkCurrency (currency : String) : List ValidationError :=
  if (Money.exponent currency).isNone then [⟨0, "currency", "currency_unknown", currency⟩] else []

/-! ## completeness.go -/

/-- The sum of the rows' credits less their debits. -/
def movements (st : Statement) : Int64 :=
  (st.rows.map fun r => r.credit.minorUnits - r.debit.minorUnits).sum

/-- Whether the balances reconcile, and by how much they do not. -/
def balanceCheck (st : Statement) : Option (Bool × Money) := do
  let debits := (st.rows.map (·.debit.minorUnits)).sum
  let credits := (st.rows.map (·.credit.minorUnits)).sum
  let expected := st.opening.minorUnits + credits - debits
  let difference ← newMoney st.currency (expected - st.closing.minorUnits)
  return (difference.minorUnits = 0, difference)

def checkPeriodContinuity (st : Statement) : List ValidationWarning :=
  if st.periodFrom = [] || st.periodTo = [] then []
  else match parseDate (String.ofList st.periodFrom), parseDate (String.ofList st.periodTo) with
    | .ok from_, .ok to_ =>
        if st.rows.any fun r => match parseDate (String.ofList r.bookedOn) with
          | .ok booked => booked < from_ || to_ < booked
          | .error _ => false
        then [⟨"period_gap", none⟩]
        else []
    | _, _ => []

def duplicateKey (r : Row) : Text :=
  r.bookedOn ++ '|' :: r.documentNo ++ '|' :: r.counterpartyAccount ++
    '|' :: (toString r.debit.minorUnits.toInt).toList ++
    '|' :: (toString r.credit.minorUnits.toInt).toList

def checkDuplicateBankReference (st : Statement) : List ValidationWarning :=
  if (st.rows.map duplicateKey).Nodup then [] else [⟨"duplicate_bank_reference", none⟩]

def checkRowCount (st : Statement) : List ValidationWarning :=
  match st.declaredRowCount with
  | none => []
  | some declared => if st.rows.length ≠ declared then [⟨"row_count_mismatch", none⟩] else []

def validateStatementWithParams (time : TimeReader) (st : Statement) (now : Instant)
    (params : Option Parameters) : ValidationResult :=
  let errors := st.rows.flatMap (checkRow time · st.currency now params) ++ checkCurrency st.currency
  let balance := if st.hasDeclaredBalance then balanceCheck st else none
  let balanceWarnings := match balance with
    | some (false, difference) => [⟨"balance_mismatch", some ⟨st.opening.minorUnits, movements st,
        st.closing.minorUnits, difference.minorUnits, st.currency⟩⟩]
    | _ => []
  decideOutcome st.rows.length errors (balanceWarnings ++ checkPeriodContinuity st ++
    checkDuplicateBankReference st ++ checkRowCount st) (balance.map Prod.fst)

end Vekst.Ingest.Priorbank
