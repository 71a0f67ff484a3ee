import Vekst.Ingest.Stages
import Vekst.Proof.Ingest.MapOrder
import Vekst.Proof.Jobs

namespace Vekst.Ingest.Priorbank
open Regex Calendar Ledger

/-! ## What each job reads of a row -/

/-- The day that validation reads. -/
def validatedDay (time : TimeReader) (params : Option Parameters) (r : Row) : Option Int :=
  (bookedAt time params r.bookedOn).map (· / nanosecondsPerDay)

/-- The day that the layouts of the package read, whatever the profile says. -/
def builtInDay (r : Row) : Option Int :=
  (parseDate (String.ofList r.bookedOn)).toOption.map Date.dayNumber

def amounts (r : Row) : Nat × Money × Money := (r.lineNo, r.debit, r.credit)

/-- The persist job reads the object and builds every row, of the same lines, days and amounts. -/
def Stores (enc : Encodings) (time : TimeReader) (site : Site) (accountID : UUID)
    (batch : ImportBatchRow) (raw : Bytes) (validating persisting : Option Parameters)
    (order : Order) (st : Statement) : Prop :=
  ∃ again built, parseWithParams enc raw persisting order = some again ∧
    candidates site accountID batch again.stored = .ok built ∧
    built.map (·.lineNo) = st.rows.map (fun r => (r.lineNo : Int)) ∧
    built.map (fun c => some c.txn.bookedOn.dayNumber) = st.rows.map (validatedDay time validating) ∧
    again.rows.map (fun r => (r.debit, r.credit)) = st.rows.map fun r => (r.debit, r.credit)

/-- The object under the profile of the persist job has the same lines and amounts, and the
layouts of the package read the same days there. -/
def ReadsAgain (enc : Encodings) (time : TimeReader) (raw : Bytes)
    (validating persisting : Option Parameters) (order : Order) (st : Statement) : Prop :=
  ∃ again, parseWithParams enc raw persisting order = some again ∧
    again.rows.map amounts = st.rows.map amounts ∧
    again.rows.map builtInDay = st.rows.map (validatedDay time validating)

variable {enc : Encodings} {time : TimeReader} {site : Site} {accountID : UUID}
  {batch : ImportBatchRow} {raw : Bytes} {validating persisting params : Option Parameters}
  {order : Order} {now : Instant} {mixedCurrency : Bool} {st : Statement}

theorem buildTransaction_ok {currency : String} {r : Ingest.Row} {txn : Transaction}
    (built : buildTransaction site accountID batch currency r = .ok txn) :
    parseDate r.bookedOn = .ok txn.bookedOn := by
  obtain ⟨date, read, made⟩ := bind_ok.mp built
  cases made
  exact read

theorem exists_buildTransaction {currency : String} {r : Ingest.Row} {date : Date}
    (read : parseDate r.bookedOn = .ok date) :
    ∃ txn, buildTransaction site accountID batch currency r = .ok txn := by
  unfold buildTransaction
  rw [read]
  exact ⟨_, rfl⟩

theorem exists_candidates (read : ∀ r ∈ st.rows, (builtInDay r).isSome) :
    ∃ built, candidates site accountID batch st.stored = .ok built := by
  unfold candidates
  apply Relational.exists_mapM
  intro stored member
  obtain ⟨r, known, rfl⟩ := List.mem_map.mp member
  obtain ⟨date, parsed⟩ : ∃ date, parseDate r.stored.bookedOn = .ok date := by
    have day := read r known
    unfold builtInDay at day
    cases parsed : parseDate (String.ofList r.bookedOn) with
    | error e => simp [parsed, Except.toOption] at day
    | ok date => exact ⟨date, parsed⟩
  obtain ⟨txn, built⟩ := exists_buildTransaction parsed
  exact ⟨_, map_ok.mpr ⟨txn, built, rfl⟩⟩

/-- Under a profile left as it was, whose columns agree on the file, the days alone can differ. -/
theorem readsAgain_iff_of_same_profile {validatingOrder : Order}
    (ok : accepted enc time raw params validatingOrder now mixedCurrency = some st)
    (columns : FileColumnsAgree enc raw params) (first : OrderOf params validatingOrder)
    (second : OrderOf params order) :
    ReadsAgain enc time raw params params order st ↔
      ∀ r ∈ st.rows, builtInDay r = validatedDay time params r := by
  obtain ⟨parsed, _⟩ := Option.filter_eq_some_iff.mp ok
  have same : parseWithParams enc raw params order = some st := by
    rw [← parsed]
    unfold parseWithParams
    rw [parsePriorbankWithParams_same columns second first]
  constructor
  · rintro ⟨again, read, _, days⟩
    obtain rfl : again = st := Option.some.inj (read.symm.trans same)
    exact List.map_inj_left.mp days
  · intro days
    exact ⟨st, same, rfl, List.map_inj_left.mpr days⟩

/-- `Приорбанк`, `Счет клиента BY01`, `Дата док;Назначение;Номинал.Дебет;Номинал.Кредит` and
`08.01.2024;Оплата;1,00;0,00`, each on a line. -/
def sampleFile : Bytes := [
  207, 240, 232, 238, 240, 225, 224, 237, 234, 10, 209, 247, 229, 242, 32, 234, 235, 232, 229,
  237, 242, 224, 32, 66, 89, 48, 49, 10, 196, 224, 242, 224, 32, 228, 238, 234, 59, 205, 224,
  231, 237, 224, 247, 229, 237, 232, 229, 59, 205, 238, 236, 232, 237, 224, 235, 46, 196, 229,
  225, 229, 242, 59, 205, 238, 236, 232, 237, 224, 235, 46, 202, 240, 229, 228, 232, 242, 10, 48,
  56, 46, 48, 49, 46, 50, 48, 50, 52, 59, 206, 239, 235, 224, 242, 224, 59, 49, 44, 48, 48, 59,
  48, 44, 48, 48, 10]

/-- `time.ParseInLocation` as it is of the layout `01.02.2006`. -/
def monthFirst : TimeReader := fun layout text =>
  if layout = "01.02.2006" then do
    let (year, month, day) ←
      readLayout [.month, .literal '.', .day, .literal '.', .year] text (0, 0, 0)
    (dateOf year month day).map midnight
  else none

/-- The first of September, 2024. -/
def sampleNow : Instant := midnight ⟨2024, 9, 1, by decide, by decide⟩

def sampleBatch : ImportBatchRow := ⟨1, 1, .bank, .validated, some "f1", none⟩

end Vekst.Ingest.Priorbank
