import Vekst.Arithmetic.Wrapping
import Vekst.Proof.Ingest.Reread

namespace Vekst.Ingest.Priorbank
open Calendar Ledger Wrapping

variable {time : TimeReader} {site : Site} {accountID : UUID} {batch : ImportBatchRow}
  {params : Option Parameters} {now : Instant} {st : Statement} {r : Row}

/-- What a row moves. -/
def signedAmount (r : Row) : Int64 := r.credit.minorUnits - r.debit.minorUnits

def exactAmount (r : Row) : Int := r.credit.minorUnits.toInt - r.debit.minorUnits.toInt

/-- No amount of the statement, and no balance reached from its opening one, leaves 64 bits. -/
structure Fitting (st : Statement) : Prop where
  amounts : ∀ r ∈ st.rows, Fits (exactAmount r)
  balance : Fits (st.opening.minorUnits.toInt + (st.rows.map exactAmount).sum)

theorem toInt_signedAmount (fits : Fits (exactAmount r)) :
    (signedAmount r).toInt = exactAmount r := by
  have wrapped : signedAmount r = Int64.ofInt (exactAmount r) := by
    rw [exactAmount, Int64.ofInt_sub, Int64.ofInt_toInt, Int64.ofInt_toInt]
    rfl
  rw [wrapped, toInt_ofInt_of_fits fits]

/-! ## What validation lets through -/

theorem errors_of_not_rejected
    (passed : (validateStatementWithParams time st now params).outcome ≠ .rejected) :
    (validateStatementWithParams time st now params).errors = [] := by
  by_contra found
  apply passed
  unfold validateStatementWithParams decideOutcome at found ⊢
  exact if_pos (List.length_pos_of_ne_nil found)

/-- Of the two sides of a row at most one moves money. -/
def OneSided (r : Row) : Prop := r.debit.minorUnits = 0 ∨ r.credit.minorUnits = 0

theorem oneSided_of_checkRow {currency : String}
    (clean : checkRow time r currency now params = []) : OneSided r := by
  by_contra both
  unfold OneSided at both
  push Not at both
  have reported : (⟨r.lineNo, "debit", "debit_and_credit_both_set",
      String.ofList (r.debitRaw ++ " / ".toList ++ r.creditRaw)⟩ : ValidationError) ∈
        checkRow time r currency now params := by
    simp [checkRow, both.1, both.2]
  rw [clean] at reported
  cases reported

theorem oneSided_of_not_rejected
    (passed : (validateStatementWithParams time st now params).outcome ≠ .rejected) :
    ∀ r ∈ st.rows, OneSided r := by
  intro r member
  have clean := errors_of_not_rejected passed
  have rows : st.rows.flatMap (checkRow time · st.currency now params) = [] :=
    (List.append_eq_nil_iff.mp clean).1
  exact oneSided_of_checkRow (List.flatMap_eq_nil_iff.mp rows r member)

/-! ## What is stored -/

theorem amount_buildTransaction {currency : String} {txn : Transaction} (side : OneSided r)
    (built : buildTransaction site accountID batch currency r.stored = .ok txn) :
    txn.amount.minorUnits = signedAmount r := by
  obtain ⟨date, _, made⟩ := bind_ok.mp built
  cases made
  show (if r.debit.minorUnits ≠ 0 then -r.debit.minorUnits else r.credit.minorUnits) = _
  unfold signedAmount
  by_cases debit : r.debit.minorUnits = 0
  · rw [if_neg (not_not.mpr debit), debit, sub_zero]
  · rw [if_pos debit, side.resolve_left debit, zero_sub]

theorem amounts_candidates {built : List Dedup.Candidate} (sides : ∀ r ∈ st.rows, OneSided r)
    (success : candidates site accountID batch st.stored = .ok built) :
    List.Forall₂ (fun r c => c.txn.amount.minorUnits = signedAmount r) st.rows built := by
  have rows : st.stored.rows = st.rows.map Row.stored := rfl
  unfold candidates at success
  rw [rows, Relational.mapM_eq_ok_iff, List.forall₂_map_left_iff] at success
  refine ((List.forall₂_and_left _ _).mpr ⟨sides, success⟩).imp fun r c ⟨side, made⟩ => ?_
  obtain ⟨txn, built, rfl⟩ := map_ok.mp made
  exact amount_buildTransaction side built

theorem sum_signedAmount (rows : List Row) : (rows.map signedAmount).sum =
    (rows.map (·.credit.minorUnits)).sum - (rows.map (·.debit.minorUnits)).sum := by
  induction rows with
  | nil => rfl
  | cons r rows ih =>
      simp only [List.map_cons, List.sum_cons, ih, signedAmount]
      abel

theorem closing_of_balanceCheck {difference : Money}
    (balanced : balanceCheck st = some (true, difference)) :
    st.opening.minorUnits + (st.rows.map signedAmount).sum = st.closing.minorUnits := by
  obtain ⟨d, known, made⟩ := Option.bind_eq_some_iff.mp balanced
  obtain ⟨zero, rfl⟩ := Prod.mk.inj (Option.some.inj made)
  have none_ : d.minorUnits = 0 := of_decide_eq_true zero
  rw [newMoney_eq known] at none_
  rw [sum_signedAmount, ← sub_eq_zero, ← none_]
  dsimp only
  abel

/-- What is stored of the rows that validation lets through makes up the bank's balances, in words
and, where nothing leaves them, exactly. -/
theorem stored_amounts_balance (time : TimeReader) (site : Site) (accountID : UUID)
    (batch : ImportBatchRow) (params : Option Parameters) (now : Instant) (st : Statement)
    (difference : Money) (built : List Dedup.Candidate)
    (passed : (validateStatementWithParams time st now params).outcome ≠ .rejected)
    (balanced : balanceCheck st = some (true, difference))
    (success : candidates site accountID batch st.stored = .ok built) :
    (List.Forall₂ (fun r c => c.txn.amount.minorUnits = signedAmount r) st.rows built ∧
      st.opening.minorUnits + (built.map (·.txn.amount.minorUnits)).sum =
        st.closing.minorUnits) ∧
    (Fitting st →
      List.Forall₂ (fun r c => c.txn.amount.minorUnits.toInt = exactAmount r) st.rows built ∧
      st.opening.minorUnits.toInt + (built.map (·.txn.amount.minorUnits.toInt)).sum =
        st.closing.minorUnits.toInt) := by
  have each := amounts_candidates (oneSided_of_not_rejected passed) success
  have words : built.map (·.txn.amount.minorUnits) = st.rows.map signedAmount :=
    Relational.map_eq_of_forall₂ each
  have closing := closing_of_balanceCheck balanced
  refine ⟨⟨each, by rw [words, closing]⟩, fun fitting => ?_⟩
  have exact_ : List.Forall₂ (fun r c => c.txn.amount.minorUnits.toInt = exactAmount r) st.rows
      built := by
    refine ((List.forall₂_and_left _ _).mpr ⟨fitting.amounts, each⟩).imp fun r c ⟨fits, same⟩ => ?_
    rw [same, toInt_signedAmount fits]
  have exactly : built.map (·.txn.amount.minorUnits.toInt) = st.rows.map exactAmount :=
    Relational.map_eq_of_forall₂ exact_
  refine ⟨exact_, ?_⟩
  rw [exactly, ← closing, ← toInt_ofInt_of_fits fitting.balance, Int64.ofInt_add,
    Int64.ofInt_toInt, ofInt_sum, List.map_map]
  congr 3
  apply List.map_congr_left
  intro r member
  rw [Function.comp_apply, ← toInt_signedAmount (fitting.amounts r member), Int64.ofInt_toInt]
def sampleRow (lineNo : Nat) (debit credit : String × Int64) : Row :=
  { lineNo, bookedOn := "08.01.2024".toList, documentNo := [], counterpartyName := []
    counterpartyTaxID := [], counterpartyAccount := [], description := "Оплата".toList
    regulatedCode := [], debit := ⟨"BYN", debit.2⟩, credit := ⟨"BYN", credit.2⟩
    debitRaw := debit.1.toList, creditRaw := credit.1.toList }

/-- A payment, a receipt, a correction of a payment, and a row of nothing. -/
def sampleRows : List Row :=
  [sampleRow 4 ("1,00", 100) ("0,00", 0), sampleRow 5 ("0,00", 0) ("5,00", 500),
    sampleRow 6 ("-2,00", -200) ("", 0), sampleRow 7 ("0,00", 0) ("0,00", 0)]

def sampleBalanced : Statement :=
  { emptyStatement with
    currency := "BYN", opening := ⟨"BYN", 1000⟩, closing := ⟨"BYN", 1600⟩, rows := sampleRows }

theorem stored_amounts_balance_sample : ∃ built,
    candidates sampleSite 1 sampleBatch sampleBalanced.stored = .ok built ∧
      1000 + (built.map (·.txn.amount.minorUnits.toInt)).sum = 1600 := by
  have read : ∀ r ∈ sampleBalanced.rows, (builtInDay r).isSome := by decide +kernel
  obtain ⟨built, made⟩ := exists_candidates read
  have fitting : Fitting sampleBalanced := ⟨by decide, by decide⟩
  exact ⟨built, made, ((stored_amounts_balance monthFirst sampleSite 1 sampleBatch none sampleNow
    sampleBalanced ⟨"BYN", 0⟩ built (by decide +kernel) (by decide +kernel) made).2 fitting).2⟩

end Vekst.Ingest.Priorbank
