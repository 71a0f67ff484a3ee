import Vekst.Proof.Ingest.Duplicates

namespace Vekst
open Isolation Ledger

/-- The row is in the currency, or carries its amount in it with the rate and the rate's date. -/
def Converted (currency : String) (t : TransactionRow) : Prop :=
  t.currency = currency ∨ (t.baseAmountMinor.isSome ∧ t.baseCurrency = some currency ∧
    t.fxRate.isSome ∧ t.fxRateOn.isSome)

instance (currency : String) (t : TransactionRow) : Decidable (Converted currency t) :=
  inferInstanceAs (Decidable (_ ∨ _))

/-- The currency of `coalesce(base_amount_minor, amount_minor)`. -/
def amountCurrency (t : TransactionRow) : Option String :=
  if t.baseAmountMinor.isSome then t.baseCurrency else some t.currency

/-- A conversion is complete or absent, as `txn_fx_is_all_or_nothing` has it, and into the
organisation's currency. -/
def InBaseCurrency (d : Database) : Prop :=
  ∀ t ∈ d.transactions, Converted d.baseCurrency t ∧ amountCurrency t = some d.baseCurrency

/-- A statement that brings rows is in the currency. -/
def StatementsIn (currency : String) : Event → Prop
  | .answer _ (.statement (some st)) => st.rows ≠ [] → st.currency = currency
  | _ => True

theorem statementsIn_admits (site : Site) {currency : String} {event : Event}
    (admitted : StatementsIn currency event) : (rules site (· = currency)).Admits event := by
  cases event with
  | answer i reply =>
      rintro st rfl rows
      exact admitted rows
  | _ => trivial

/-- The rows a transaction stores are plain amounts in the currency. -/
def PlainIn (currency : String) (pending : List Write) : Prop :=
  ∀ row ∈ insertedTransactions pending, row.currency = currency ∧ row.baseAmountMinor = none

theorem PlainIn.written {currency : String} {sha256 : String → String} {d : Database}
    {pending writes : List Write} (plain : PlainIn currency pending)
    (lawful : Lawful (· = currency) sha256 pending d writes) :
    PlainIn currency (pending ++ writes) := by
  intro row member
  rw [insertedTransactions_append] at member
  rcases List.mem_append.mp member with old | new
  · exact plain row old
  · rcases lawful with ordinary | ⟨stored, rfl, stores⟩
    · rw [insertedTransactions_of_ordinary ordinary] at new
      cases new
    · obtain rfl : row = stored := by simpa [insertedTransactions] using new
      exact ⟨stores.currency, stores.plain.2.2.1⟩

theorem inBaseCurrency_carries (site : Site) (currency : String) :
    Carries (rules site (· = currency))
      (fun (_ : System) (event : Event) => StatementsIn currency event)
      (fun d => d.baseCurrency = currency ∧ InBaseCurrency d)
      fun _ pending _ => PlainIn currency pending where
  opened d _ := by simp [PlainIn, insertedTransactions]
  written d pending writes _ plain lawful := plain.written lawful
  passed d pending _ plain _ := plain
  published sys i client _ _ sound plain := by
    obtain ⟨base, converted⟩ := sound
    refine ⟨(visible_baseCurrency _ _).trans base, fun t member => ?_⟩
    rw [visible_transactions] at member
    rw [visible_baseCurrency]
    rcases List.mem_append.mp member with old | new
    · exact converted t old
    · obtain ⟨same, noFX⟩ := plain t new
      refine ⟨.inl (same.trans base.symm), ?_⟩
      simp only [amountCurrency, noFX, Option.isSome_none, same, base]
      rfl
  unmoved sys i client other _ _ _ _ _ held := held

/-- While every statement is in the organisation's currency, so is every amount of the ledger. -/
theorem ledger_in_base_currency {site : Site} {d : Database} {sys : System}
    (initially : InBaseCurrency d)
    (run : Run (body site) (fun _ event => StatementsIn d.baseCurrency event) (System.idle d) sys) :
    InBaseCurrency sys.committed :=
  (Run.carries (inBaseCurrency_carries site d.baseCurrency) (fun label _ => body_keeps label)
    (fun _ _ admitted => statementsIn_admits site admitted) run rfl ⟨rfl, initially⟩).1.2

/-! ## A statement in another currency -/

instance (currency : String) (event : Event) : Decidable (StatementsIn currency event) := by
  unfold StatementsIn
  split <;> infer_instance

instance (d : Database) : Decidable (InBaseCurrency d) :=
  inferInstanceAs (Decidable (∀ t ∈ d.transactions, _ ∧ _))

theorem ledger_in_base_currency_sample :
    ∃ sys, Run (body sampleSite) (fun _ event => StatementsIn emptyLedger.baseCurrency event)
        (System.idle emptyLedger) sys ∧
      sys.committed.transactions.length = 1 ∧ InBaseCurrency sys.committed := by
  have evaluated : (fireAll (body sampleSite) (System.idle emptyLedger)
      (deliveryEvents 0 ++ [.exec 0, .exec 0, .check 0, .publish 0])).map
      (fun sys => sys.committed.transactions.length) = some 1 := by decide +kernel
  obtain ⟨sys, fired, stored⟩ := Option.map_eq_some_iff.mp evaluated
  have run : Run (body sampleSite) (fun _ event => StatementsIn emptyLedger.baseCurrency event)
      (System.idle emptyLedger) sys := Run.of_fireAll (by decide +kernel) fired
  have initially : InBaseCurrency emptyLedger := by decide
  exact ⟨sys, run, stored, ledger_in_base_currency initially run⟩

/-- The batch's statement in dollars: the row is stored as it came. -/
def dollarEvents : List Event := [
  .spawn (.persistImport 1 (sampleDraws 100)), .jump 0, .exec 0, .check 0, .publish 0,
  .answer 0 (.statement (some
    ⟨"BY01", "USD", "", [{ sampleRow 5 120000 with credit := ⟨"USD", 120000⟩ }]⟩)),
  .exec 0, .exec 0, .exec 0, .exec 0, .exec 0, .exec 0, .check 0, .publish 0]

theorem foreign_statement_stored_unconverted :
    ¬ ∀ sys, Run (body sampleSite) (fun _ _ => True) (System.idle emptyLedger) sys →
      InBaseCurrency sys.committed := by
  intro claimed
  have evaluated : (fireAll (body sampleSite) (System.idle emptyLedger) dollarEvents).map
      (fun sys => decide (InBaseCurrency sys.committed)) = some false := by decide +kernel
  obtain ⟨sys, fired, foreign⟩ := Option.map_eq_some_iff.mp evaluated
  exact of_decide_eq_false foreign (claimed sys (Run.of_fireAll (admitsAll fun _ _ => trivial) fired))

end Vekst
