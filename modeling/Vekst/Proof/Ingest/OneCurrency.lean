import Vekst.Proof.Ingest.Rows

namespace Vekst.Ingest.Priorbank
open Regex

/-! ## The lines that money is read from -/

inductive Kind where
  | row
  | opening
  | closing
  | turnovers
  | other
deriving DecidableEq, Repr

def kindOf (rec_ : List Text) : Kind :=
  let first := trimSpace (cell rec_ 0)
  if isRow rec_ then .row
  else if "Входящее сальдо".toList.isPrefixOf first then .opening
  else if "Исходящее сальдо".toList.isPrefixOf first then .closing
  else if "Обороты".toList.isPrefixOf first then .turnovers
  else .other

/-- The currency behind a line: an opening balance may name another. -/
def nextCurrency (currency : String) (rec_ : List Text) : String :=
  if kindOf rec_ = .opening ∧ currencyFromSummary rec_ ≠ [] then
    String.ofList (currencyFromSummary rec_)
  else currency

/-- The currency behind some lines. -/
def inForce (currency : String) (records : List (List Text)) : String :=
  records.foldl nextCurrency currency

/-- The lines before the last one of a kind. -/
def beforeLast (kind : Kind) : List (List Text) → Option (List (List Text))
  | [] => none
  | rec_ :: rest => match beforeLast kind rest with
      | some between => some (rec_ :: between)
      | none => if kindOf rec_ = kind then some [] else none

/-- The currency that the last line of a kind is read in; that of the account where there is none. -/
def currencyAt (currency : String) (kind : Kind) (records : List (List Text)) : String :=
  inForce currency ((beforeLast kind records).getD [])

/-- The currencies that the rows are read in. -/
def rowCurrencies (currency : String) : List (List Text) → List String
  | [] => []
  | rec_ :: rest =>
      (if kindOf rec_ = .row then [currency] else []) ++
        rowCurrencies (nextCurrency currency rec_) rest

/-- The last currency that is named is in force wherever money of the statement is read. -/
def Settled (currency : String) (records : List (List Text)) : Prop :=
  (∀ kind ∈ [Kind.opening, .closing, .turnovers],
    currencyAt currency kind records = inForce currency records) ∧
  ∀ c ∈ rowCurrencies currency records, c = inForce currency records

variable {currency : String} {kind : Kind} {rec_ : List Text} {before : List (List Text)}

theorem inForce_concat :
    inForce currency (before ++ [rec_]) = nextCurrency (inForce currency before) rec_ := by
  rw [inForce, List.foldl_append]
  rfl

theorem beforeLast_concat : beforeLast kind (before ++ [rec_]) =
    if kindOf rec_ = kind then some before else beforeLast kind before := by
  induction before with
  | nil =>
      rw [List.nil_append, beforeLast]
      rfl
  | cons first rest ih =>
      rw [List.cons_append, beforeLast, ih, beforeLast]
      by_cases last : kindOf rec_ = kind
      · rw [if_pos last, if_pos last]
      · rw [if_neg last, if_neg last]

theorem currencyAt_concat : currencyAt currency kind (before ++ [rec_]) =
    if kindOf rec_ = kind then inForce currency before else currencyAt currency kind before := by
  unfold currencyAt
  rw [beforeLast_concat]
  split <;> rfl

theorem rowCurrencies_concat : rowCurrencies currency (before ++ [rec_]) =
    rowCurrencies currency before ++
      if kindOf rec_ = .row then [inForce currency before] else [] := by
  induction before generalizing currency with
  | nil => simp [rowCurrencies, inForce]
  | cons first rest ih =>
      rw [List.cons_append, rowCurrencies, ih, rowCurrencies, List.append_assoc]
      rfl

/-! ## What one line changes -/

variable {layout : Layout} {order : Order} {st st' : Statement} {lineNo : Nat}

theorem readRecord_kind : readRecord layout order st (lineNo, rec_) = match kindOf rec_ with
    | .row => (parseRow rec_ lineNo layout.header layout.debitAt layout.creditAt st.currency
        order).map fun row => { st with rows := st.rows ++ [row] }
    | .opening => (summaryBalance rec_ st.currency layout.hasEquivalent).map fun opening =>
        { st with opening, currency := nextCurrency st.currency rec_, hasDeclaredBalance := true }
    | .closing => (summaryBalance rec_ st.currency layout.hasEquivalent).map fun closing =>
        { st with closing, hasDeclaredBalance := true }
    | .turnovers => (summaryPair rec_ st.currency layout.hasEquivalent).map fun pair =>
        { st with declaredDebit := pair.1, declaredCredit := pair.2 }
    | .other => some st := by
  by_cases row : isRow rec_
  · rw [readRecord_row row, kindOf, if_pos row]
  · have undated : ¬ matchString datePrefix (trimSpace (cell rec_ 0)) := row
    simp only [readRecord, nextCurrency, kindOf, if_neg row, if_neg undated]
    split
    · cases summaryBalance rec_ st.currency layout.hasEquivalent with
      | none => rfl
      | some opening =>
          by_cases named : currencyFromSummary rec_ = [] <;> simp [named]
    split
    · cases summaryBalance rec_ st.currency layout.hasEquivalent <;> rfl
    split
    · cases summaryPair rec_ st.currency layout.hasEquivalent <;> rfl
    · rfl

/-! ## Money in a currency -/

/-- Nothing, or a balance that one of the lines shows when it is read in the currency. -/
def BalanceIn (records : List (List Text)) (c : String) (m : Money) : Prop :=
  m = ⟨c, 0⟩ ∨ ∃ rec_ ∈ records, ∃ equivalent, summaryBalance rec_ c equivalent = some m

def TurnoversIn (records : List (List Text)) (c : String) (debit credit : Money) : Prop :=
  (debit = ⟨c, 0⟩ ∧ credit = ⟨c, 0⟩) ∨
    ∃ rec_ ∈ records, ∃ equivalent, summaryPair rec_ c equivalent = some (debit, credit)

/-- The amounts that the texts of a row spell in the currency; zero for what is no amount of it. -/
structure AmountsIn (c : String) (r : Row) : Prop where
  debit : r.debit = (parseAmount c r.debitRaw).getD ⟨c, 0⟩
  credit : r.credit = (parseAmount c r.creditRaw).getD ⟨c, 0⟩

/-- All money of a statement carries its currency and is read in it. -/
structure OneCurrency (records : List (List Text)) (st : Statement) : Prop where
  opening : st.opening.currencyCode = st.currency ∧ BalanceIn records st.currency st.opening
  closing : st.closing.currencyCode = st.currency ∧ BalanceIn records st.currency st.closing
  turnovers : (st.declaredDebit.currencyCode = st.currency ∧
    st.declaredCredit.currencyCode = st.currency) ∧
      TurnoversIn records st.currency st.declaredDebit st.declaredCredit
  rows : ∀ r ∈ st.rows, (r.debit.currencyCode = st.currency ∧
    r.credit.currencyCode = st.currency) ∧ AmountsIn st.currency r

variable {records more : List (List Text)} {c : String} {m debit credit : Money} {r : Row}

theorem code_parse {decimal : Text} (read : Money.parse c decimal = some m) : m.currencyCode = c := by
  obtain ⟨exp, _, read⟩ := Option.bind_eq_some_iff.mp read
  dsimp only at read
  generalize (if decimal.head? = some '-' then decimal.tail else decimal) = s at read
  split at read
  · split at read
    · cases read
    · obtain ⟨n, _, made⟩ := Option.bind_eq_some_iff.mp read
      cases made
      rfl
  · split at read
    · cases read
    · obtain ⟨whole, _, read⟩ := Option.bind_eq_some_iff.mp read
      obtain ⟨frac, _, made⟩ := Option.bind_eq_some_iff.mp read
      cases made
      rfl

theorem code_parseAmount {raw : Text} (read : parseAmount c raw = some m) : m.currencyCode = c := by
  obtain ⟨decimal, _, parsed⟩ := Option.bind_eq_some_iff.mp read
  exact code_parse parsed

theorem code_summaryPair {equivalent : Bool}
    (read : summaryPair rec_ c equivalent = some (debit, credit)) :
    debit.currencyCode = c ∧ credit.currencyCode = c := by
  obtain ⟨_, read⟩ := Option.ite_none_left_eq_some.mp read
  obtain ⟨d, first, read⟩ := Option.bind_eq_some_iff.mp read
  obtain ⟨k, second, made⟩ := Option.bind_eq_some_iff.mp read
  cases made
  exact ⟨code_parseAmount first, code_parseAmount second⟩

theorem code_summaryBalance {equivalent : Bool} (read : summaryBalance rec_ c equivalent = some m) :
    m.currencyCode = c := by
  obtain ⟨_, _, made⟩ := Option.bind_eq_some_iff.mp read
  rw [newMoney_eq made]

theorem BalanceIn.code (balance : BalanceIn records c m) : m.currencyCode = c := by
  rcases balance with rfl | ⟨_, _, _, read⟩
  · rfl
  · exact code_summaryBalance read

theorem TurnoversIn.code (turnovers : TurnoversIn records c debit credit) :
    debit.currencyCode = c ∧ credit.currencyCode = c := by
  rcases turnovers with ⟨rfl, rfl⟩ | ⟨_, _, _, read⟩
  · exact ⟨rfl, rfl⟩
  · exact code_summaryPair read

theorem code_amount (raw : Text) : ((parseAmount c raw).getD ⟨c, 0⟩).currencyCode = c := by
  cases read : parseAmount c raw with
  | none => rfl
  | some m => exact code_parseAmount read

theorem AmountsIn.code (amounts : AmountsIn c r) :
    r.debit.currencyCode = c ∧ r.credit.currencyCode = c := by
  rw [amounts.debit, amounts.credit]
  exact ⟨code_amount _, code_amount _⟩

theorem BalanceIn.mono (balance : BalanceIn records c m) (wider : records ⊆ more) :
    BalanceIn more c m := by
  rcases balance with zero | ⟨rec_, member, shown⟩
  · exact .inl zero
  · exact .inr ⟨rec_, wider member, shown⟩

theorem TurnoversIn.mono (turnovers : TurnoversIn records c debit credit) (wider : records ⊆ more) :
    TurnoversIn more c debit credit := by
  rcases turnovers with zero | ⟨rec_, member, shown⟩
  · exact .inl zero
  · exact .inr ⟨rec_, wider member, shown⟩

theorem amountsIn_parseRow (parsed : parseRow rec_ lineNo layout.header layout.debitAt
    layout.creditAt st.currency order = some r) : AmountsIn st.currency r := by
  rw [parseRow_eq] at parsed
  obtain ⟨zero, known, rfl⟩ := Option.map_eq_some_iff.mp parsed
  rw [newMoney_eq known]
  exact ⟨by rw [parseAmount_trimSpace], by rw [parseAmount_trimSpace]⟩

/-! ## The run over the lines -/

/-- What has been read so far is in the currencies of its lines. -/
structure ReadIn (currency : String) (records : List (List Text)) (st : Statement) : Prop where
  current : st.currency = inForce currency records
  opening : BalanceIn records (currencyAt currency .opening records) st.opening
  closing : BalanceIn records (currencyAt currency .closing records) st.closing
  turnovers : TurnoversIn records (currencyAt currency .turnovers records) st.declaredDebit
    st.declaredCredit
  rows : List.Forall₂ AmountsIn (rowCurrencies currency records) st.rows

theorem ReadIn.step (soFar : ReadIn currency before st)
    (read : readRecord layout order st (lineNo, rec_) = some st') :
    ReadIn currency (before ++ [rec_]) st' := by
  obtain ⟨current, opening, closing, turnovers, rows⟩ := soFar
  have wider : before ⊆ before ++ [rec_] := List.subset_append_left _ _
  have last : rec_ ∈ before ++ [rec_] := by simp
  have unnamed (other : kindOf rec_ ≠ .opening) :
      inForce currency (before ++ [rec_]) = inForce currency before := by
    rw [inForce_concat]
    exact if_neg fun named => other named.1
  have elsewhere (j : Kind) (other : kindOf rec_ ≠ j) :
      currencyAt currency j (before ++ [rec_]) = currencyAt currency j before := by
    rw [currencyAt_concat, if_neg other]
  have here : currencyAt currency (kindOf rec_) (before ++ [rec_]) = st.currency := by
    rw [currencyAt_concat, if_pos rfl, current]
  have rowless (other : kindOf rec_ ≠ .row) :
      rowCurrencies currency (before ++ [rec_]) = rowCurrencies currency before := by
    rw [rowCurrencies_concat, if_neg other, List.append_nil]
  rw [readRecord_kind] at read
  generalize kind : kindOf rec_ = k at read unnamed elsewhere here rowless
  cases k with
  | row =>
      obtain ⟨r, parsed, rfl⟩ := Option.map_eq_some_iff.mp read
      refine ⟨current.trans (unnamed nofun).symm, ?_, ?_, ?_, ?_⟩
      · rw [elsewhere .opening nofun]
        exact opening.mono wider
      · rw [elsewhere .closing nofun]
        exact closing.mono wider
      · rw [elsewhere .turnovers nofun]
        exact turnovers.mono wider
      · rw [rowCurrencies_concat, if_pos kind, ← current]
        exact List.rel_append rows (.cons (amountsIn_parseRow parsed) .nil)
  | opening =>
      obtain ⟨m, shown, rfl⟩ := Option.map_eq_some_iff.mp read
      refine ⟨?_, ?_, ?_, ?_, ?_⟩
      · rw [inForce_concat, ← current]
      · rw [here]
        exact .inr ⟨rec_, last, _, shown⟩
      · rw [elsewhere .closing nofun]
        exact closing.mono wider
      · rw [elsewhere .turnovers nofun]
        exact turnovers.mono wider
      · rw [rowless nofun]
        exact rows
  | closing =>
      obtain ⟨m, shown, rfl⟩ := Option.map_eq_some_iff.mp read
      refine ⟨current.trans (unnamed nofun).symm, ?_, ?_, ?_, ?_⟩
      · rw [elsewhere .opening nofun]
        exact opening.mono wider
      · rw [here]
        exact .inr ⟨rec_, last, _, shown⟩
      · rw [elsewhere .turnovers nofun]
        exact turnovers.mono wider
      · rw [rowless nofun]
        exact rows
  | turnovers =>
      obtain ⟨⟨debit, credit⟩, shown, rfl⟩ := Option.map_eq_some_iff.mp read
      refine ⟨current.trans (unnamed nofun).symm, ?_, ?_, ?_, ?_⟩
      · rw [elsewhere .opening nofun]
        exact opening.mono wider
      · rw [elsewhere .closing nofun]
        exact closing.mono wider
      · rw [here]
        exact .inr ⟨rec_, last, _, shown⟩
      · rw [rowless nofun]
        exact rows
  | other =>
      cases read
      refine ⟨current.trans (unnamed nofun).symm, ?_, ?_, ?_, ?_⟩
      · rw [elsewhere .opening nofun]
        exact opening.mono wider
      · rw [elsewhere .closing nofun]
        exact closing.mono wider
      · rw [elsewhere .turnovers nofun]
        exact turnovers.mono wider
      · rw [rowless nofun]
        exact rows

theorem readIn_run {rest : List (Nat × List Text)} (soFar : ReadIn currency before st)
    (read : rest.foldlM (readRecord layout order) st = some st') :
    ReadIn currency (before ++ rest.map Prod.snd) st' := by
  induction rest generalizing before st with
  | nil =>
      cases read
      simpa using soFar
  | cons record rest ih =>
      rw [List.foldlM_cons] at read
      obtain ⟨next, first, read⟩ := Option.bind_eq_some_iff.mp read
      have run := ih (soFar.step first) read
      rwa [List.append_assoc] at run

/-- A statement whose lines were read in some currencies is of one just where those are its own. -/
theorem oneCurrency_iff (run : ReadIn currency records st) :
    OneCurrency records st ↔ Settled currency records := by
  obtain ⟨current, opening, closing, turnovers, rows⟩ := run
  unfold Settled
  rw [← current]
  simp only [List.forall_mem_cons, List.not_mem_nil, false_imp_iff, implies_true, and_true]
  constructor
  · rintro ⟨first, second, third, each⟩
    refine ⟨⟨opening.code.symm.trans first.1, closing.code.symm.trans second.1,
      turnovers.code.1.symm.trans third.1.1⟩, fun c member => ?_⟩
    obtain ⟨r, listed, amounts⟩ := Relational.exists_right_of_forall₂ rows member
    exact amounts.code.1.symm.trans (each r listed).1.1
  · rintro ⟨⟨first, second, third⟩, each⟩
    rw [first] at opening
    rw [second] at closing
    rw [third] at turnovers
    refine ⟨⟨opening.code, opening⟩, ⟨closing.code, closing⟩, ⟨turnovers.code, turnovers⟩, ?_⟩
    intro r listed
    obtain ⟨c, member, amounts⟩ := Relational.exists_left_of_forall₂ rows listed
    rw [each c member] at amounts
    exact ⟨amounts.code, amounts⟩

/-! ## Files -/

def fileRecords (enc : Encodings) (raw : Bytes) (params : Option Parameters) :
    List (Nat × List Text) :=
  ((decode enc raw (charsetOf enc raw params)).bind (recordsOf · (delimiterOf params))).getD []

/-- The currency that the lines before the header name, or the rouble. -/
def accountCurrency (records : List (Nat × List Text)) : String :=
  (preambleOf records ((records.findIdx? fun record => isHeader record.2).getD 0)).currency

theorem readIn_opened {lines : List (Nat × List Text)} {opened : Statement}
    (opens : openStatement lines order = some (layout, opened)) :
    ReadIn (accountCurrency lines) [] opened := by
  have rowless : opened.rows = [] := (openStatement_opened opens).1.rows
  obtain ⟨headerAt, found, opens⟩ := Option.bind_eq_some_iff.mp opens
  obtain ⟨debitAt, _, opens⟩ := Option.bind_eq_some_iff.mp opens
  obtain ⟨creditAt, _, opens⟩ := Option.bind_eq_some_iff.mp opens
  obtain ⟨zero, known, made⟩ := Option.bind_eq_some_iff.mp opens
  have account : accountCurrency lines = (preambleOf lines headerAt).currency := by
    rw [accountCurrency, found]
    rfl
  have nothing : zero = ⟨accountCurrency lines, 0⟩ := by
    rw [account]
    exact newMoney_eq known
  cases made
  refine ⟨account.symm, .inl nothing, .inl nothing, .inl ⟨nothing, nothing⟩, ?_⟩
  rw [rowless]
  exact .nil

/-- The money of a statement that is read is of one currency just where that is in force at every
line that money is kept from. -/
theorem statement_oneCurrency_iff (enc : Encodings) (raw : Bytes) (params : Option Parameters)
    (order : Order) (st : Statement)
    (read : parsePriorbankWithParams enc raw params order = some st) :
    OneCurrency ((fileRecords enc raw params).map Prod.snd) st ↔
      Settled (accountCurrency (fileRecords enc raw params))
        ((fileRecords enc raw params).map Prod.snd) := by
  obtain ⟨text, decoded, read⟩ := Option.bind_eq_some_iff.mp read
  obtain ⟨lines, split_, read⟩ := Option.bind_eq_some_iff.mp read
  obtain ⟨⟨layout, opened⟩, opens, read⟩ := Option.bind_eq_some_iff.mp read
  have records : fileRecords enc raw params = lines := by
    rw [fileRecords, decoded, Option.bind_some, split_, Option.getD_some]
  rw [records]
  exact oneCurrency_iff (readIn_run (readIn_opened opens) read)

theorem fileRecords_unmarked {text : Text} (plain : withoutMark text = text) :
    fileRecords charmaps (Utf8.encode text) none = Csv.records ';' (text.filter (· ≠ '"')) := by
  unfold fileRecords charsetOf
  rw [(recognised_unmarked text).2, plain]
  rfl

theorem parsePriorbankWithParams_unmarked {text : Text} (plain : withoutMark text = text) :
    parsePriorbankWithParams charmaps (Utf8.encode text) none order =
      parseRecords (Csv.records ';' (text.filter (· ≠ '"'))) order :=
  parsePriorbankWithParams_decoded
    ((recognised_unmarked text).2.trans (congrArg some plain)) (by decide)

/-- An account in euros, and the line of the opening balance says so too. -/
def inEuros : Text :=
  "Счет клиента BY00 EUR\nДата док;Номинал.Дебет;Номинал.Кредит\n".toList ++
    "Входящее сальдо;EUR;0,00;10,00\n15.01.2026;5,00;0,00\nИсходящее сальдо;EUR;0,00;5,00".toList

theorem statement_oneCurrency_sample : ∃ st,
    parsePriorbankWithParams charmaps (Utf8.encode inEuros) none (fun _ => []) = some st ∧
      OneCurrency ((fileRecords charmaps (Utf8.encode inEuros) none).map Prod.snd) st := by
  have plain : withoutMark inEuros = inEuros := if_neg (by decide +kernel)
  have reads : (parseRecords (Csv.records ';' (inEuros.filter (· ≠ '"'))) fun _ => []).isSome := by
    decide +kernel
  obtain ⟨st, read⟩ := Option.isSome_iff_exists.mp reads
  rw [← parsePriorbankWithParams_unmarked plain] at read
  refine ⟨st, read, (statement_oneCurrency_iff charmaps _ none (fun _ => []) st read).mpr ?_⟩
  rw [fileRecords_unmarked plain]
  unfold Settled
  decide +kernel

/-- The account names no currency; the line of its opening balance does. -/
def inDinars : Text :=
  "Счет клиента BY00\nДата док;Номинал.Дебет;Номинал.Кредит\n".toList ++
    "Входящее сальдо;KWD;0,00;10,00\nИсходящее сальдо;KWD;0,00;10,00".toList

/-- An opening balance of ten dinars is read as ten roubles and compared with ten dinars. -/
theorem opening_balance_in_roubles : ∃ st,
    parsePriorbankWithParams charmaps (Utf8.encode inDinars) none (fun _ => []) = some st ∧
      st.currency = "KWD" ∧ st.opening = ⟨"BYN", 1000⟩ ∧ st.closing = ⟨"KWD", 10000⟩ ∧
        balanceCheck st = some (false, ⟨"KWD", -9000⟩) ∧
          ¬ OneCurrency ((fileRecords charmaps (Utf8.encode inDinars) none).map Prod.snd) st := by
  have plain : withoutMark inDinars = inDinars := if_neg (by decide +kernel)
  have reads : ((parseRecords (Csv.records ';' (inDinars.filter (· ≠ '"'))) fun _ => []).map
      fun st => (st.currency, st.opening, st.closing, balanceCheck st)) =
        some ("KWD", ⟨"BYN", 1000⟩, ⟨"KWD", 10000⟩, some (false, ⟨"KWD", -9000⟩)) := by
    decide +kernel
  obtain ⟨st, read, values⟩ := Option.map_eq_some_iff.mp reads
  rw [← parsePriorbankWithParams_unmarked plain] at read
  simp only [Prod.mk.injEq] at values
  obtain ⟨currency, opening, closing, balance⟩ := values
  refine ⟨st, read, currency, opening, closing, balance, fun one => ?_⟩
  have same := one.opening.1
  rw [opening, currency] at same
  exact absurd same (by decide)

end Vekst.Ingest.Priorbank
