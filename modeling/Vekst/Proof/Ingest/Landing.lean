import Vekst.Ingest.Charmap
import Vekst.Ingest.Landing
import Vekst.Isolation.Solo
import Vekst.Proof.Ingest.Reread
import Vekst.Proof.Ingest.Stages
import Vekst.Proof.Ingest.WellFormed

namespace Vekst.Ingest
open Isolation Ledger Regex

/-! ## Raw rows -/

/-- Two raw rows that the keys of the table let stand together. -/
def Apart (old row : RawRow) : Prop :=
  old.id ≠ row.id ∧ ¬ (old.batchID = row.batchID ∧ old.lineNo = row.lineNo)

theorem checkRawRow_ok {batches : List ImportBatchRow} {seen : List RawRow} {row : RawRow} :
    checkRawRow batches seen row = .ok () ↔
      0 < row.lineNo ∧ (∃ batch ∈ batches, batch.id = row.batchID) ∧ ∀ old ∈ seen, Apart old row := by
  unfold checkRawRow
  rw [require_bind_ok, require_bind_ok, require_bind_ok, require_ok]
  simp only [decide_eq_true_eq, List.all_eq_true, List.any_eq_true, Bool.not_eq_true',
    Bool.and_eq_false_iff, decide_eq_false_iff_not, Apart, ← not_and_or]
  constructor
  · rintro ⟨positive, ids, owned, lines⟩
    exact ⟨positive, owned, fun old member => ⟨ids old member, lines old member⟩⟩
  · rintro ⟨positive, owned, apart⟩
    exact ⟨positive, fun old member => (apart old member).1, owned,
      fun old member => (apart old member).2⟩

theorem foldlM_checkRawRow {batches : List ImportBatchRow} {made seen out : List RawRow} :
    made.foldlM (fun seen row => do
        checkRawRow batches seen row
        return seen ++ [row]) seen = Except.ok out ↔
      out = seen ++ made ∧ (∀ row ∈ made, 0 < row.lineNo ∧ ∃ batch ∈ batches, batch.id = row.batchID) ∧
        (∀ row ∈ made, ∀ old ∈ seen, Apart old row) ∧ made.Pairwise Apart := by
  induction made generalizing seen with
  | nil => simp [pure, Except.pure, eq_comm]
  | cons row made ih =>
      rw [List.foldlM_cons, bind_ok]
      constructor
      · rintro ⟨next, step, later⟩
        obtain ⟨_, checked, made_⟩ := bind_ok.mp step
        cases made_
        obtain ⟨positive, owned, apart⟩ := checkRawRow_ok.mp checked
        obtain ⟨rfl, each, fresh, pairwise⟩ := ih.mp later
        refine ⟨List.append_assoc _ _ _, ?_, ?_, List.pairwise_cons.mpr ⟨?_, pairwise⟩⟩
        · exact List.forall_mem_cons.mpr ⟨⟨positive, owned⟩, each⟩
        · exact List.forall_mem_cons.mpr ⟨apart, fun other member old known =>
            fresh other member old (List.mem_append_left _ known)⟩
        · exact fun other member => fresh other member row (by simp)
      · rintro ⟨rfl, each, fresh, pairwise⟩
        obtain ⟨⟨positive, owned⟩, each⟩ := List.forall_mem_cons.mp each
        obtain ⟨apart, fresh⟩ := List.forall_mem_cons.mp fresh
        obtain ⟨next, pairwise⟩ := List.pairwise_cons.mp pairwise
        refine ⟨seen ++ [row], bind_ok.mpr ⟨(), checkRawRow_ok.mpr ⟨positive, owned, apart⟩, rfl⟩,
          ih.mpr ⟨List.append_cons _ _ _, each, fun other member old known => ?_, pairwise⟩⟩
        rcases List.mem_append.mp known with earlier | new
        · exact fresh other member old earlier
        · obtain rfl := List.mem_singleton.mp new
          exact next other member

section Statements

variable {enc : Encodings} {batchID : UUID} {st : Parsed} {p q : Pipeline}

/-- No identifier that the database draws for the job stands in a table. -/
structure Fresh (draws : Draws) (p : Pipeline) : Prop where
  distinct : Function.Injective (draws.id 4)
  rawRows : ∀ row ∈ p.rawRows, ∀ i, row.id ≠ draws.id 4 i
  accounts : ∀ row ∈ p.ledger.accounts, row.id ≠ draws.id Stream.accounts.number 0
  validations : ∀ row ∈ p.validations, row.id ≠ draws.id 5 0

/-- Every payload is stored, and no line of the batch is there already. -/
def RowsStore (batchID : UUID) (rows : List ParsedRow) (p : Pipeline) : Prop :=
  (∀ r ∈ rows, ∀ cell ∈ r.cells, jsonbStores cell) ∧
    ∀ old ∈ p.rawRows, old.batchID = batchID → ∀ r ∈ rows, old.lineNo ≠ r.lineNo

/-- The account is stored as text, and so is the name of one that is not on file. -/
def AccountStores (enc : Encodings) (entityID : UUID) (st : Parsed) (d : Database) : Prop :=
  st.account ≠ [] → textStores st.account ∧
    (findAccountByExternalRef d entityID (String.ofList (enc.utf8 st.account)) = none →
      textStores (if st.holder = [] then st.account else st.holder))

theorem mem_rawRows {draw : Nat → UUID} {rows : List Row} {row : RawRow}
    (member : row ∈ rows.zipIdx.map fun (r, i) => (⟨draw i, batchID, r.lineNo, r⟩ : RawRow)) :
    ∃ r ∈ rows, ∃ i, row = ⟨draw i, batchID, r.lineNo, r⟩ := by
  obtain ⟨⟨r, i⟩, known, rfl⟩ := List.mem_map.mp member
  exact ⟨r, List.fst_mem_of_mem_zipIdx known, i, rfl⟩

theorem foldl_insertRawRow (made : List RawRow) (p : Pipeline) :
    (made.map Change.insertRawRow).foldl Pipeline.apply p =
      { p with rawRows := p.rawRows ++ made } := by
  induction made generalizing p with
  | nil => simp
  | cons row made ih =>
      rw [List.map_cons, List.foldl_cons, ih]
      simp [Pipeline.apply]

theorem run_persistPayloads_ok {draw : Nat → UUID} {rows : List ParsedRow} {n : Nat}
    (ran : (persistPayloads enc draw batchID rows).run Pipeline.apply p = .ok (n, q)) :
    RowsStore batchID rows p ∧ ∃ made, q = { p with rawRows := p.rawRows ++ made } := by
  unfold persistPayloads at ran
  split at ran
  case isFalse => cases ran
  case isTrue stored =>
    simp only [List.all_eq_true] at stored
    unfold persistRawRows at ran
    split at ran
    next none_ =>
      cases ran
      obtain rfl := List.map_eq_nil_iff.mp none_
      exact ⟨⟨nofun, fun _ _ _ _ => nofun⟩, [], by simp⟩
    next =>
      obtain ⟨changes, success, rfl⟩ := (Prog.run_exec_ok _).mp ran
      obtain ⟨out, checked, made⟩ := bind_ok.mp success
      obtain ⟨rfl, -⟩ := Prod.mk.inj (Except.ok.inj made)
      obtain ⟨_, _, fresh, _⟩ := foldlM_checkRawRow.mp checked
      refine ⟨⟨stored, fun old known own r member same => ?_⟩, _, foldl_insertRawRow _ _⟩
      have listed : (r.text enc).stored ∈ rows.map fun r => (r.text enc).stored :=
        List.mem_map_of_mem member
      obtain ⟨i, place⟩ := List.mem_iff_getElem?.mp listed
      have numbered : ((r.text enc).stored, i) ∈ (rows.map fun r => (r.text enc).stored).zipIdx :=
        List.mem_zipIdx_iff_getElem?.mpr place
      exact (fresh _ (List.mem_map_of_mem numbered) old known).2 ⟨own, same⟩

theorem exists_run_persistPayloads {draws : Draws} {batch : ImportBatchRow} (fresh : Fresh draws p)
    (owner : batch ∈ p.ledger.batches) (own : batch.id = batchID) {rows : List ParsedRow}
    (lines : (rows.map (·.lineNo)).Pairwise (· < ·)) (numbered : ∀ r ∈ rows, 0 < r.lineNo)
    (stored : RowsStore batchID rows p) :
    ∃ n q, (persistPayloads enc (draws.id 4) batchID rows).run Pipeline.apply p = .ok (n, q) := by
  have payloads : (rows.all fun r => r.cells.all jsonbStores) = true := by
    simpa only [List.all_eq_true] using stored.1
  rw [persistPayloads, if_pos payloads, persistRawRows]
  split
  next => exact ⟨_, _, rfl⟩
  next =>
    refine ⟨_, _, (Prog.run_exec_ok _).mpr ⟨_, bind_ok.mpr ⟨_, foldlM_checkRawRow.mpr
      ⟨rfl, ?_, ?_, ?_⟩, rfl⟩, rfl⟩⟩
    · intro row member
      obtain ⟨r, listed, i, rfl⟩ := mem_rawRows member
      obtain ⟨parsed, known, rfl⟩ := List.mem_map.mp listed
      exact ⟨Int.natCast_pos.mpr (numbered parsed known), batch, owner, own⟩
    · intro row member old known
      obtain ⟨r, listed, i, rfl⟩ := mem_rawRows member
      obtain ⟨parsed, among, rfl⟩ := List.mem_map.mp listed
      exact ⟨fresh.rawRows old known i, fun same => stored.2 old known same.1 parsed among same.2⟩
    · rw [List.pairwise_map, List.pairwise_iff_getElem]
      intro i j first second before
      have increasing := List.pairwise_iff_getElem.mp (List.pairwise_map.mp lines) i j
        (by simpa using first) (by simpa using second) before
      simp only [List.getElem_zipIdx, List.getElem_map, Apart]
      refine ⟨fun same => ?_, fun same => ?_⟩
      · have index := fresh.distinct same
        omega
      · exact absurd (Int.ofNat_inj.mp same.2) increasing.ne

/-- The account that a statement creates. -/
def createdAccount (enc : Encodings) (id entityID : UUID) (st : Parsed) : AccountRow where
  id := id
  entityID := entityID
  name := String.ofList (enc.utf8 (if st.holder = [] then st.account else st.holder))
  currency := st.currency
  externalRef := some (String.ofList (enc.utf8 st.account))

theorem run_resolveParsed {id entityID : UUID} {d after : Database} {answer : Bool} :
    (resolveParsed enc id entityID st).run Database.apply d = .ok (answer, after) ↔
      textStores st.account ∧
      match findAccountByExternalRef d entityID (String.ofList (enc.utf8 st.account)) with
      | some existing => answer = decide (existing.currency ≠ st.currency) ∧ after = d
      | none => textStores (if st.holder = [] then st.account else st.holder) ∧
          checkAccount d (createdAccount enc id entityID st) = .ok () ∧ answer = false ∧
          after = d.apply (.insertAccount (createdAccount enc id entityID st)) := by
  unfold resolveParsed
  by_cases account : textStores st.account
  case neg => simp [account]
  simp only [account, Bool.not_true, Bool.false_eq_true, if_false, true_and]
  rw [Prog.run_bind, Prog.run_query, Except.map, Except.bind]
  cases findAccountByExternalRef d entityID (String.ofList (enc.utf8 st.account)) with
  | some existing => simp [eq_comm]
  | none =>
      by_cases name : textStores (if st.holder = [] then st.account else st.holder)
      case neg => simp [name]
      simp only [name, Bool.not_true, Bool.false_eq_true, if_false, true_and]
      unfold insertAccount
      constructor
      · intro ran
        obtain ⟨row, _, inserted, made⟩ := (Prog.run_bind_ok _).mp ran
        obtain ⟨writes, success, rfl⟩ := (Prog.run_exec_ok _).mp inserted
        obtain ⟨_, checked, written⟩ := bind_ok.mp success
        cases written
        cases made
        exact ⟨checked, rfl, rfl⟩
      · rintro ⟨checked, rfl, rfl⟩
        exact (Prog.run_bind_ok _).mpr ⟨_, _, (Prog.run_exec_ok _).mpr ⟨_, bind_ok.mpr
          ⟨(), checked, rfl⟩, rfl⟩, rfl⟩

theorem run_onLedger_of {α : Type} {body : Tx α} {answer : α} {d : Database}
    (ran : body.run Database.apply p.ledger = .ok (answer, d)) :
    (onLedger body).run Pipeline.apply p = .ok (answer, { p with ledger := d }) := by
  rw [onLedger, Prog.run_lift pipelineLens, ran]
  rfl

/-- What the account of a statement leaves of the pipeline. -/
structure Resolved (found result : ValidationResult) (p q : Pipeline) : Prop where
  merged : ∃ resolved mixedCurrency, result = mergeAccountResolution found resolved mixedCurrency
  left : ∃ d : Database, q = { p with ledger := d } ∧ d.batches = p.ledger.batches

theorem run_resolveParsedInto_ok {id entityID : UUID} {found result : ValidationResult}
    (ran : (resolveParsedInto enc id entityID st found).run Pipeline.apply p = .ok (result, q)) :
    AccountStores enc entityID st p.ledger ∧ Resolved found result p q := by
  unfold resolveParsedInto at ran
  split at ran
  next none_ =>
    cases ran
    exact ⟨fun some_ => absurd none_ some_, ⟨_, _, rfl⟩, p.ledger, rfl, rfl⟩
  next =>
    obtain ⟨mixedCurrency, _, resolved, made⟩ := (Prog.run_bind_ok _).mp ran
    obtain ⟨d, inner, rfl⟩ := run_onLedger resolved
    cases made
    obtain ⟨account, rest⟩ := run_resolveParsed.mp inner
    cases known : findAccountByExternalRef p.ledger entityID (String.ofList (enc.utf8 st.account)) with
    | some existing =>
        obtain ⟨-, rfl⟩ := known ▸ rest
        exact ⟨fun _ => ⟨account, fun none_ => nomatch known.symm.trans none_⟩,
          ⟨_, _, rfl⟩, _, rfl, rfl⟩
    | none =>
        rw [known] at rest
        obtain ⟨name, -, -, rfl⟩ := rest
        exact ⟨fun _ => ⟨account, fun _ => name⟩, ⟨_, _, rfl⟩, _, rfl, rfl⟩

theorem checkAccount_created {id entityID : UUID} {d : Database} {st : Parsed}
    (name : ∃ c ∈ enc.utf8 (if st.holder = [] then st.account else st.holder), c ≠ ' ')
    (shape : isCurrencyShape st.currency) (fresh : ∀ row ∈ d.accounts, row.id ≠ id)
    (unknown : findAccountByExternalRef d entityID (String.ofList (enc.utf8 st.account)) = none) :
    checkAccount d (createdAccount enc id entityID st) = .ok () := by
  unfold checkAccount
  rw [require_bind_ok, require_bind_ok, require_bind_ok, require_ok]
  unfold findAccountByExternalRef at unknown
  rw [List.find?_eq_none] at unknown
  refine ⟨?_, shape, ?_, ?_⟩
  · obtain ⟨c, member, visible⟩ := name
    refine List.any_eq_true.mpr ⟨c, ?_, decide_eq_true visible⟩
    simpa [createdAccount] using member
  · exact List.all_eq_true.mpr fun row known => decide_eq_true (fresh row known)
  · rw [Bool.or_eq_true]
    right
    apply List.all_eq_true.mpr
    intro other known
    have other_ := unknown other known
    simp only [createdAccount, Bool.not_eq_true', Bool.not_eq_true] at other_ ⊢
    exact other_

theorem exists_run_resolveParsedInto {id entityID : UUID} {found : ValidationResult}
    (name : st.account ≠ [] → ∃ c ∈ enc.utf8 (if st.holder = [] then st.account else st.holder), c ≠ ' ')
    (shape : isCurrencyShape st.currency) (fresh : ∀ row ∈ p.ledger.accounts, row.id ≠ id)
    (stored : AccountStores enc entityID st p.ledger) :
    ∃ result q, (resolveParsedInto enc id entityID st found).run Pipeline.apply p =
      .ok (result, q) := by
  unfold resolveParsedInto
  split
  next => exact ⟨_, _, rfl⟩
  next some_ =>
    obtain ⟨account, named⟩ := stored some_
    have runs : ∃ answer d, (resolveParsed enc id entityID st).run Database.apply p.ledger =
        .ok (answer, d) := by
      cases known : findAccountByExternalRef p.ledger entityID
          (String.ofList (enc.utf8 st.account)) with
      | some existing =>
          simp only [run_resolveParsed, known]
          exact ⟨_, _, account, rfl, rfl⟩
      | none =>
          simp only [run_resolveParsed, known]
          exact ⟨_, _, account, named known, checkAccount_created (name some_) shape fresh known,
            rfl, rfl⟩
    obtain ⟨answer, d, ran⟩ := runs
    exact ⟨_, _, (Prog.run_bind_ok _).mpr ⟨_, _, run_onLedger_of ran, rfl⟩⟩

theorem decideOutcome_counts (rowCount : Nat) (errors : List ValidationError)
    (warnings : List ValidationWarning) (balanceCheckPassed : Option Bool) :
    (((decideOutcome rowCount errors warnings balanceCheckPassed).outcome = .rejected &&
        0 < errors.length) ||
      ((decideOutcome rowCount errors warnings balanceCheckPassed).outcome = .validWithWarnings &&
        errors.length = 0 && 0 < warnings.length) ||
      ((decideOutcome rowCount errors warnings balanceCheckPassed).outcome = .valid &&
        errors.length = 0 && warnings.length = 0) : Bool) = true := by
  cases errors with
  | cons e errors => simp [decideOutcome]
  | nil => cases warnings <;> simp [decideOutcome]

/-- The receipt goes in where the batch has none. -/
theorem run_insertValidation_iff {id : UUID} {result found : ValidationResult}
    {resolved mixedCurrency : Bool}
    (merged : result = mergeAccountResolution found resolved mixedCurrency)
    (fresh : ∀ row ∈ p.validations, row.id ≠ id)
    (owner : ∃ batch ∈ p.ledger.batches, batch.id = batchID) {answer : Unit} :
    (insertValidation id batchID result).run Pipeline.apply p = .ok (answer, q) ↔
      (∀ row ∈ p.validations, row.batchID ≠ batchID) ∧
        q = p.apply (.insertValidation ⟨id, batchID, result, none, none, none⟩) := by
  have counts : ((result.outcome = .rejected && 0 < result.errors.length) ||
      (result.outcome = .validWithWarnings && result.errors.length = 0 &&
        0 < result.warnings.length) ||
      (result.outcome = .valid && result.errors.length = 0 &&
        result.warnings.length = 0) : Bool) = true := by
    subst merged
    exact decideOutcome_counts _ _ _ _
  have checked : checkValidation p ⟨id, batchID, result, none, none, none⟩ = .ok () ↔
      ∀ row ∈ p.validations, row.batchID ≠ batchID := by
    unfold checkValidation
    rw [require_bind_ok, require_bind_ok, require_bind_ok, require_bind_ok, require_ok]
    simp only [List.all_eq_true, List.any_eq_true, decide_eq_true_eq]
    exact ⟨fun passes => passes.2.2.2.2, fun none_ => ⟨rfl, counts, fresh, owner, none_⟩⟩
  unfold insertValidation
  rw [Prog.run_exec_ok]
  constructor
  · rintro ⟨changes, success, rfl⟩
    obtain ⟨_, passed, made⟩ := bind_ok.mp success
    cases made
    exact ⟨checked.mp passed, rfl⟩
  · rintro ⟨none_, rfl⟩
    exact ⟨_, bind_ok.mpr ⟨(), checked.mpr none_, rfl⟩, rfl⟩

theorem run_insertReport {id : UUID} {result found : ValidationResult}
    {resolved mixedCurrency : Bool}
    (merged : result = mergeAccountResolution found resolved mixedCurrency)
    (fresh : ∀ row ∈ p.validations, row.id ≠ id)
    (owner : ∃ batch ∈ p.ledger.batches, batch.id = batchID) (report : reportStores result)
    (none_ : ∀ row ∈ p.validations, row.batchID ≠ batchID) :
    (insertReport id batchID result).run Pipeline.apply p =
      .ok ((), p.apply (.insertValidation ⟨id, batchID, result, none, none, none⟩)) := by
  rw [insertReport, if_pos report]
  exact (run_insertValidation_iff merged fresh owner).mpr ⟨none_, rfl⟩

/-- The characters that a reader of UTF-8 finds in bytes: U+0000 for its own byte alone, and some
where there are bytes. -/
structure ReadsUtf8 (enc : Encodings) : Prop where
  nul : ∀ bytes, '\x00' ∈ enc.utf8 bytes → 0 ∈ bytes
  some_ : ∀ bytes, enc.utf8 bytes = [] → bytes = []

section Report

variable {time : Priorbank.TimeReader} {r : Priorbank.Row} {currency : String}
  {now : Priorbank.Instant} {params : Option Parameters}

def checkedTexts (r : Priorbank.Row) : List Text :=
  [r.bookedOn, r.documentNo, r.counterpartyName, r.description, r.debitRaw, r.creditRaw]

theorem checkRow_nul (clean : ∀ value ∈ checkedTexts r, '\x00' ∉ value) :
    ∀ e ∈ Priorbank.checkRow time r currency now params, '\x00' ∉ e.raw.toList := by
  obtain ⟨bookedOn, documentNo, counterpartyName, description, debitRaw, creditRaw⟩ :
      '\x00' ∉ r.bookedOn ∧ '\x00' ∉ r.documentNo ∧ '\x00' ∉ r.counterpartyName ∧
        '\x00' ∉ r.description ∧ '\x00' ∉ r.debitRaw ∧ '\x00' ∉ r.creditRaw := by
    simpa [checkedTexts] using clean
  have both : '\x00' ∉ r.debitRaw ++ " / ".toList ++ r.creditRaw := by
    have between : '\x00' ∉ " / ".toList := by decide
    simp only [List.mem_append, not_or]
    exact ⟨⟨debitRaw, between⟩, creditRaw⟩
  intro e member
  unfold Priorbank.checkRow at member
  simp only [List.mem_append] at member
  rcases member with ((((date | debit) | credit) | set_) | replaced) | missing
  · split at date
    · obtain rfl := List.mem_singleton.mp date
      rwa [String.toList_ofList]
    · split at date
      · obtain rfl := List.mem_singleton.mp date
        rwa [String.toList_ofList]
      · cases date
  · split at debit
    · obtain rfl := List.mem_singleton.mp debit
      rwa [String.toList_ofList]
    · cases debit
  · split at credit
    · obtain rfl := List.mem_singleton.mp credit
      rwa [String.toList_ofList]
    · cases credit
  · split at set_
    · obtain rfl := List.mem_singleton.mp set_
      rwa [String.toList_ofList]
    · cases set_
  · obtain ⟨⟨field, value⟩, known, rfl⟩ := List.mem_map.mp replaced
    have listed := (List.mem_filter.mp known).1
    simp only [List.mem_cons, Prod.mk.injEq, List.not_mem_nil, or_false] at listed
    rw [String.toList_ofList]
    rcases listed with ⟨-, rfl⟩ | ⟨-, rfl⟩ | ⟨-, rfl⟩ | ⟨-, rfl⟩ <;> assumption
  · split at missing
    · obtain rfl := List.mem_singleton.mp missing
      rwa [String.toList_ofList]
    · cases missing

theorem shape_nul (shape : isCurrencyShape currency) : '\x00' ∉ currency.toList := by
  intro member
  obtain ⟨_, capitals⟩ := Bool.and_eq_true_iff.mp shape
  have capital := List.all_eq_true.mp capitals _ member
  revert capital
  decide

/-- A report on rows whose payloads are stored is stored. -/
theorem reportStores_of_clean {found result : ValidationResult} {resolved mixedCurrency : Bool}
    (reads : ReadsUtf8 enc) (clean : ∀ r ∈ st.rows, ∀ cell ∈ r.cells, jsonbStores cell)
    (shape : isCurrencyShape st.currency)
    (checked : found = Priorbank.validateStatementWithParams time (st.text enc) now params)
    (merged : result = mergeAccountResolution found resolved mixedCurrency) :
    reportStores result := by
  have texts : ∀ e ∈ found.errors, '\x00' ∉ e.raw.toList := by
    intro e member
    subst checked
    rcases List.mem_append.mp member with rows | currency
    · obtain ⟨row, among, reported⟩ := List.mem_flatMap.mp rows
      obtain ⟨r, parsed, rfl⟩ := List.mem_map.mp among
      refine checkRow_nul (fun value listed nul => ?_) e reported
      have stored := clean r parsed
      simp only [ParsedRow.cells, List.forall_mem_cons, jsonbStores, decide_eq_true_eq] at stored
      obtain ⟨bookedOn, documentNo, counterpartyName, -, -, description, -, debitRaw, creditRaw, -⟩ :=
        stored
      simp only [checkedTexts, List.mem_cons, List.not_mem_nil, or_false, ParsedRow.text] at listed
      rcases listed with rfl | rfl | rfl | rfl | rfl | rfl <;>
        exact absurd (reads.nul _ nul) ‹_›
    · unfold Priorbank.checkCurrency at currency
      split at currency
      · obtain rfl := List.mem_singleton.mp currency
        exact shape_nul shape
      · cases currency
  have all : ∀ e ∈ result.errors, '\x00' ∉ e.raw.toList := by
    subst merged
    simp only [mergeAccountResolution, decideOutcome]
    split
    · exact texts
    · intro e member
      rcases List.mem_append.mp member with old | new
      · exact texts e old
      · obtain rfl := List.mem_singleton.mp new
        decide
  refine List.all_eq_true.mpr fun e member => decide_eq_true fun nul => ?_
  exact all e (List.mem_of_mem_take member) (Utf8.mem_encode.mp (List.mem_of_mem_take nul))

end Report

theorem checkTransitions_nextStatus (result : ValidationResult) :
    checkTransitions (nextStatus result) = .ok () := by
  rcases nextStatus_cases result with next | next <;> rw [next] <;> rfl

/-- A status is set on the batch's only row, where its digest is known. -/
theorem run_setImportBatchStatus {d : Database} {batch : ImportBatchRow} {status : BatchStatus}
    {failureCode : Option String} (only : d.batches.filter (·.id = batchID) = [batch])
    (measured : batch.fileSHA256.isSome) (open_ : status ≠ .imported) :
    (setImportBatchStatus batchID status failureCode).run Database.apply d =
      .ok (1, d.apply (.updateBatch { batch with status, failureCode })) := by
  have checked : checkBatch d { batch with status, failureCode } = .ok () := by
    unfold checkBatch
    rw [require_bind_ok, require_ok]
    exact ⟨by simp [measured], by simp [open_]⟩
  unfold setImportBatchStatus
  rw [Prog.run_exec_ok]
  refine ⟨[.updateBatch { batch with status, failureCode }], ?_, rfl⟩
  rw [only]
  simp [checked, pure, Except.pure, bind, Except.bind]

end Statements

/-! ## The job -/

/-- A batch uploaded and measured, the only one of its identifier. -/
structure Uploaded (p : Pipeline) (batchID : UUID) (batch : ImportBatchRow) : Prop where
  only : p.ledger.batches.filter (·.id = batchID) = [batch]
  status : batch.status = .uploaded
  measured : batch.fileSHA256.isSome

/-- The text that the parser finds in a file is the one that is read of it, in some order of the
profile's columns. -/
def Parses (enc : Encodings) (parse : Bytes → Option Parameters → Option Parsed) (raw : Bytes)
    (params : Option Parameters) : Prop :=
  ∃ order, Priorbank.OrderOf params order ∧
    (parse raw params).map (Parsed.text enc) = Priorbank.parseWithParams enc raw params order

/-- The object store answers with the file, and nothing fails. -/
def fetching (raw : Bytes) : Surroundings Failure UUID Bytes :=
  ⟨fun _ answer => answer = raw, fun _ => False, False⟩

/-- The job returns success, and leaves the batch failed without a receipt, or validated or rejected
with one. -/
def Landed (job : LandingJob) (raw : Bytes) (batchID : UUID) (p : Pipeline) : Prop :=
  ∃ asked last, Solo (fun _ => job) (fetching raw) job p [] asked (some (.ok ())) last ∧
    ((last.statusOf batchID = some .failed ∧ ∀ row ∈ last.validations, row.batchID ≠ batchID) ∨
      ((last.statusOf batchID = some .validated ∨ last.statusOf batchID = some .rejected) ∧
        ∃ row ∈ last.validations, row.batchID = batchID))

/-- The database has no receipt of the batch, and stores what the statement holds. -/
def Lands (enc : Encodings) (found : Option Parsed) (batch : ImportBatchRow) (batchID : UUID)
    (p : Pipeline) : Prop :=
  (∀ row ∈ p.validations, row.batchID ≠ batchID) ∧ ∀ st, found = some st →
    RowsStore batchID st.rows p ∧ AccountStores enc batch.entityID st p.ledger

/-! ## The commit -/

/-- No classification is among the changes, so that no trigger waits for the commit. -/
def Unfired (changes : List Change) : Prop :=
  ∀ change ∈ changes, change.ledgerWrite.bind Write.oneLiveFires = none

theorem check_of_unfired {changes : List Change} (unfired : Unfired changes) (p : Pipeline) :
    @Store.check Pipeline Change Failure PipelineLock _ p changes = .ok () := by
  have none_ : (changes.filterMap Change.ledgerWrite).filterMap Write.oneLiveFires = [] := by
    rw [List.filterMap_filterMap]
    exact List.filterMap_eq_nil_iff.mpr unfired
  have holds : oneLivePerTransaction p.ledger (changes.filterMap Change.ledgerWrite) = .ok () := by
    rw [oneLivePerTransaction, none_]
    rfl
  exact holds

section Commit

variable {enc : Encodings} {batchID : UUID}

theorem onLedger_unfired {α : Type} {body : Tx α}
    (emits : body.Emits fun _ writes => ∀ w ∈ writes, w.oneLiveFires = none) :
    (onLedger body).Emits fun _ => Unfired := by
  apply Prog.emits_lift emits
  intro p writes plain change member
  obtain ⟨w, known, rfl⟩ := List.mem_map.mp member
  exact plain w known

theorem setStatus_unfired (status : BatchStatus) (failureCode : Option String) :
    (onLedger (setImportBatchStatus batchID status failureCode)).Emits fun _ => Unfired := by
  apply onLedger_unfired
  apply setImportBatchStatus_emits
  intro d rows _ w member
  obtain ⟨row, _, rfl⟩ := List.mem_map.mp member
  rfl

theorem resolveParsed_unfired (id entityID : UUID) (st : Parsed) :
    (onLedger (resolveParsed enc id entityID st)).Emits fun _ => Unfired := by
  apply onLedger_unfired
  have quiet {α : Type} (f : Database → Except Failure α) :
      (Prog.query f : Tx α).Emits fun _ writes => ∀ w ∈ writes, w.oneLiveFires = none :=
    Prog.emits_query (fun _ w member => absurd member List.not_mem_nil) f
  have inserts (row : AccountRow) :
      (insertAccount row).Emits fun _ writes => ∀ w ∈ writes, w.oneLiveFires = none := by
    apply Prog.emits_exec
    intro d writes answer success
    obtain ⟨_, -, made⟩ := bind_ok.mp success
    cases made
    simp [Write.oneLiveFires]
  by_cases account : textStores st.account
  case neg => simp [resolveParsed, account]
  simp only [resolveParsed, account, Bool.not_true, Bool.false_eq_true, if_false]
  refine Prog.emits_bind (quiet _) fun found => ?_
  cases found with
  | some existing => trivial
  | none =>
      by_cases name : textStores (if st.holder = [] then st.account else st.holder)
      case neg => simp [name]
      simp only [name, Bool.not_true, Bool.false_eq_true, if_false]
      exact Prog.emits_bind (inserts _) fun _ => trivial

theorem landParsed_unfired (draws : Draws) (batch : ImportBatchRow) (st : Parsed)
    (found : ValidationResult) :
    (landParsed enc draws batch batchID st found).Emits fun _ => Unfired := by
  unfold landParsed
  refine Prog.emits_bind ?_ fun _ => Prog.emits_bind ?_ fun result => Prog.emits_bind ?_ fun _ =>
    Prog.emits_bind (Prog.emits_ofExcept _) fun _ => Prog.emits_bind (setStatus_unfired _ _) fun _ =>
    Prog.emits_bind (Prog.emits_ofExcept _) fun _ => ?_
  · unfold persistPayloads persistRawRows
    split
    case isFalse => trivial
    split
    case isTrue => trivial
    apply Prog.emits_exec
    intro p changes answer success
    obtain ⟨_, -, made⟩ := bind_ok.mp success
    cases made
    intro change member
    obtain ⟨row, _, rfl⟩ := List.mem_map.mp member
    rfl
  · unfold resolveParsedInto
    split
    · trivial
    · exact Prog.emits_bind (resolveParsed_unfired _ _ _) fun _ => trivial
  · unfold insertReport
    split
    case isFalse => trivial
    apply Prog.emits_exec
    intro p changes answer success
    obtain ⟨_, -, made⟩ := bind_ok.mp success
    cases made
    simp [Unfired, Change.ledgerWrite]
  · split
    case isFalse => trivial
    apply Prog.emits_exec
    intro p changes answer made
    cases made
    simp [Unfired, Change.ledgerWrite]

/-- A transaction of the job ends as its body runs. -/
theorem solo_unfired {α : Type} {raw : Bytes} {body : PipelineTx α}
    (unfired : body.Emits fun _ => Unfired) {next : Except Failure α → LandingJob} {job : LandingJob}
    {p last : Pipeline} {asked : List UUID} {result : Option (Except Failure Unit)} :
    Solo (fun _ => job) (fetching raw) (inTx next body) p [] asked result last ↔
      match body.run Pipeline.apply p with
      | .ok (answer, after) =>
          Solo (fun _ => job) (fetching raw) (next (.ok answer)) after [] asked result last
      | .error e => Solo (fun _ => job) (fetching raw) (next (.error e)) p [] asked result last := by
  have passes : ∀ answer changes, body.attempt p [] = .ok (answer, changes) →
      Store.check (visible p changes) changes = .ok () := by
    intro answer changes did
    apply check_of_unfired
    have kept : ∀ before more, Unfired before → Unfired more → Unfired (before ++ more) := by
      intro before more held allowed change member
      rcases List.mem_append.mp member with old | new
      · exact held change old
      · exact allowed change new
    have opened : Unfired [] := fun change member => absurd member List.not_mem_nil
    exact Prog.attempt_emits unfired opened (fun before more => kept before more) did
  have whole : ¬ (fetching raw).crashes := fun crashes => crashes
  have safe : ∀ e, ¬ (fetching raw).lost e := fun _ lost => lost
  refine Iff.trans (solo_inTx_iff whole safe passes) ?_
  cases body.run Pipeline.apply p with
  | ok result => exact Iff.rfl
  | error e => exact Iff.rfl

end Commit

section Runs

theorem exists_run_bind {α β : Type} {body : PipelineTx α} {rest : α → PipelineTx β}
    {before middle : Pipeline} {a : α} {b : β}
    (first : body.run Pipeline.apply before = .ok (a, middle))
    (later : ∃ after, (rest a).run Pipeline.apply middle = .ok (b, after)) :
    ∃ after, (body >>= rest).run Pipeline.apply before = .ok (b, after) := by
  obtain ⟨after, ran⟩ := later
  exact ⟨after, (Prog.run_bind_ok _).mpr ⟨a, middle, first, ran⟩⟩

variable {enc : Encodings} {draws : Draws} {batch : ImportBatchRow} {batchID : UUID} {st : Parsed}
  {p q : Pipeline} {time : Priorbank.TimeReader} {now : Priorbank.Instant}
  {params : Option Parameters} {found : ValidationResult}

theorem exists_run_ofExcept {α β : Type} {outcome : Except Failure α} {rest : α → PipelineTx β}
    {before : Pipeline} {a : α} {b : β} (passes : outcome = .ok a)
    (later : ∃ after, (rest a).run Pipeline.apply before = .ok (b, after)) :
    ∃ after, (Prog.ofExcept outcome >>= rest).run Pipeline.apply before = .ok (b, after) :=
  exists_run_bind ((Prog.run_ofExcept_ok _).mpr ⟨passes, rfl⟩) later

/-- What a statement that lands has stored, and how it leaves the batch. -/
theorem run_landParsed_ok (uploaded : Uploaded p batchID batch) (fresh : Fresh draws p)
    (ran : (landParsed enc draws batch batchID st found).run Pipeline.apply p = .ok ((), q)) :
    ((∀ row ∈ p.validations, row.batchID ≠ batchID) ∧ RowsStore batchID st.rows p ∧
        AccountStores enc batch.entityID st p.ledger) ∧
      (q.statusOf batchID = some .validated ∨ q.statusOf batchID = some .rejected) ∧
      ∃ row ∈ q.validations, row.batchID = batchID := by
  obtain ⟨_, _, payloads, ran⟩ := (Prog.run_bind_ok _).mp ran
  obtain ⟨result, _, accounts, ran⟩ := (Prog.run_bind_ok _).mp ran
  obtain ⟨_, _, receipt, ran⟩ := (Prog.run_bind_ok _).mp ran
  obtain ⟨_, _, moves, ran⟩ := (Prog.run_bind_ok _).mp ran
  obtain ⟨-, rfl⟩ := (Prog.run_ofExcept_ok _).mp moves
  obtain ⟨affected, _, updated, ran⟩ := (Prog.run_bind_ok _).mp ran
  obtain ⟨_, _, checked, queued⟩ := (Prog.run_bind_ok _).mp ran
  obtain ⟨one, rfl⟩ := (Prog.run_ofExcept_ok _).mp checked
  obtain ⟨rows, made, rfl⟩ := run_persistPayloads_ok payloads
  obtain ⟨account, ⟨⟨resolved, mixedCurrency, merged⟩, d, rfl, batches⟩⟩ :=
    run_resolveParsedInto_ok accounts
  have owner : ∃ batch ∈ d.batches, batch.id = batchID := by
    obtain ⟨known, own, -⟩ := only_mem uploaded.only
    exact ⟨batch, batches ▸ known, own⟩
  unfold insertReport at receipt
  split at receipt
  case isFalse => cases receipt
  have stored := (run_insertValidation_iff (p := { p with rawRows := p.rawRows ++ made, ledger := d })
    merged fresh.validations owner).mp receipt
  obtain ⟨none_, rfl⟩ := stored
  obtain ⟨later, inner, rfl⟩ := run_onLedger updated
  obtain ⟨old, only, rfl⟩ := run_update (fun _ _ _ => setImportBatchStatus_updates) inner one
  obtain ⟨-, own, -⟩ := only_mem uploaded.only
  have now : ({ p with
      rawRows := p.rawRows ++ made
      validations := p.validations ++ [⟨draws.id 5 0, batchID, result, none, none, none⟩]
      ledger := d.apply (.updateBatch { old with status := nextStatus result, failureCode := none })
      } : Pipeline).statusOf batchID = some (nextStatus result) :=
    @statusOf_updated _ { p with ledger := d } _ _ only (only_mem (p := { p with ledger := d }) only).2.1
  refine ⟨⟨none_, rows, account⟩, ?_⟩
  split at queued
  next validated =>
    obtain rfl := run_enqueue queued
    exact ⟨.inl (now.trans (congrArg some validated)), _, List.mem_append_right _ List.mem_cons_self,
      rfl⟩
  next other =>
    obtain ⟨-, rfl⟩ := Prod.mk.inj (Except.ok.inj queued)
    have rejected := (nextStatus_cases result).resolve_left other
    exact ⟨.inr (now.trans (congrArg some rejected)), _, List.mem_append_right _ List.mem_cons_self,
      rfl⟩

/-- A statement that the database stores lands. -/
theorem exists_run_landParsed (reads : ReadsUtf8 enc) (uploaded : Uploaded p batchID batch)
    (fresh : Fresh draws p) (wellFormed : Priorbank.WellFormed (st.text enc))
    (none_ : ∀ row ∈ p.validations, row.batchID ≠ batchID) (rows : RowsStore batchID st.rows p)
    (account : AccountStores enc batch.entityID st p.ledger) :
    ∃ q, (landParsed enc draws batch batchID st
      (Priorbank.validateStatementWithParams time (st.text enc) now params)).run Pipeline.apply p =
        .ok ((), q) := by
  obtain ⟨known, own, -⟩ := only_mem uploaded.only
  have lines : (st.rows.map (·.lineNo)).Pairwise (· < ·) := by
    have text := wellFormed.lines
    simp only [Parsed.text, List.map_map] at text
    exact text
  have numbered : ∀ r ∈ st.rows, 0 < r.lineNo := fun r member =>
    wellFormed.numbered (r.text enc) (List.mem_map_of_mem member)
  obtain ⟨n, landed, payloads⟩ := @exists_run_persistPayloads enc batchID p draws batch fresh known own
    st.rows lines numbered rows
  obtain ⟨-, made, rfl⟩ := run_persistPayloads_ok payloads
  have named : st.account ≠ [] →
      ∃ c ∈ enc.utf8 (if st.holder = [] then st.account else st.holder), c ≠ ' ' := by
    intro some_
    split
    · exact wellFormed.account fun empty => some_ (reads.some_ _ empty)
    next holder => exact wellFormed.holder fun empty => holder (reads.some_ _ empty)
  obtain ⟨result, _, accounts⟩ := @exists_run_resolveParsedInto enc st
    { p with rawRows := p.rawRows ++ made } (draws.id Stream.accounts.number 0) batch.entityID
    (Priorbank.validateStatementWithParams time (st.text enc) now params) named wellFormed.currency
    fresh.accounts account
  obtain ⟨-, ⟨⟨resolved, mixedCurrency, merged⟩, d, rfl, batches⟩⟩ := run_resolveParsedInto_ok accounts
  have owner : ∃ batch ∈ d.batches, batch.id = batchID := ⟨batch, batches ▸ known, own⟩
  have report := reportStores_of_clean reads rows.1 wellFormed.currency rfl merged
  have inserted := @run_insertReport batchID { p with rawRows := p.rawRows ++ made, ledger := d }
    (draws.id 5 0) _ _ _ _ merged fresh.validations owner report none_
  have only : d.batches.filter (·.id = batchID) = [batch] := batches ▸ uploaded.only
  have updated := @run_setImportBatchStatus batchID d batch (nextStatus result) none only
    uploaded.measured (by rcases nextStatus_cases result with next | next <;> simp [next])
  have queued (p : Pipeline) : (if nextStatus result = .validated then
      enqueue .persistImport batchID else pure () : PipelineTx Unit).run Pipeline.apply p =
        .ok ((), if nextStatus result = .validated then p.apply (.enqueue ⟨.persistImport, batchID⟩)
          else p) := by
    split <;> rfl
  exact exists_run_bind payloads (exists_run_bind accounts (exists_run_bind inserted
    (exists_run_ofExcept (checkTransitions_nextStatus result)
      (exists_run_bind (run_onLedger_of updated) (exists_run_ofExcept rfl ⟨_, queued _⟩)))))

end Runs

/-- The body of the transaction that fails a batch. -/
abbrev failed (batchID : UUID) (code : String) : PipelineTx Unit := do
  let affected ← onLedger (setImportBatchStatus batchID .failed (some code))
  Prog.ofExcept (exactlyOneRow affected)

theorem failed_unfired (batchID : UUID) (code : String) : (failed batchID code).Emits fun _ => Unfired :=
  Prog.emits_bind (setStatus_unfired _ _) fun _ => Prog.emits_ofExcept _

theorem exists_run_failed {p : Pipeline} {batchID : UUID} {batch : ImportBatchRow} (code : String)
    (uploaded : Uploaded p batchID batch) :
    ∃ q, (failed batchID code).run Pipeline.apply p = .ok ((), q) := by
  have updated := @run_setImportBatchStatus batchID p.ledger batch .failed (some code) uploaded.only
    uploaded.measured (by decide)
  exact exists_run_bind (run_onLedger_of updated) ⟨_, rfl⟩

theorem run_failed_ok {p q : Pipeline} {batchID : UUID} {code : String}
    (ran : (failed batchID code).run Pipeline.apply p = .ok ((), q)) :
    q.statusOf batchID = some .failed ∧ q.validations = p.validations := by
  obtain ⟨affected, middle, updated, checked⟩ := (Prog.run_bind_ok _).mp ran
  obtain ⟨one, rfl⟩ := (Prog.run_ofExcept_ok _).mp checked
  obtain ⟨d, inner, rfl⟩ := run_onLedger updated
  obtain ⟨old, only, rfl⟩ := run_update (fun _ _ _ => setImportBatchStatus_updates) inner one
  exact ⟨statusOf_updated only (only_mem only).2.1, rfl⟩

/-- The last transaction succeeds just where its body does. -/
theorem solo_last {raw : Bytes} {body : PipelineTx Unit} (unfired : body.Emits fun _ => Unfired)
    {job : LandingJob} {p last : Pipeline} {asked : List UUID} :
    Solo (fun _ => job) (fetching raw) (inTx .done body) p [] asked (some (.ok ())) last ↔
      asked = [] ∧ body.run Pipeline.apply p = .ok ((), last) := by
  rw [solo_unfired unfired]
  cases ran : body.run Pipeline.apply p with
  | ok result =>
      constructor
      · intro run
        obtain ⟨rfl, rfl, _⟩ := run.of_done
        exact ⟨rfl, rfl⟩
      · rintro ⟨rfl, same⟩
        cases same
        exact .done
  | error e =>
      constructor
      · intro run
        obtain ⟨_, _, same | same⟩ := run.of_done <;> cases same
      · rintro ⟨_, same⟩
        cases same

theorem solo_validateObject {enc : Encodings} {time : Priorbank.TimeReader}
    {parse : Bytes → Option Parameters → Option Parsed} {draws : Draws} {params : Option Parameters}
    {now : Priorbank.Instant} {raw : Bytes} {p last : Pipeline} {batchID : UUID}
    {batch : ImportBatchRow} {job : LandingJob} (uploaded : Uploaded p batchID batch) :
    (∃ asked, Solo (fun _ => job) (fetching raw) (validateObject enc time parse draws batchID params
        now) p [] asked (some (.ok ())) last) ↔
      ∃ asked, Solo (fun _ => job) (fetching raw) (landObject enc time parse draws batch batchID params
        now raw) p [] asked (some (.ok ())) last := by
  have reads : (onLedger (Prog.query (getImportBatch · batchID)) :
      PipelineTx ImportBatchRow).Emits fun _ => Unfired :=
    onLedger_unfired (Prog.emits_query (fun _ w member => absurd member List.not_mem_nil) _)
  obtain ⟨known, own, unique⟩ := only_mem uploaded.only
  have found : getImportBatch p.ledger batchID = .ok batch := by
    unfold getImportBatch
    cases looked : p.ledger.batches.find? (·.id = batchID) with
    | none =>
        have absent := List.find?_eq_none.mp looked batch known
        simp [own] at absent
    | some other =>
        have named : other.id = batchID := by simpa using List.find?_some looked
        rw [unique other (List.mem_of_find?_eq_some looked) named]
  have ran : (onLedger (Prog.query (getImportBatch · batchID)) :
      PipelineTx ImportBatchRow).run Pipeline.apply p = .ok (batch, p) :=
    run_onLedger_of ((Prog.run_query_ok _).mpr ⟨found, rfl⟩)
  unfold validateObject
  simp only [solo_unfired reads, ran]
  rw [if_neg (not_not.mpr uploaded.status)]
  constructor
  · rintro ⟨asked, run⟩
    cases run with
    | answer given rest =>
        obtain rfl : _ = raw := given
        exact ⟨_, rest⟩
    | unanswered lost rest => exact lost.elim
  · rintro ⟨asked, run⟩
    exact ⟨_, .answer rfl run⟩

section Landed

variable {enc : Encodings} {time : Priorbank.TimeReader}
  {parse : Bytes → Option Parameters → Option Parsed} {draws : Draws} {params : Option Parameters}
  {now : Priorbank.Instant} {raw : Bytes} {p : Pipeline} {batchID : UUID} {batch : ImportBatchRow}

theorem lands_of_landed (uploaded : Uploaded p batchID batch) (fresh : Fresh draws p)
    (landed : Landed (validateObject enc time parse draws batchID params now) raw batchID p) :
    Lands enc (parse raw params) batch batchID p := by
  obtain ⟨asked, last, run, lands⟩ := landed
  obtain ⟨_, run⟩ := (solo_validateObject uploaded).mp ⟨asked, run⟩
  unfold landObject at run
  cases found : parse raw params with
  | none =>
      rw [found] at run
      obtain ⟨_, ran⟩ := (solo_last (failed_unfired _ _)).mp run
      obtain ⟨failed, receipts⟩ := run_failed_ok ran
      refine ⟨?_, nofun⟩
      rw [← receipts]
      rcases lands with ⟨_, none_⟩ | ⟨status, _⟩
      · exact none_
      · rw [failed] at status
        rcases status with status | status <;> cases status
  | some st =>
      rw [found] at run
      obtain ⟨_, ran⟩ := (solo_last (landParsed_unfired _ _ _ _)).mp run
      obtain ⟨⟨none_, rows, account⟩, _⟩ := run_landParsed_ok uploaded fresh ran
      refine ⟨none_, fun other same => ?_⟩
      obtain rfl := Option.some.inj same
      exact ⟨rows, account⟩

theorem landed_of_lands (reads : ReadsUtf8 enc) (parses : Parses enc parse raw params)
    (uploaded : Uploaded p batchID batch) (fresh : Fresh draws p)
    (lands : Lands enc (parse raw params) batch batchID p) :
    Landed (validateObject enc time parse draws batchID params now) raw batchID p := by
  obtain ⟨none_, stored⟩ := lands
  cases found : parse raw params with
  | none =>
      obtain ⟨last, ran⟩ := exists_run_failed failureUnrecognizedFormat uploaded
      obtain ⟨failed, receipts⟩ := run_failed_ok ran
      have work : Solo (fun _ => validateObject enc time parse draws batchID params now) (fetching raw)
          (landObject enc time parse draws batch batchID params now raw) p [] []
          (some (.ok ())) last := by
        rw [landObject, found]
        exact (solo_last (failed_unfired _ _)).mpr ⟨rfl, ran⟩
      obtain ⟨asked, run⟩ := (solo_validateObject uploaded).mpr ⟨[], work⟩
      exact ⟨asked, last, run, .inl ⟨failed, receipts ▸ none_⟩⟩
  | some st =>
      obtain ⟨rows, account⟩ := stored st found
      obtain ⟨order, _, text⟩ := parses
      rw [found] at text
      obtain ⟨last, ran⟩ := @exists_run_landParsed enc draws batch batchID st p time now params reads
        uploaded fresh (Priorbank.parseWithParams_wellFormed text.symm) none_ rows account
      obtain ⟨_, status, receipt⟩ := run_landParsed_ok uploaded fresh ran
      have work : Solo (fun _ => validateObject enc time parse draws batchID params now) (fetching raw)
          (landObject enc time parse draws batch batchID params now raw) p [] []
          (some (.ok ())) last := by
        rw [landObject, found]
        exact (solo_last (landParsed_unfired _ _ _ _)).mpr ⟨rfl, ran⟩
      obtain ⟨asked, run⟩ := (solo_validateObject uploaded).mpr ⟨[], work⟩
      exact ⟨asked, last, run, .inr ⟨status, receipt⟩⟩

end Landed

/-- Validation of an uploaded file lands just where the batch has no receipt yet and the database
stores what the parser has found, if it has found a statement. -/
theorem validation_lands_iff (enc : Encodings) (time : Priorbank.TimeReader)
    (parse : Bytes → Option Parameters → Option Parsed) (draws : Draws) (params : Option Parameters)
    (now : Priorbank.Instant) (raw : Bytes) (p : Pipeline) (batchID : UUID) (batch : ImportBatchRow)
    (reads : ReadsUtf8 enc) (parses : Parses enc parse raw params)
    (uploaded : Uploaded p batchID batch) (fresh : Fresh draws p) :
    Landed (validateObject enc time parse draws batchID params now) raw batchID p ↔
      Lands enc (parse raw params) batch batchID p :=
  ⟨lands_of_landed uploaded fresh, landed_of_lands reads parses uploaded fresh⟩

/-! ## A file with U+0000 -/

/-- A row in bytes. -/
def ParsedRow.ofText (r : Priorbank.Row) : ParsedRow where
  lineNo := r.lineNo
  bookedOn := Utf8.encode r.bookedOn
  documentNo := Utf8.encode r.documentNo
  counterpartyName := Utf8.encode r.counterpartyName
  counterpartyTaxID := Utf8.encode r.counterpartyTaxID
  counterpartyAccount := Utf8.encode r.counterpartyAccount
  description := Utf8.encode r.description
  regulatedCode := Utf8.encode r.regulatedCode
  debit := r.debit
  credit := r.credit
  debitRaw := Utf8.encode r.debitRaw
  creditRaw := Utf8.encode r.creditRaw

def Parsed.ofText (st : Priorbank.Statement) : Parsed where
  format := st.format
  account := Utf8.encode st.account
  currency := st.currency
  holder := Utf8.encode st.holder
  declaredRowCount := st.declaredRowCount
  periodFrom := Utf8.encode st.periodFrom
  periodTo := Utf8.encode st.periodTo
  opening := st.opening
  closing := st.closing
  declaredDebit := st.declaredDebit
  declaredCredit := st.declaredCredit
  hasDeclaredBalance := st.hasDeclaredBalance
  rows := st.rows.map ParsedRow.ofText

theorem readsUtf8_charmaps : ReadsUtf8 charmaps where
  nul _ := Utf8.mem_of_mem_text
  some_ _ := Utf8.eq_nil_of_text

theorem text_ofText (st : Priorbank.Statement) : (Parsed.ofText st).text charmaps = st := by
  have rows : (fun r => (ParsedRow.ofText r).text charmaps) = id := by
    funext r
    have texts (s : Regex.Text) : charmaps.utf8 (Utf8.encode s) = s := Utf8.text_encode s
    simp only [ParsedRow.text, ParsedRow.ofText, texts, id]
  have all : (st.rows.map ParsedRow.ofText).map (ParsedRow.text charmaps) = st.rows := by
    rw [List.map_map]
    exact (congrArg (List.map · st.rows) rows).trans (List.map_id _)
  have texts (s : Regex.Text) : charmaps.utf8 (Utf8.encode s) = s := Utf8.text_encode s
  simp only [Parsed.text, Parsed.ofText, texts, all]

/-- The parser, of a file without a profile, in bytes. -/
def sampleParse (raw : Bytes) (params : Option Parameters) : Option Parsed :=
  (Priorbank.parseWithParams charmaps raw params fun _ => []).map Parsed.ofText

theorem sampleParse_parses (raw : Bytes) : Parses charmaps sampleParse raw none := by
  refine ⟨fun _ => [], fun _ => .refl _, ?_⟩
  unfold sampleParse
  cases Priorbank.parseWithParams charmaps raw none fun _ => [] with
  | none => rfl
  | some st => exact congrArg some (text_ofText st)

def sampleDraws : Draws := ⟨fun stream i => 10 + stream * 1000 + i, fun n => n⟩

def samplePipeline : Pipeline where
  ledger := { Database.empty "BYN" with batches := [⟨1, 1, .bank, .uploaded, some "f1", none⟩] }
  rawRows := []
  validations := []
  queue := []

theorem samplePipeline_uploaded :
    Uploaded samplePipeline 1 ⟨1, 1, .bank, .uploaded, some "f1", none⟩ := ⟨rfl, rfl, rfl⟩

theorem samplePipeline_fresh : Fresh sampleDraws samplePipeline where
  distinct _ _ same := Nat.add_left_cancel same
  rawRows _ member := absurd member List.not_mem_nil
  accounts _ member := absurd member List.not_mem_nil
  validations _ member := absurd member List.not_mem_nil

theorem validation_lands_sample :
    Landed (validateObject charmaps (fun _ _ => none) sampleParse sampleDraws 1 none 0)
        Priorbank.sampleFile 1 samplePipeline ↔
      Lands charmaps (sampleParse Priorbank.sampleFile none)
        ⟨1, 1, .bank, .uploaded, some "f1", none⟩ 1 samplePipeline :=
  validation_lands_iff _ _ _ _ _ _ _ _ _ _ readsUtf8_charmaps (sampleParse_parses _)
    samplePipeline_uploaded samplePipeline_fresh

/-- The sample file with U+0000 in the description of its row. -/
def nulFile : Bytes :=
  Priorbank.sampleFile.map fun b => if b = 239 then 0 else b

theorem nul_strands_the_batch : ¬ ∀ (enc : Encodings) (time : Priorbank.TimeReader)
    (parse : Bytes → Option Parameters → Option Parsed) (draws : Draws) (params : Option Parameters)
    (now : Priorbank.Instant) (raw : Bytes) (p : Pipeline) (batchID : UUID) (batch : ImportBatchRow),
    ReadsUtf8 enc → Parses enc parse raw params → Uploaded p batchID batch → Fresh draws p →
    Landed (validateObject enc time parse draws batchID params now) raw batchID p := by
  intro lands
  have landed := lands charmaps (fun _ _ => none) sampleParse sampleDraws none 0 nulFile samplePipeline
    1 _ readsUtf8_charmaps (sampleParse_parses _) samplePipeline_uploaded samplePipeline_fresh
  obtain ⟨_, stored⟩ := lands_of_landed samplePipeline_uploaded samplePipeline_fresh landed
  have refused : (sampleParse nulFile none).any (fun st =>
      st.rows.any fun r => r.cells.any fun cell => !jsonbStores cell) := by
    decide +kernel
  cases parsed : sampleParse nulFile none with
  | none =>
      rw [parsed] at refused
      cases refused
  | some st =>
  rw [parsed] at refused
  obtain ⟨r, member, refused⟩ := List.any_eq_true.mp refused
  obtain ⟨cell, among, refused⟩ := List.any_eq_true.mp refused
  have kept := (stored st parsed).1.1 r member cell among
  rw [kept] at refused
  cases refused

end Vekst.Ingest
