import Vekst.Proof.Ledger.OneLive

namespace Vekst
open Isolation Ledger Relational Reports

/-- No classification of the transaction is neither superseded nor retracted. -/
def Unclassified (d : Database) (t : TransactionRow) : Prop := d.liveOf t.id = []

instance (d : Database) (t : TransactionRow) : Decidable (Unclassified d t) :=
  inferInstanceAs (Decidable (_ = _))

/-- The transactions whose amounts `ReportUnclassifiedTotals` adds up. -/
def countedUnclassified (d : Database) (args : Args) : List TransactionRow :=
  (scope d args).filter (unanswered d)

theorem reportUnclassifiedTotals_eq (d : Database) (args : Args) :
    reportUnclassifiedTotals d args = periodTotals (countedUnclassified d args) := rfl

/-- Every reader takes the transaction for unclassified exactly when it is. -/
structure ReadersAgree (d : Database) (t : TransactionRow) : Prop where
  page : ∀ cursor limit, cursor.before t → d.transactions.length ≤ limit →
    (t ∈ unclassifiedTransactions d t.batchID cursor limit ↔ Unclassified d t)
  report : ∀ args : Args, args.covers t → t.sourceKind.text = args.sourceKind →
    (t ∈ countedUnclassified d args ↔ Unclassified d t)
  bucket : ∀ args : Args, args.covers t → t.sourceKind.text = args.sourceKind →
    ∀ cursor limit, afterCursor cursor t → (onLine d args "unclassified").length ≤ limit →
      (t ∈ (lineTransactions d args "unclassified" cursor limit).map (·.txn) ↔ Unclassified d t)
  groupRows : t ∈ Review.reviewGroupRows d t.entityID t.counterpartyKey ↔ Unclassified d t
  groups : ∀ limit, d.transactions.length ≤ limit →
    ((∃ g ∈ Review.reviewGroups d t.entityID limit 0, t ∈ g.rows) ↔ Unclassified d t)
  current : currentClassification d t.id = .error .noRows ↔ Unclassified d t

theorem unanswered_iff_unclassified {d : Database} {t : TransactionRow} :
    unanswered d t = true ↔ Unclassified d t := by
  rw [unanswered, Bool.not_eq_true', List.any_eq_false, Unclassified, Database.liveOf,
    List.filter_eq_nil_iff]
  rfl

theorem withoutLive_eq (d : Database) (rows : List TransactionRow) :
    withoutLive d rows = rows.filter (unanswered d) :=
  leftJoin_filter_none rows d.classifications liveFor

theorem mem_unclassifiedTransactions {d : Database} {t : TransactionRow} {cursor : Ledger.Cursor}
    {limit : Nat} (stored : t ∈ d.transactions) (ahead : cursor.before t)
    (ample : d.transactions.length ≤ limit) :
    t ∈ unclassifiedTransactions d t.batchID cursor limit ↔ Unclassified d t := by
  rw [unclassifiedTransactions, withoutLive_eq, List.take_of_length_le, List.mem_insertionSort,
    List.mem_filter, List.mem_filter, List.mem_filter, unanswered_iff_unclassified]
  · simp [stored, ahead]
  · rw [List.length_insertionSort]
    exact (List.length_filter_le _ _).trans ((List.length_filter_le _ _).trans
      ((List.length_filter_le _ _).trans ample))

theorem mem_countedUnclassified {d : Database} {t : TransactionRow} {args : Args}
    (stored : t ∈ d.transactions) (covered : args.covers t)
    (basis : t.sourceKind.text = args.sourceKind) :
    t ∈ countedUnclassified d args ↔ Unclassified d t := by
  rw [countedUnclassified, scope, List.mem_filter, List.mem_filter, unanswered_iff_unclassified]
  simp [stored, covered, basis]

/-- The bucket's rows before the cursor and the limit. -/
theorem mem_onLine_unclassified {d : Database} {t : TransactionRow} {args : Args}
    (stored : t ∈ d.transactions) (covered : args.covers t)
    (basis : t.sourceKind.text = args.sourceKind) :
    (∃ row ∈ onLine d args "unclassified", row.txn = t) ↔ Unclassified d t := by
  have alone_iff : Unclassified d t ↔ d.classifications.filter (liveFor t) = [] := Iff.rfl
  rw [alone_iff]
  constructor
  · rintro ⟨row, member, rfl⟩
    obtain ⟨known, on⟩ := List.mem_filter.mp member
    obtain ⟨⟨⟨t, c⟩, cat⟩, joined, rfl⟩ := List.mem_map.mp known
    have unmatched : c = none := by
      simp only [CellRow.onLine, Bool.and_eq_true] at on
      simpa using on.2
    have classified := mem_left_of_mem_leftJoin joined
    rw [unmatched] at classified
    exact (mem_leftJoin_none.mp classified).2
  · intro alone
    have first : (t, none) ∈ leftJoin (d.transactions.filter args.covers) d.classifications
        liveFor := mem_leftJoin_none.mpr ⟨List.mem_filter.mpr ⟨stored, covered⟩, alone⟩
    refine ⟨⟨t, none, none⟩, List.mem_filter.mpr ⟨List.mem_map.mpr ⟨((t, none), none), ?_, rfl⟩, ?_⟩,
      rfl⟩
    · exact mem_leftJoin_none.mpr ⟨first, by simp⟩
    · simp [CellRow.onLine, basis]

theorem mem_lineTransactions_unclassified {d : Database} {t : TransactionRow} {args : Args}
    {cursor : Option (Calendar.Date × UUID)} {limit : Nat} (stored : t ∈ d.transactions)
    (covered : args.covers t) (basis : t.sourceKind.text = args.sourceKind)
    (ahead : afterCursor cursor t) (ample : (onLine d args "unclassified").length ≤ limit) :
    t ∈ (lineTransactions d args "unclassified" cursor limit).map (·.txn) ↔ Unclassified d t := by
  rw [← mem_onLine_unclassified stored covered basis, List.mem_map, lineTransactions,
    List.take_of_length_le]
  · simp only [List.mem_insertionSort, List.mem_filter]
    constructor
    · rintro ⟨row, ⟨member, -⟩, same⟩
      exact ⟨row, member, same⟩
    · rintro ⟨row, member, rfl⟩
      exact ⟨row, ⟨member, ahead⟩, rfl⟩
  · rw [List.length_insertionSort]
    exact (List.length_filter_le _ _).trans ample

theorem mem_waiting {d : Database} {t : TransactionRow} (stored : t ∈ d.transactions) :
    t ∈ Review.waiting d t.entityID ↔ Unclassified d t := by
  rw [Review.waiting, List.mem_filter, ← unanswered_iff_unclassified]
  simp [stored]

theorem mem_reviewGroupRows {d : Database} {t : TransactionRow} (stored : t ∈ d.transactions) :
    t ∈ Review.reviewGroupRows d t.entityID t.counterpartyKey ↔ Unclassified d t := by
  rw [Review.reviewGroupRows, List.mem_insertionSort, List.mem_filter, mem_waiting stored]
  simp

theorem mem_reviewGroups {d : Database} {t : TransactionRow} {limit : Nat}
    (stored : t ∈ d.transactions) (ample : d.transactions.length ≤ limit) :
    (∃ g ∈ Review.reviewGroups d t.entityID limit 0, t ∈ g.rows) ↔ Unclassified d t := by
  have few : (groups (·.counterpartyKey) (Review.waiting d t.entityID)).length ≤ limit := by
    rw [groups, List.length_map]
    exact (List.dedup_sublist _).length_le.trans ((List.length_map _).le.trans
      ((List.length_filter_le _ _).trans ample))
  rw [← mem_waiting stored, Review.reviewGroups, List.drop_zero, List.take_of_length_le]
  · simp only [List.mem_insertionSort, List.mem_map, groups]
    constructor
    · rintro ⟨_, ⟨_, ⟨key, -, rfl⟩, rfl⟩, member⟩
      exact (List.mem_filter.mp member).1
    · intro member
      refine ⟨_, ⟨_, ⟨t.counterpartyKey, ?_, rfl⟩, rfl⟩, List.mem_filter.mpr ⟨member, by simp⟩⟩
      exact List.mem_dedup.mpr (List.mem_map_of_mem member)
  · rw [List.length_insertionSort, List.length_map]
    exact few

/-! ## The two ways liveness ends -/

/-- A classification ends in one way at most, as `cls_is_not_both` has it. -/
def NotBoth (d : Database) : Prop :=
  ∀ c ∈ d.classifications, c.supersededBy = none ∨ c.retractedAt = none

def Unretracted (d : Database) : Prop := ∀ c ∈ d.classifications, c.retractedAt = none

theorem currentClassification_eq_noRows {d : Database} {txnID : UUID} :
    currentClassification d txnID = .error .noRows ↔
      ∀ c ∈ d.classifications, c.transactionID = txnID → c.supersededBy.isSome := by
  unfold currentClassification
  cases found : d.classifications.find? fun c =>
      c.transactionID = txnID && c.supersededBy.isNone with
  | some c =>
      have known := List.mem_of_find?_eq_some found
      have matching := List.find?_some found
      simp only [Bool.and_eq_true, decide_eq_true_eq] at matching
      simp only [reduceCtorEq, false_iff, not_forall]
      exact ⟨c, known, matching.1, by simp [Option.isNone_iff_eq_none.mp matching.2]⟩
  | none =>
      simp only [true_iff]
      intro c known same
      have unmatched := List.find?_eq_none.mp found c known
      simpa [same, Option.isSome_iff_ne_none] using unmatched

theorem unclassified_iff {d : Database} {t : TransactionRow} :
    Unclassified d t ↔ ∀ c ∈ d.classifications, c.transactionID = t.id →
      c.supersededBy.isSome ∨ c.retractedAt.isSome := by
  rw [Unclassified, Database.liveOf, List.filter_eq_nil_iff]
  apply forall₂_congr
  intro c known
  cases superseded : c.supersededBy <;> cases retracted : c.retractedAt <;>
    simp [ClassificationRow.live, superseded, retracted]

/-- What `CurrentClassification` says is right unless all there is was taken back. -/
theorem current_iff {d : Database} {t : TransactionRow} (notBoth : NotBoth d) :
    (currentClassification d t.id = .error .noRows ↔ Unclassified d t) ↔
      ¬ Unclassified d t ∨
        ∀ c ∈ d.classifications, c.transactionID = t.id → c.retractedAt = none := by
  rw [currentClassification_eq_noRows]
  have ended : Unclassified d t ↔ _ := unclassified_iff
  constructor
  · intro same
    by_cases unclassified : Unclassified d t
    · refine .inr fun c known own => ?_
      have superseded := same.mpr unclassified c known own
      rcases notBoth c known with never | unretracted
      · simp [never] at superseded
      · exact unretracted
    · exact .inl unclassified
  · intro either
    constructor
    · exact fun superseded => ended.mpr fun c known own => .inl (superseded c known own)
    · intro unclassified c known own
      rcases either with answered | unretracted
      · exact absurd unclassified answered
      · rcases ended.mp unclassified c known own with superseded | retracted
        · exact superseded
        · simp [unretracted c known own] at retracted

/-- The readers differ on a transaction just when all it has is what a reviewer took back. -/
theorem readersAgree_iff {d : Database} {t : TransactionRow} (notBoth : NotBoth d)
    (stored : t ∈ d.transactions) :
    ReadersAgree d t ↔ ¬ Unclassified d t ∨
      ∀ c ∈ d.classifications, c.transactionID = t.id → c.retractedAt = none := by
  rw [← current_iff notBoth]
  constructor
  · exact fun agree => agree.current
  · intro current
    exact {
      page := fun _ _ ahead ample => mem_unclassifiedTransactions stored ahead ample
      report := fun _ covered basis => mem_countedUnclassified stored covered basis
      bucket := fun _ covered basis _ _ ahead ample =>
        mem_lineTransactions_unclassified stored covered basis ahead ample
      groupRows := mem_reviewGroupRows stored
      groups := fun _ ample => mem_reviewGroups stored ample
      current }

/-! ## Every run -/

def retracts : Write → Bool
  | .updateClassification row => row.retractedAt.isSome
  | _ => false

/-- The commit retracts no classification. -/
def NoRetraction : System → Nat → Prop := fun sys i => ∀ w ∈ sys.writesOf i, retracts w = false

instance (sys : System) (i : Nat) : Decidable (NoRetraction sys i) :=
  inferInstanceAs (Decidable (∀ w ∈ _, _ = _))

/-- The versions of classifications a transaction leaves, each ended in one way at most. -/
def EndedOnce (pending : List Write) : Prop :=
  ∀ c, (.insertClassification c ∈ pending → c.supersededBy = none ∧ c.retractedAt = none) ∧
    (.updateClassification c ∈ pending → c.supersededBy = none ∨ c.retractedAt = none)

theorem EndedOnce.written {currencies : String → Prop} {sha256 : String → String} {d : Database}
    {pending writes : List Write} (ended : EndedOnce pending)
    (lawful : Lawful currencies sha256 pending d writes) : EndedOnce (pending ++ writes) := by
  intro c
  rcases lawful with ordinary | ⟨row, rfl, -⟩
  · constructor
    · intro member
      rcases List.mem_append.mp member with old | new
      · exact (ended c).1 old
      · exact ordinary _ new
    · intro member
      rcases List.mem_append.mp member with old | new
      · exact (ended c).2 old
      · have once := ordinary _ new
        cases superseded : c.supersededBy with
        | none => exact .inl rfl
        | some liveID =>
            cases retracted : c.retractedAt with
            | none => exact .inr rfl
            | some at_ => simp [superseded, retracted] at once
  · simpa using ended c

theorem notBoth_visible {d : Database} {pending : List Write} (sound : NotBoth d)
    (ended : EndedOnce pending) : NotBoth (visible d pending) := by
  intro c member
  rcases mem_visible_classifications member with old | ⟨_, made, rfl | rfl⟩
  · exact sound c old
  · exact .inl ((ended c).1 made).1
  · exact (ended c).2 made

theorem notBoth_carries (site : Site) (admits : System → Event → Prop) :
    Carries (rules site fun _ => True) admits NotBoth fun _ pending _ => EndedOnce pending where
  opened d _ := by simp [EndedOnce]
  written d pending writes _ ended lawful := ended.written lawful
  passed d pending _ ended _ := ended
  published sys i client _ _ sound ended := notBoth_visible sound ended
  unmoved sys i client other _ _ _ _ _ held := held

theorem unretracted_carries (site : Site) {admits : System → Event → Prop}
    (never : ∀ sys i, admits sys (.publish i) → NoRetraction sys i) :
    Carries (rules site fun _ => True) admits Unretracted fun _ pending _ => EndedOnce pending where
  opened d _ := by simp [EndedOnce]
  written d pending writes _ ended lawful := ended.written lawful
  passed d pending _ ended _ := ended
  published sys i client admitted found sound ended := by
    intro c member
    rcases mem_visible_classifications member with old | ⟨_, made, rfl | rfl⟩
    · exact sound c old
    · exact ((ended c).1 made).2
    · rw [← System.writesOf_eq found] at made
      simpa [retracts] using never sys i admitted _ made
  unmoved sys i client other _ _ _ _ _ held := held

/-- In every state reached the readers agree on a transaction just when it has a live
classification or none that was retracted, and on all of them while nothing is retracted. -/
theorem readers_agree_iff {site : Site} {d : Database} {sys : System}
    {admits : System → Event → Prop} (initially : NotBoth d)
    (run : Run (body site) admits (System.idle d) sys) :
    (∀ t ∈ sys.committed.transactions, ReadersAgree sys.committed t ↔
      ¬ Unclassified sys.committed t ∨ ∀ c ∈ sys.committed.classifications,
        c.transactionID = t.id → c.retractedAt = none) ∧
    (Unretracted d → (∀ sys i, admits sys (.publish i) → NoRetraction sys i) →
      ∀ t ∈ sys.committed.transactions, ReadersAgree sys.committed t) := by
  have notBoth : NotBoth sys.committed :=
    (Run.carries (notBoth_carries site admits) (fun label _ => body_keeps label)
      (fun _ event _ => rules_admit event) run rfl initially).1
  refine ⟨fun t stored => readersAgree_iff notBoth stored, fun unretracted never t stored => ?_⟩
  have untouched : Unretracted sys.committed :=
    (Run.carries (unretracted_carries site never) (fun label _ => body_keeps label)
      (fun _ event _ => rules_admit event) run rfl unretracted).1
  exact (readersAgree_iff notBoth stored).mpr (.inr fun c known _ => untouched c known)

/-! ## A resolution taken back -/

def resolvedEvents : List Event := [
  .spawn (.resolve 7 1 "" Review.outcomeCategorised "0101" (sampleDraws 200)), .jump 0,
  .exec 0, .check 0, .publish 0,
  .exec 0, .exec 0, .exec 0, .exec 0, .exec 0, .exec 0, .check 0, .publish 0]

/-- The undoing of the decision the resolution recorded. -/
def undoneEvents : List Event := [
  .spawn (.undo 7 200 (sampleDraws 300)), .jump 1, .exec 1, .check 1, .publish 1,
  .exec 1, .exec 1, .exec 1, .exec 1, .exec 1, .check 1, .publish 1]

theorem readers_agree_iff_sample :
    ∃ sys, Run (body sampleSite) (AtPublish NoRetraction) (System.idle sampleLedger) sys ∧
      (sys.committed.liveOf 1).length = 1 ∧
      ∀ t ∈ sys.committed.transactions, ReadersAgree sys.committed t := by
  have evaluated : (fireAll (body sampleSite) (System.idle sampleLedger) resolvedEvents).map
      (fun sys => (sys.committed.liveOf 1).length) = some 1 := by decide +kernel
  obtain ⟨sys, fired, live⟩ := Option.map_eq_some_iff.mp evaluated
  have run : Run (body sampleSite) (AtPublish NoRetraction) (System.idle sampleLedger) sys :=
    Run.of_fireAll (by decide +kernel) fired
  have notBoth : NotBoth sampleLedger := fun _ member => nomatch member
  have unretracted : Unretracted sampleLedger := fun _ member => nomatch member
  exact ⟨sys, run, live, (readers_agree_iff notBoth run).2 unretracted fun _ _ admitted => admitted⟩

/-- The queue lists the transaction again and `CurrentClassification` still answers. -/
theorem undone_transaction_still_current :
    ¬ ∀ sys, Run (body sampleSite) (fun _ _ => True) (System.idle sampleLedger) sys →
      ∀ t ∈ sys.committed.transactions, ReadersAgree sys.committed t := by
  intro claimed
  have evaluated : (fireAll (body sampleSite) (System.idle sampleLedger)
      (resolvedEvents ++ undoneEvents)).map (fun sys => decide (∃ t ∈ sys.committed.transactions,
        Unclassified sys.committed t ∧ currentClassification sys.committed t.id ≠ .error .noRows)) =
      some true := by decide +kernel
  obtain ⟨sys, fired, differs⟩ := Option.map_eq_some_iff.mp evaluated
  obtain ⟨t, stored, unclassified, answered⟩ := of_decide_eq_true differs
  have agree := claimed sys (Run.of_fireAll (admitsAll fun _ _ => trivial) fired) t stored
  exact answered (agree.current.mpr unclassified)

end Vekst
