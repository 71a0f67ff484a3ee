import Vekst.Proof.Ledger.Emitted
import Vekst.Relational.Numbering

namespace Vekst
open Isolation Ledger Relational

/-! ## What the statements of the core may write -/

/-- What a statement other than the insertion of a transaction may write of the state it sees. -/
def Ordinary (d : Database) (writes : List Write) : Prop :=
  ∀ w ∈ writes, match w with
    | .insertTransaction _ => False
    | .insertClassification row => row.supersededBy = none ∧ row.retractedAt = none
    -- Liveness ends once, in one of the two ways.
    | .updateClassification row => row.supersededBy.isSome = !row.retractedAt.isSome
    | .insertTransferMember m => ∃ row, .insertTransfer row ∈ writes ∧ row.id = m.transferID
    | .updateTransfer row => row.dismissedAt.isSome
    | .missed hash => ∀ t ∈ d.transactions, t.dedupHash ≠ hash
    | _ => True

/-- Hashes of different pairs of a content key and an occurrence. -/
def Numbered (sha256 : String → String) (hashes : List String) : Prop :=
  ∃ pairs : List (String × Nat), pairs.Nodup ∧
    hashes = pairs.map fun p => sha256 (occurrenceKey p.1 p.2)

/-- What holds of a transaction stored over pending writes: its currency is one of a statement's,
it carries no conversion, and its hash was looked for and is not that of another row. -/
structure Stores (currencies : String → Prop) (sha256 : String → String) (pending : List Write)
    (row : TransactionRow) : Prop where
  currency : currencies row.currency
  plain : row.fxRate = none ∧ row.fxRateOn = none ∧ row.baseAmountMinor = none ∧
    row.baseCurrency = none
  looked : .missed row.dedupHash ∈ pending
  numbered : Numbered sha256 ((insertedTransactions pending ++ [row]).map (·.dedupHash))

def Lawful (currencies : String → Prop) (sha256 : String → String) (pending : List Write)
    (d : Database) (writes : List Write) : Prop :=
  Ordinary d writes ∨ ∃ row, writes = [.insertTransaction row] ∧ Stores currencies sha256 pending row

/-- Every entry point may be called, and a statement that has rows is in one of the currencies. -/
def rules (site : Site) (currencies : String → Prop) : Discipline Database Write Reply Label where
  allowed := fun _ => True
  answered := fun reply => ∀ st : Ingest.Statement, reply = .statement (some st) → st.rows ≠ [] →
    currencies st.currency
  guarantee := Lawful currencies site.sha256

theorem ordinary_nil (d : Database) : Ordinary d [] := by simp [Ordinary]

theorem ordinary_query {α : Type} (f : Database → Except Failure α) :
    (Prog.query f : Tx α).Emits Ordinary :=
  Prog.emits_query ordinary_nil f

/-! ## Statements -/

theorem emits_insertClassification (id : UUID) (now : Timestamp) (c : Classification) :
    (insertClassification id now c).Emits Ordinary := by
  apply Prog.emits_exec
  intro d writes answer success
  obtain ⟨_, -, made⟩ := bind_ok.mp success
  obtain ⟨rfl, rfl⟩ := Prod.mk.inj (Except.ok.inj made)
  simp [Ordinary, toRow]

theorem emits_pointAt (oldID liveID : UUID) : (pointAt oldID liveID).Emits Ordinary := by
  apply Prog.emits_exec
  intro d writes answer success
  obtain ⟨_, -, success⟩ := bind_ok.mp success
  obtain ⟨_, notBoth, success⟩ := bind_ok.mp success
  obtain ⟨_, -, made⟩ := bind_ok.mp success
  obtain ⟨rfl, -⟩ := Prod.mk.inj (Except.ok.inj made)
  rw [require_ok, List.all_eq_true] at notBoth
  intro w member
  obtain ⟨row, known, rfl⟩ := List.mem_map.mp member
  have unretracted := notBoth row known
  obtain ⟨old, -, rfl⟩ := List.mem_map.mp known
  simpa [Option.isNone_iff_eq_none] using unretracted

theorem emits_supersedeClassification (id : UUID) (now : Timestamp) (oldID : UUID)
    (c : Classification) : (supersedeClassification id now oldID c).Emits Ordinary := by
  apply Prog.emits_bind (emits_insertClassification id now c)
  intro live
  apply Prog.emits_bind (emits_pointAt oldID live.id)
  intro affected
  exact Prog.emits_bind (Prog.emits_ofExcept _) fun _ => trivial

theorem emits_setImportBatchStatus (batchID : UUID) (status : BatchStatus)
    (failureCode : Option String) :
    (Ingest.setImportBatchStatus batchID status failureCode).Emits Ordinary := by
  apply setImportBatchStatus_emits
  intro d rows _ w member
  obtain ⟨row, -, rfl⟩ := List.mem_map.mp member
  trivial

theorem emits_resolveAccount (id entityID : UUID) (st : Ingest.Statement) :
    (Ingest.resolveAccount id entityID st).Emits Ordinary :=
  resolveAccount_emits ordinary_nil (by simp [Ordinary]) id entityID st

theorem emits_insertSkip (id : UUID) (s : Dedup.Skip) : (Dedup.insertSkip id s).Emits Ordinary :=
  insertSkip_emits (by simp [Ordinary]) id s

theorem emits_detectAndPair (id : UUID) (now : Timestamp) (entityID : UUID) (txn : TransactionRow) :
    (Dedup.detectAndPair id now entityID txn).Emits Ordinary :=
  detectAndPair_emits ordinary_nil (by simp [Ordinary]) id now entityID txn

theorem emits_dismiss (now : Timestamp) (transferID userID : UUID) :
    (Dedup.dismiss now transferID userID).Emits Ordinary := by
  apply Prog.emits_exec
  intro d writes answer success
  split at success
  next => cases success
  next it found =>
    obtain ⟨rfl, -⟩ := Prod.mk.inj (Except.ok.inj success)
    simp [Ordinary]

theorem emits_upsertVendor (row : VendorRow) : (Review.upsertVendor row).Emits Ordinary := by
  apply Prog.emits_exec
  intro d writes answer success
  obtain ⟨_, -, made⟩ := bind_ok.mp success
  obtain ⟨rfl, -⟩ := Prod.mk.inj (Except.ok.inj made)
  simp [Ordinary]

theorem emits_insertReviewDecision (row : ReviewDecisionRow) :
    (Review.insertReviewDecision row).Emits Ordinary := by
  apply Prog.emits_exec
  intro d writes answer success
  split at success
  next => cases success
  next => cases success
  next =>
    obtain ⟨rfl, -⟩ := Prod.mk.inj (Except.ok.inj success)
    simp [Ordinary]

theorem emits_retractClassificationsOfTransactions (now : Timestamp) (userID : UUID)
    (txnIDs : List UUID) :
    (Review.retractClassificationsOfTransactions now userID txnIDs).Emits Ordinary := by
  apply Prog.emits_exec
  intro d writes answer success
  obtain ⟨rfl, -⟩ := Prod.mk.inj (Except.ok.inj success)
  intro w member
  obtain ⟨row, known, rfl⟩ := List.mem_map.mp member
  obtain ⟨old, found, rfl⟩ := List.mem_map.mp known
  have live := (List.mem_filter.mp found).2
  simp only [ClassificationRow.live, Bool.and_eq_true, decide_eq_true_eq] at live
  simpa using live.2.1

theorem undoReviewDecision_emits {may : Database → List Write → Prop}
    (closed : ∀ d row, may d [.updateDecision row]) (now : Timestamp) (userID decisionID : UUID) :
    (Review.undoReviewDecision now userID decisionID).Emits may := by
  apply Prog.emits_exec
  intro d writes answer success
  split at success
  next => cases success
  next row found =>
    obtain ⟨rfl, -⟩ := Prod.mk.inj (Except.ok.inj success)
    exact closed d _

theorem emits_insertClassificationRun (id : UUID) (now : Timestamp) (batchID : UUID) :
    (Classify.insertClassificationRun id now batchID).Emits Ordinary := by
  apply Prog.emits_exec
  intro d writes answer success
  obtain ⟨_, -, made⟩ := bind_ok.mp success
  obtain ⟨rfl, -⟩ := Prod.mk.inj (Except.ok.inj made)
  simp [Ordinary]

theorem emits_updateRunning (batchID : UUID)
    (change : ClassificationRunRow → ClassificationRunRow) :
    (Classify.updateRunning batchID change).Emits Ordinary := by
  apply Prog.emits_exec
  intro d writes answer success
  split at success
  next => cases success
  next run found =>
    obtain ⟨rfl, -⟩ := Prod.mk.inj (Except.ok.inj success)
    simp [Ordinary]

/-! ## Bodies that store no transaction -/

theorem emits_storeChunk (batchID : UUID) (draws : Draws) (page : Nat) (rows : List Classification)
    (offered : Nat) : (Classify.storeChunk batchID draws page rows offered).Emits Ordinary := by
  apply Prog.emits_bind
  · apply Prog.emits_forM
    rintro ⟨c, i⟩ -
    exact Prog.emits_bind (emits_insertClassification _ _ c) fun _ => trivial
  · intro _
    exact emits_updateRunning _ _

theorem emits_requestContext (site : Site) : (Classify.requestContext site).Emits Ordinary := by
  apply Prog.emits_bind (ordinary_query _)
  intro cats
  apply Prog.emits_bind (ordinary_query _)
  intro rules
  apply Prog.emits_bind (Prog.emits_ofExcept _)
  intro rules
  exact Prog.emits_bind (ordinary_query _) fun _ => trivial

theorem emits_resolveRows (site : Site) (draws : Draws) (userID entityID : UUID)
    (key outcome categoryCode : String) :
    (Review.resolveRows site draws userID entityID key outcome categoryCode).Emits Ordinary := by
  apply Prog.emits_bind (ordinary_query _)
  intro baseCcy
  apply Prog.emits_bind (ordinary_query _)
  intro rows
  dsimp only
  by_cases empty : rows = []
  · simp only [empty, if_true, Prog.fail_bind, Prog.emits_fail]
  simp only [empty, if_false]
  by_cases skipped : outcome = Review.outcomeSkipped
  · simp only [skipped, if_true]
    exact emits_insertReviewDecision _
  simp only [skipped, if_false]
  apply Prog.emits_bind (ordinary_query _)
  intro category
  have written : ∀ decided, Prog.Emits Ordinary (do
      rows.zipIdx.forM fun item => do
        let _ ← insertClassification (draws.id 2 item.2) (draws.now 1)
          (Review.humanClassification site userID item.1.id category.id outcome)
      Review.writeDecision (draws.id 0 0) userID baseCcy key outcome decided rows) := by
    intro decided
    apply Prog.emits_bind
    · apply Prog.emits_forM
      rintro ⟨r, i⟩ -
      exact Prog.emits_bind (emits_insertClassification _ _ _) fun _ => trivial
    · intro _
      exact emits_insertReviewDecision _
  by_cases categorised : outcome = Review.outcomeCategorised
  · simp only [categorised, if_true] at written ⊢
    exact Prog.emits_bind (emits_upsertVendor _) fun _ => written _
  · simp only [categorised, if_false]
    exact written _

theorem undoDecision_emits {may : Database → List Write → Prop} (quiet : ∀ d, may d [])
    (retracted : ∀ now userID txnIDs,
      (Review.retractClassificationsOfTransactions now userID txnIDs).Emits may)
    (forgotten : ∀ d keyVersion key, may d [.deleteVendor keyVersion key])
    (closed : ∀ d row, may d [.updateDecision row]) (draws : Draws) (userID decisionID : UUID) :
    (Review.undoDecision draws userID decisionID).Emits may := by
  apply Prog.emits_bind (Prog.emits_query quiet _)
  intro decision
  apply Prog.emits_bind (Prog.emits_query quiet _)
  intro live
  dsimp only
  have rest : ∀ retracted : Nat, Prog.Emits may (do
      if decision.outcome = Review.outcomeCategorised then
        Prog.exec fun _ => .ok ([.deleteVendor decision.keyVersion decision.counterpartyKey], ())
      Review.undoReviewDecision (draws.now 1) userID decisionID
      return retracted : Tx Nat) := by
    intro retracted
    have undone := Prog.emits_bind (undoReviewDecision_emits closed (draws.now 1) userID decisionID)
      fun _ => Prog.emits_ret retracted
    by_cases categorised : decision.outcome = Review.outcomeCategorised
    · simp only [categorised, if_true]
      refine Prog.emits_bind ?_ fun _ => undone
      apply Prog.emits_exec
      intro d writes answer success
      obtain ⟨rfl, -⟩ := Prod.mk.inj (Except.ok.inj success)
      exact forgotten d _ _
    · simp only [categorised, if_false]
      exact undone
  by_cases none_ : live.map (·.transactionID) = []
  · simp only [none_, if_true]
    exact rest 0
  · simp only [none_, if_false]
    exact Prog.emits_bind (retracted _ _ _) rest

theorem emits_undoDecision (draws : Draws) (userID decisionID : UUID) :
    (Review.undoDecision draws userID decisionID).Emits Ordinary :=
  undoDecision_emits ordinary_nil emits_retractClassificationsOfTransactions (by simp [Ordinary])
    (by simp [Ordinary]) draws userID decisionID

/-! ## The rows of a statement -/

/-- The contents keep their order, and each hash is of its content and the times it has occurred. -/
theorem map_partitionFrom (sha256 : String → String) (seen : String → Nat)
    (cs : List Dedup.Candidate) :
    (Dedup.partitionFrom sha256 seen cs).map (fun c => (contentKey c.txn, c.txn.dedupHash)) =
      (number seen (cs.map fun c => contentKey c.txn)).map
        fun p => (p.1, sha256 (occurrenceKey p.1 p.2)) := by
  induction cs generalizing seen with
  | nil => rfl
  | cons c cs ih =>
      rw [Dedup.partitionFrom, List.map_cons, ih, List.map_cons, number, List.map_cons]
      rfl

/-- Partitioning sets the hash of a candidate and nothing else. -/
theorem mem_partitionFrom {sha256 : String → String} {seen : String → Nat}
    {cs : List Dedup.Candidate} {c : Dedup.Candidate}
    (member : c ∈ Dedup.partitionFrom sha256 seen cs) :
    ∃ old ∈ cs, ∃ hash, c = { old with txn := { old.txn with dedupHash := hash } } := by
  induction cs generalizing seen with
  | nil => cases member
  | cons first cs ih =>
      rcases List.mem_cons.mp member with rfl | later
      · exact ⟨first, by simp, _, rfl⟩
      · obtain ⟨old, known, hash, eq⟩ := ih later
        exact ⟨old, List.mem_cons_of_mem first known, hash, eq⟩

theorem numbered_partition (sha256 : String → String) (cs : List Dedup.Candidate) :
    Numbered sha256 ((Dedup.partition sha256 cs).map (·.txn.dedupHash)) := by
  have hashes := congrArg (List.map Prod.snd) (map_partitionFrom sha256 (fun _ => 0) cs)
  rw [List.map_map, List.map_map] at hashes
  exact ⟨_, nodup_number _ _, hashes⟩

theorem Numbered.sublist {sha256 : String → String} {few hashes : List String}
    (numbered : Numbered sha256 hashes) (sub : few.Sublist hashes) : Numbered sha256 few := by
  obtain ⟨pairs, nodup, rfl⟩ := numbered
  obtain ⟨kept, fewer, rfl⟩ := List.sublist_map_iff.mp sub
  exact ⟨kept, nodup.sublist fewer, rfl⟩

theorem buildTransaction_ok {site : Site} {accountID : UUID} {batch : ImportBatchRow}
    {currency : String} {r : Ingest.Row} {t : Transaction}
    (success : Ingest.buildTransaction site accountID batch currency r = .ok t) :
    t.fx = none ∧ t.amount.currencyCode = currency := by
  obtain ⟨bookedOn, -, made⟩ := bind_ok.mp success
  obtain rfl := Except.ok.inj made
  exact ⟨rfl, rfl⟩

/-- The row of a transaction that carries no conversion. -/
def storedRow (id : UUID) (now : Timestamp) (t : Transaction) : TransactionRow where
  id := id
  entityID := t.entityID
  accountID := t.accountID
  batchID := t.batchID
  lineNo := t.lineNo
  sourceKind := t.sourceKind
  documentRef := if t.documentRef = "" then none else some t.documentRef
  postingNo := t.postingNo
  bookedOn := t.bookedOn
  valueOn := t.valueOn
  amountMinor := t.amount.minorUnits
  currency := t.amount.currencyCode
  fxRate := none
  fxRateOn := none
  baseAmountMinor := none
  baseCurrency := none
  counterpartyRaw := t.counterpartyRaw
  counterpartyKey := t.counterpartyKey
  descriptionRaw := t.descriptionRaw
  descriptionNorm := t.descriptionNorm
  normalizeVersion := t.normalizeVersion
  regulatedCode := t.regulatedCode
  bankRef := t.bankRef
  dedupHash := t.dedupHash
  createdAt := now

theorem toInsertParams_ok {id : UUID} {now : Timestamp} {t : Transaction} {row : TransactionRow}
    (plain : t.fx = none) (success : toInsertParams id now t = .ok row) :
    row = storedRow id now t := by
  obtain ⟨currency, checked, success⟩ := bind_ok.mp success
  have known : currency = t.amount.currencyCode := by
    unfold Money.currencyCheck at checked
    split at checked
    next => exact (Except.ok.inj checked).symm
    next => cases checked
  dsimp only at success
  by_cases noLine : t.lineNo ≤ 0
  · simp only [noLine, if_true] at success
    obtain ⟨_, stopped, -⟩ := bind_ok.mp success
    cases stopped
  · simp only [noLine, if_false, plain] at success
    rw [known] at success
    exact (Except.ok.inj success).symm

end Vekst
