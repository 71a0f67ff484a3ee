import Vekst.Isolation.Solo
import Vekst.Proof.Ingest.Duplicates
import Vekst.Proof.Ingest.Stages

namespace Vekst.Ingest
open Isolation Ledger Dedup Relational

/-! ## One batch, stored -/

/-- `ContentKey` of a stored transaction, of its own columns. -/
def storedKey (t : TransactionRow) : String :=
  fieldSeparator.intercalate [
    t.accountID.text,
    dateText t.bookedOn,
    toString t.amountMinor.toInt,
    t.currency,
    t.descriptionNorm,
    t.bankRef,
    t.documentRef.getD "",
    toString t.postingNo]

theorem storedKey_storedRow (id : UUID) (now : Timestamp) (t : Transaction) :
    storedKey (storedRow id now t) = contentKey t := by
  have ref : (storedRow id now t).documentRef.getD "" = t.documentRef := by
    rw [storedRow]
    split <;> simp_all
  rw [storedKey, ref]
  rfl

/-- The hash of a candidate is stored. -/
def isStored (d : Database) (c : Candidate) : Bool :=
  d.transactions.any (·.dedupHash = c.txn.dedupHash)

/-- A skip of a candidate, naming what was found. -/
def NamesFound (batchID : UUID) (d : Database) (c : Candidate) (s : Skip) : Prop :=
  ∃ found ∈ d.transactions, found.dedupHash = c.txn.dedupHash ∧ s = {
    batchID
    lineNo := c.lineNo
    postingNo := c.txn.postingNo
    level := levelD3
    dedupHash := c.txn.dedupHash
    matched := some ⟨found.id, found.batchID⟩ }

theorem findByHash_ok {d after : Database} {hash : String} {found : Option Match}
    (ran : (findByHash hash).run Database.apply d = .ok (found, after)) : after = d ∧
      ((∃ t ∈ d.transactions, t.dedupHash = hash ∧ found = some ⟨t.id, t.batchID⟩) ∨
        found = none ∧ ∀ t ∈ d.transactions, t.dedupHash ≠ hash) := by
  obtain ⟨writes, made, rfl⟩ := (Prog.run_exec_ok _).mp ran
  split at made
  next t hit =>
    obtain ⟨rfl, rfl⟩ := Prod.mk.inj (Except.ok.inj made)
    have listed := List.mem_of_mem_head? (Option.mem_def.mpr hit)
    rw [List.mem_insertionSort] at listed
    obtain ⟨stored, same⟩ := List.mem_filter.mp listed
    exact ⟨rfl, .inl ⟨t, stored, of_decide_eq_true same, rfl⟩⟩
  next none_ =>
    obtain ⟨rfl, rfl⟩ := Prod.mk.inj (Except.ok.inj made)
    exact ⟨rfl, .inr ⟨rfl, findTransactionByDedupHash_eq_none.mp none_⟩⟩

/-- The lookups sort the candidates by whether their hash is stored. -/
theorem lookUps_ok {batchID : UUID} {cs : List Candidate} {sorted last : Sorted} {d after : Database}
    (ran : (cs.foldlM (lookUp batchID) sorted).run Database.apply d = .ok (last, after)) :
    after = d ∧ last.toInsert = sorted.toInsert ++ (cs.filter (!isStored d ·)).map (·.txn) ∧
      ∃ skips, last.skips = sorted.skips ++ skips ∧
        List.Forall₂ (NamesFound batchID d) (cs.filter (isStored d)) skips := by
  induction cs generalizing sorted with
  | nil =>
      obtain ⟨rfl, rfl⟩ := Prod.mk.inj (Except.ok.inj ran)
      exact ⟨rfl, by simp, [], by simp, .nil⟩
  | cons c cs ih =>
      rw [List.foldlM_cons] at ran
      obtain ⟨next, mid, first, rest⟩ := (Prog.run_bind_ok _).mp ran
      obtain ⟨found, mid', looked, answered⟩ := (Prog.run_bind_ok _).mp first
      obtain ⟨rfl, ⟨t, stored, same, rfl⟩ | ⟨rfl, absent⟩⟩ := findByHash_ok looked
      · obtain ⟨rfl, rfl⟩ := Prod.mk.inj (Except.ok.inj answered)
        obtain ⟨rfl, inserted, skips, skipped, names⟩ := ih rest
        have hit : isStored after c = true := List.any_eq_true.mpr ⟨t, stored, decide_eq_true same⟩
        rw [List.filter_cons_of_neg (by simp [hit]), List.filter_cons_of_pos hit]
        refine ⟨rfl, inserted, _ :: skips, ?_, .cons ⟨t, stored, same, rfl⟩ names⟩
        rw [skipped, List.append_assoc, List.singleton_append]
      · obtain ⟨rfl, rfl⟩ := Prod.mk.inj (Except.ok.inj answered)
        obtain ⟨rfl, inserted, skips, skipped, names⟩ := ih rest
        have missed : isStored after c = false := by
          rw [isStored, List.any_eq_false]
          exact fun t stored => by simpa using absent t stored
        rw [List.filter_cons_of_pos (by simp [missed]), List.filter_cons_of_neg (by simp [missed])]
        refine ⟨rfl, ?_, skips, skipped, names⟩
        rw [inserted, List.map_cons, List.append_assoc, List.singleton_append]

theorem insertSkips_ok {draw : Nat → UUID} {items : List (Skip × Nat)} {d after : Database}
    (ran : (items.forM fun item => insertSkip (draw item.2) item.1).run Database.apply d =
      .ok ((), after)) :
    after.transactions = d.transactions ∧ ∃ rows, after.dedupSkips = d.dedupSkips ++ rows ∧
      List.Forall₂ (fun s row => ∃ id, row = skipRow id s) (items.map Prod.fst) rows := by
  induction items generalizing d with
  | nil =>
      obtain ⟨-, rfl⟩ := Prod.mk.inj (Except.ok.inj ran)
      exact ⟨rfl, [], by simp, .nil⟩
  | cons item items ih =>
      obtain ⟨s, i⟩ := item
      obtain ⟨_, mid, first, rest⟩ := (Prog.run_bind_ok _).mp ran
      obtain ⟨writes, made, rfl⟩ := (Prog.run_exec_ok _).mp first
      obtain ⟨_, -, made⟩ := bind_ok.mp made
      obtain ⟨rfl, -⟩ := Prod.mk.inj (Except.ok.inj made)
      obtain ⟨transactions, rows, skips, each⟩ := ih rest
      refine ⟨transactions, skipRow (draw i) s :: rows, ?_, .cons ⟨_, rfl⟩ each⟩
      rw [skips]
      simp [Database.apply]

theorem insert_ok {draw : Nat → UUID} {now : Timestamp} {items : List (Transaction × Nat)}
    {inserted : List TransactionRow} {d after : Database} (plain : ∀ item ∈ items, item.1.fx = none)
    (ran : (items.mapM fun item => insertTransaction (draw item.2) now item.1).run Database.apply d =
      .ok (inserted, after)) :
    after.dedupSkips = d.dedupSkips ∧ after.transactions = d.transactions ++ inserted ∧
      List.Forall₂ (fun t row => ∃ id, row = storedRow id now t) (items.map Prod.fst) inserted := by
  induction items generalizing d inserted with
  | nil =>
      obtain ⟨rfl, rfl⟩ := Prod.mk.inj (Except.ok.inj ran)
      exact ⟨rfl, by simp, .nil⟩
  | cons item items ih =>
      obtain ⟨t, i⟩ := item
      rw [List.mapM_cons] at ran
      obtain ⟨row, mid, first, ran⟩ := (Prog.run_bind_ok _).mp ran
      obtain ⟨rows, last, rest, made⟩ := (Prog.run_bind_ok _).mp ran
      obtain ⟨rfl, rfl⟩ := Prod.mk.inj (Except.ok.inj made)
      obtain ⟨writes, made, rfl⟩ := (Prog.run_exec_ok _).mp first
      obtain ⟨own, params, made⟩ := bind_ok.mp made
      obtain ⟨_, -, made⟩ := bind_ok.mp made
      obtain ⟨rfl, rfl⟩ := Prod.mk.inj (Except.ok.inj made)
      obtain rfl := toInsertParams_ok (plain (t, i) (by simp)) params
      obtain ⟨skips, transactions, each⟩ := ih (fun item member => plain item (by simp [member])) rest
      refine ⟨skips, ?_, .cons ⟨_, rfl⟩ each⟩
      rw [transactions]
      simp [Database.apply]

/-- The same transactions and the same skips. -/
structure SameRows (d d' : Database) : Prop where
  transactions : d'.transactions = d.transactions
  skips : d'.dedupSkips = d.dedupSkips

/-- Neither a transaction nor a skip is among what is written. -/
def RowFree (writes : List Write) : Prop :=
  ∀ w ∈ writes, (∀ row, w ≠ .insertTransaction row) ∧ ∀ row, w ≠ .insertDedupSkip row

theorem sameRows_of_rowFree {d : Database} {writes : List Write} (quiet : RowFree writes) :
    SameRows d (writes.foldl Database.apply d) := by
  induction writes generalizing d with
  | nil => exact ⟨rfl, rfl⟩
  | cons w writes ih =>
      have rest : SameRows (d.apply w) (writes.foldl Database.apply (d.apply w)) :=
        ih fun other member => quiet other (by simp [member])
      obtain ⟨noTransaction, noSkip⟩ := quiet w (by simp)
      rw [List.foldl_cons]
      cases w with
      | insertTransaction row => exact absurd rfl (noTransaction row)
      | insertDedupSkip row => exact absurd rfl (noSkip row)
      | _ => exact ⟨rest.transactions, rest.skips⟩

theorem run_rowFree {α : Type} {p : Tx α} {d after : Database} {answer : α}
    (emits : p.Emits fun _ writes => RowFree writes)
    (ran : p.run Database.apply d = .ok (answer, after)) : SameRows d after := by
  have kept : p.Leaves Database.apply (SameRows d) fun _ => SameRows d :=
    Prog.leaves_of_emits emits fun s writes same quiet => by
      have later : SameRows s (writes.foldl Database.apply s) := sameRows_of_rowFree quiet
      exact ⟨later.transactions.trans same.transactions, later.skips.trans same.skips⟩
  exact kept d answer after ⟨rfl, rfl⟩ ran

/-- What the persist job has of a file: the batch, the statement it is parsed to, and the account
the rows are of. -/
structure File where
  batch : ImportBatchRow
  statement : Statement
  accountID : UUID

def File.candidates (site : Site) (file : File) : Except Failure (List Candidate) :=
  file.statement.rows.mapM fun r =>
    (buildTransaction site file.accountID file.batch file.statement.currency r).map
      fun txn => ⟨r.lineNo, txn⟩

/-- The rows of the file, as the job sorts them. -/
def File.rows (site : Site) (file : File) : List Candidate :=
  partition site.sha256 ((file.candidates site).toOption.getD [])

/-- The contents of the rows. -/
def File.keys (site : Site) (file : File) : List String :=
  (file.rows site).map fun c => contentKey c.txn

/-- A transaction of a row. -/
def StoredAs (file : File) (c : Candidate) (t : TransactionRow) : Prop :=
  t.batchID = file.batch.id ∧ t.lineNo = c.lineNo ∧ storedKey t = contentKey c.txn ∧
    t.dedupHash = c.txn.dedupHash

/-- A skip of a row, which names a transaction of its hash. -/
def SkippedAs (file : File) (d : Database) (c : Candidate) (s : DedupSkipRow) : Prop :=
  s.batchID = file.batch.id ∧ s.lineNo = c.lineNo ∧
    ∃ t ∈ d.transactions, s.matchedTransactionID = some t.id ∧ t.dedupHash = c.txn.dedupHash

theorem mem_rows {site : Site} {file : File} {c : Candidate} (member : c ∈ file.rows site) :
    c.txn.fx = none ∧ c.txn.batchID = file.batch.id ∧ c.txn.lineNo = c.lineNo := by
  obtain ⟨old, original, hash, rfl⟩ := mem_partitionFrom member
  cases built : file.candidates site with
  | error e => simp [built, Except.toOption] at original
  | ok candidates =>
      have listed : old ∈ candidates := by simpa [built, Except.toOption] using original
      obtain ⟨r, -, success⟩ := Relational.mem_of_mapM built listed
      obtain ⟨txn, made, rfl⟩ := map_ok.mp success
      obtain ⟨bookedOn, -, made⟩ := bind_ok.mp made
      obtain rfl := Except.ok.inj made
      exact ⟨rfl, rfl, rfl⟩

theorem rowFree_resolveAccount (id entityID : UUID) (st : Statement) :
    (resolveAccount id entityID st).Emits fun _ writes => RowFree writes :=
  resolveAccount_emits (by simp [RowFree]) (by simp [RowFree]) id entityID st

theorem rowFree_setImportBatchStatus (batchID : UUID) (status : BatchStatus)
    (failureCode : Option String) :
    (setImportBatchStatus batchID status failureCode).Emits fun _ writes => RowFree writes := by
  apply setImportBatchStatus_emits
  intro d rows _ w member
  obtain ⟨row, -, rfl⟩ := List.mem_map.mp member
  exact ⟨by simp, by simp⟩

/-- The rows whose hash is stored are skipped, and the others are stored as they are. -/
theorem persistRows_rows {site : Site} {draws : Draws} {file : File} {d after mid : Database}
    {mismatched : Bool}
    (resolved : (resolveAccount (draws.id Stream.accounts.number 0) file.batch.entityID
      file.statement).run Database.apply d = .ok ((file.accountID, mismatched), mid))
    (ran : (persistRows site draws file.batch file.statement).run Database.apply d =
      .ok ((), after)) :
    ∃ stored skipped, after.transactions = d.transactions ++ stored ∧
      after.dedupSkips = d.dedupSkips ++ skipped ∧
      List.Forall₂ (fun c row => ∃ id now, row = storedRow id now c.txn)
        ((file.rows site).filter (!isStored d ·)) stored ∧
      List.Forall₂ (SkippedAs file d) ((file.rows site).filter (isStored d)) skipped := by
  obtain ⟨answer, start, first, next⟩ := (Prog.run_bind_ok _).mp ran
  obtain ⟨rfl, rfl⟩ := Prod.mk.inj (Except.ok.inj (resolved.symm.trans first))
  obtain ⟨candidates, _, made, sorting⟩ := (Prog.run_bind_ok _).mp next
  obtain ⟨built, rfl⟩ := (Prog.run_ofExcept_ok _).mp made
  obtain ⟨sorted, _, looked, storing⟩ := (Prog.run_bind_ok _).mp sorting
  obtain ⟨_, recorded, skipsRan, inserting⟩ := (Prog.run_bind_ok _).mp storing
  obtain ⟨inserted, whole, insertRan, pairing⟩ := (Prog.run_bind_ok _).mp inserting
  have rows : file.rows site = partition site.sha256 candidates := by
    have own : file.candidates site = .ok candidates := built
    rw [File.rows, own]
    rfl
  have opened := run_rowFree (rowFree_resolveAccount _ _ _) resolved
  have same : isStored mid = isStored d := by
    funext c
    rw [isStored, isStored, opened.transactions]
  rw [← rows] at looked
  obtain ⟨rfl, toInsert, skips, listed, names⟩ := lookUps_ok looked
  rw [same] at toInsert names
  obtain ⟨transactions, skipped, dedupSkips, each⟩ := insertSkips_ok skipsRan
  rw [List.zipIdx_map_fst, listed, List.nil_append] at each
  have plain : ∀ item ∈ sorted.toInsert.zipIdx, item.1.fx = none := by
    intro item member
    have known_ : item.1 ∈ sorted.toInsert := List.fst_mem_of_mem_zipIdx member
    rw [toInsert, List.nil_append] at known_
    obtain ⟨c, inside, own⟩ := List.mem_map.mp known_
    rw [← own]
    exact (mem_rows (List.mem_filter.mp inside).1).1
  obtain ⟨skipsKept, stored, made⟩ := insert_ok plain insertRan
  rw [List.zipIdx_map_fst, toInsert, List.nil_append, List.forall₂_map_left_iff] at made
  have last : SameRows whole after := by
    refine run_rowFree ?_ pairing
    apply Prog.emits_bind
    · apply Prog.emits_forM
      rintro ⟨t, i⟩ -
      exact Prog.emits_bind (detectAndPair_emits (by simp [RowFree]) (by simp [RowFree]) _ _ _ _)
        fun _ => trivial
    refine fun _ => Prog.emits_bind (Prog.emits_ofExcept _) fun _ => ?_
    refine Prog.emits_bind (Prog.emits_ofExcept _) fun _ => ?_
    refine Prog.emits_bind (rowFree_setImportBatchStatus _ _ _) fun affected => ?_
    refine Prog.emits_bind (Prog.emits_ofExcept _) fun _ => ?_
    apply Prog.emits_exec
    intro d writes answer success
    obtain ⟨rfl, -⟩ := Prod.mk.inj (Except.ok.inj success)
    simp [RowFree]
  refine ⟨inserted, skipped, ?_, ?_, ?_, ?_⟩
  · rw [last.transactions, stored, transactions, opened.transactions]
  · rw [last.skips, skipsKept, dedupSkips, opened.skips]
  · refine made.imp ?_
    rintro c row ⟨id, rfl⟩
    exact ⟨id, _, rfl⟩
  · refine (forall₂_comp names each).imp ?_
    rintro c row ⟨s, ⟨found, stored, hash, rfl⟩, id, rfl⟩
    rw [opened.transactions] at stored
    exact ⟨rfl, rfl, found, stored, rfl, hash⟩

/-- The rows whose hash is stored are skipped, and the others are stored. -/
theorem persistRows_ok {site : Site} {draws : Draws} {file : File} {d after mid : Database}
    {mismatched : Bool}
    (resolved : (resolveAccount (draws.id Stream.accounts.number 0) file.batch.entityID
      file.statement).run Database.apply d = .ok ((file.accountID, mismatched), mid))
    (ran : (persistRows site draws file.batch file.statement).run Database.apply d =
      .ok ((), after)) :
    ∃ stored skipped, after.transactions = d.transactions ++ stored ∧
      after.dedupSkips = d.dedupSkips ++ skipped ∧
      List.Forall₂ (StoredAs file) ((file.rows site).filter (!isStored d ·)) stored ∧
      List.Forall₂ (SkippedAs file d) ((file.rows site).filter (isStored d)) skipped := by
  obtain ⟨stored, skipped, transactions, skips, made, skippedAs⟩ := persistRows_rows resolved ran
  have own : ∀ c ∈ (file.rows site).filter (!isStored d ·),
      c.txn.batchID = file.batch.id ∧ c.txn.lineNo = c.lineNo :=
    fun c member => (mem_rows (List.mem_filter.mp member).1).2
  refine ⟨stored, skipped, transactions, skips, ?_, skippedAs⟩
  refine ((List.forall₂_and_left _ _).mpr ⟨own, made⟩).imp ?_
  rintro c row ⟨⟨batch, line⟩, id, now, rfl⟩
  exact ⟨batch, line, storedKey_storedRow _ _ _, rfl⟩

/-! ## One import after another -/

/-- The job reads the file's statement; anything may fail, at any moment. -/
def answering (file : File) : Surroundings Failure Question Reply :=
  ⟨fun _ reply => reply = .statement (some file.statement), fun _ => True, True⟩

/-- The persist job of a validated batch, by itself, lands it as imported. -/
structure Import (site : Site) (file : File) (d after : Database) : Prop where
  found : getImportBatch d file.batch.id = .ok file.batch
  validated : file.batch.status = .validated
  landed : ∃ row, getImportBatch after file.batch.id = .ok row ∧ row.status = .imported
  ran : ∃ draws asked result mismatched mid,
    Solo (body site) (answering file) (persistImport site file.batch.id draws) d [] asked result after ∧
    (resolveAccount (draws.id Stream.accounts.number 0) file.batch.entityID
      file.statement).run Database.apply d = .ok ((file.accountID, mismatched), mid)

section Import

variable {site : Site} {draws : Draws} {batch : ImportBatchRow} {batchID : UUID} {st : Statement}
  {d after : Database} {asked : List Question} {result : Option Outcome}
  {around : Surroundings Failure Question Reply}

/-- The rows are as they were, and the batch is as it was or has failed. -/
def Refused (batchID : UUID) (d after : Database) : Prop :=
  SameRows d after ∧
    (after = d ∨ ∃ row, getImportBatch after batchID = .ok row ∧ row.status = .failed)

theorem refused_of_eq (same : after = d) : Refused batchID d after :=
  ⟨same ▸ ⟨rfl, rfl⟩, .inl same⟩

/-- The batch with the code it failed with. -/
def failedAs (code : String) (batch : ImportBatchRow) : ImportBatchRow :=
  { batch with status := .failed, failureCode := some code }

/-- What an attempt of the job leaves: what there was, the batch it was to import as failed, or the
rows of a statement it was answered. -/
inductive Persisted (site : Site) (draws : Draws) (answers : Question → Reply → Prop)
    (batchID : UUID) (d : Database) : Database → Prop
  | unchanged : Persisted site draws answers batchID d d
  | failed {batch : ImportBatchRow} {code : String} (validated : batch.status = .validated)
      (only : d.batches.filter (·.id = batchID) = [batch]) :
      Persisted site draws answers batchID d (d.apply (.updateBatch (failedAs code batch)))
  | stored {batch : ImportBatchRow} {st : Statement} {after : Database}
      (found : getImportBatch d batchID = .ok batch) (validated : batch.status = .validated)
      (given : answers (.object batch.id) (.statement (some st)))
      (ran : (persistRows site draws batch st).run Database.apply d = .ok ((), after)) :
      Persisted site draws answers batchID d after

theorem persisted_of_eq {answers : Question → Reply → Prop} (same : after = d) :
    Persisted site draws answers batchID d after := by
  subst same
  exact .unchanged

theorem solo_failImport {answers : Question → Reply → Prop} {code : String}
    (found : getImportBatch d batchID = .ok batch) (validated : batch.status = .validated)
    (run : Solo (body site) around (failImport batchID code) d [] asked result after) :
    Persisted site draws answers batchID d after := by
  cases solo_inTx run with
  | stopped _ nothing => exact persisted_of_eq nothing.2.2
  | failed _ rest => exact persisted_of_eq rest.of_done.1
  | @committed answer writes did holds rest =>
      obtain ⟨affected, middle, updated, checked⟩ :=
        (Prog.run_bind_ok _).mp (Prog.run_of_attempt did)
      obtain ⟨one, same⟩ := (Prog.run_ofExcept_ok _).mp checked
      obtain ⟨old, only, changed⟩ := run_update (fun _ _ _ => setImportBatchStatus_updates) updated one
      obtain rfl := rest.of_done.1
      obtain ⟨hit, own⟩ := getImportBatch_ok found
      have member : batch ∈ d.batches.filter (·.id = batchID) := by
        simp [List.mem_of_find?_eq_some hit, own]
      rw [only, List.mem_singleton] at member
      subst member
      rw [← same, changed]
      exact .failed validated only

theorem solo_persistBatch (found : getImportBatch d batchID = .ok batch)
    (run : Solo (body site) around (persistBatch site draws batch) d [] asked result after) :
    Persisted site draws around.answers batchID d after := by
  obtain ⟨-, rfl⟩ := getImportBatch_ok found
  unfold persistBatch at run
  split at run
  next => exact persisted_of_eq run.of_done.1
  next other =>
    have validated : batch.status = .validated := not_not.mp other
    cases run with
    | crash => exact .unchanged
    | unanswered _ rest => exact persisted_of_eq rest.of_done.1
    | @answer _ response _ _ _ _ _ _ given rest => cases response with
      | proposals response => exact persisted_of_eq rest.of_done.1
      | statement parsed => cases parsed with
        | none => exact solo_failImport found validated rest
        | some st =>
            cases solo_inTx rest with
            | stopped _ nothing => exact persisted_of_eq nothing.2.2
            | failed _ rest =>
                dsimp only at rest
                split at rest
                next => exact solo_failImport found validated rest
                next => exact persisted_of_eq rest.of_done.1
            | committed did holds rest =>
                obtain rfl := rest.of_done.1
                exact .stored found validated given (Prog.run_of_attempt did)

theorem persisted_of_solo
    (run : Solo (body site) around (persistImport site batchID draws) d [] asked result after) :
    Persisted site draws around.answers batchID d after := by
  cases solo_inTx run with
  | stopped _ nothing => exact persisted_of_eq nothing.2.2
  | failed _ rest =>
      split at rest
      next => exact persisted_of_eq rest.of_done.1
      next => exact persisted_of_eq rest.of_done.1
      next other => cases other
  | @committed batch writes did holds rest =>
      obtain ⟨read, same⟩ := (Prog.run_query_ok _).mp (Prog.run_of_attempt did)
      rw [← same] at rest
      exact solo_persistBatch read rest

/-- Whatever fails around it, an attempt of the job stores the rows of a statement it is answered,
or neither transactions nor skips. -/
theorem solo_persistImport
    (run : Solo (body site) around (persistImport site batchID draws) d [] asked result after) :
    Refused batchID d after ∨ ∃ batch st, getImportBatch d batchID = .ok batch ∧
      around.answers (.object batch.id) (.statement (some st)) ∧
        (persistRows site draws batch st).run Database.apply d = .ok ((), after) := by
  cases persisted_of_solo run with
  | unchanged => exact .inl (refused_of_eq rfl)
  | stored found _ given ran => exact .inr ⟨_, _, found, given, ran⟩
  | @failed old code validated only =>
      refine .inl ⟨⟨rfl, rfl⟩, .inr ⟨failedAs code old, ?_, rfl⟩⟩
      have member : old ∈ d.batches.filter (·.id = batchID) := by simp [only]
      obtain ⟨stored, own⟩ := List.mem_filter.mp member
      rw [getImportBatch, Database.apply]
      dsimp only
      rw [find_replaceBy]
      cases hit : d.batches.find? (·.id = batchID) with
      | none =>
          have absent := List.find?_eq_none.mp hit old stored
          exact absurd own absent
      | some other =>
          have named := List.find?_some hit
          simp only [decide_eq_true_eq] at named own
          have same : other.id = (failedAs code old).id := named.trans own.symm
          rw [Option.map_some, if_pos same]

theorem Import.persistRows {file : File} (imports : Import site file d after) :
    ∃ draws mismatched mid,
      (resolveAccount (draws.id Stream.accounts.number 0) file.batch.entityID
        file.statement).run Database.apply d = .ok ((file.accountID, mismatched), mid) ∧
      (persistRows site draws file.batch file.statement).run Database.apply d = .ok ((), after) := by
  obtain ⟨found, validated, ⟨row, stands, imported⟩, draws, asked, result, mismatched, mid, run,
    resolved⟩ := imports
  refine ⟨draws, mismatched, mid, resolved, ?_⟩
  rcases solo_persistImport run with ⟨-, rfl | ⟨other, stands', failed⟩⟩ | ⟨batch, st, read, given, ran⟩
  · obtain rfl := Except.ok.inj (found.symm.trans stands)
    rw [validated] at imported
    cases imported
  · obtain rfl := Except.ok.inj (stands.symm.trans stands')
    rw [imported] at failed
    cases failed
  · obtain rfl := Except.ok.inj (found.symm.trans read)
    have answer : Reply.statement (some st) = .statement (some file.statement) := given
    obtain rfl := Option.some.inj (Reply.statement.inj answer)
    exact ran

end Import

/-! ## Any sequence of imports -/

/-- The contents stored, each with its hash. -/
def contents (d : Database) : List (String × String) :=
  d.transactions.map fun t => (storedKey t, t.dedupHash)

def hashOf (site : Site) (key : String) (occurrence : Nat) : String :=
  site.sha256 (occurrenceKey key occurrence)

/-- Every stored transaction has a hash of its own content. -/
def Honest (site : Site) (d : Database) : Prop := Coded (hashOf site) (contents d)

theorem map_rows (site : Site) (file : File) :
    (file.rows site).map (fun c => (contentKey c.txn, c.txn.dedupHash)) =
      (number (fun _ => 0) (file.keys site)).map fun p => (p.1, hashOf site p.1 p.2) := by
  have numbered := map_partitionFrom site.sha256 (fun _ => 0) ((file.candidates site).toOption.getD [])
  have keys := congrArg (List.map Prod.fst) numbered
  rw [List.map_map, List.map_map] at keys
  have same : file.keys site =
      ((file.candidates site).toOption.getD []).map fun c => contentKey c.txn :=
    keys.trans (map_fst_number _ _)
  rw [same]
  exact numbered

/-- An import stores the contents whose hashes are not stored yet. -/
theorem Import.contents {site : Site} {file : File} {d after : Database}
    (imports : Import site file d after) :
    Ingest.contents after = Ingest.contents d ++
      absorbed (hashOf site) (Ingest.contents d) (file.keys site) := by
  obtain ⟨draws, mismatched, mid, resolved, ran⟩ := imports.persistRows
  obtain ⟨stored, skipped, transactions, -, each, -⟩ := persistRows_ok resolved ran
  have new : stored.map (fun t => (storedKey t, t.dedupHash)) =
      ((file.rows site).filter (!isStored d ·)).map fun c => (contentKey c.txn, c.txn.dedupHash) :=
    map_eq_of_forall₂ (each.imp fun c t same => Prod.ext same.2.2.1 same.2.2.2)
  have absent : ∀ c ∈ file.rows site, (!isStored d c) =
      decide (c.txn.dedupHash ∉ (Ingest.contents d).map Prod.snd) := by
    intro c _
    rw [Bool.eq_iff_iff, isStored, Ingest.contents, List.map_map]
    simp
  rw [Ingest.contents, transactions, List.map_append, new, absorbed, ← map_rows, List.filter_map,
    List.filter_congr absent]
  rfl

/-- Files imported one batch after another, whatever happens in between that stores neither a
transaction nor a skip. -/
inductive Imports (site : Site) : Database → List File → Database → Prop
  | nil {d : Database} : Imports site d [] d
  | aside {d mid last : Database} {files : List File} : SameRows d mid →
      Imports site mid files last → Imports site d files last
  | next {d mid last : Database} {file : File} {files : List File} : Import site file d mid →
      Imports site mid files last → Imports site d (file :: files) last

/-- A skip of a row, which names a stored transaction of its content. -/
def Repeats (file : File) (d : Database) (c : Candidate) (s : DedupSkipRow) : Prop :=
  s.batchID = file.batch.id ∧ s.lineNo = c.lineNo ∧
    ∃ t ∈ d.transactions, s.matchedTransactionID = some t.id ∧ storedKey t = contentKey c.txn

/-- Every row of the file is either stored once or skipped once. -/
def Accounted (site : Site) (last : Database) (file : File)
    (both : List TransactionRow × List DedupSkipRow) : Prop :=
  ∃ kept dropped, (file.rows site).Perm (kept ++ dropped) ∧
    List.Forall₂ (StoredAs file) kept both.1 ∧ List.Forall₂ (Repeats file last) dropped both.2

def numberOf (d : Database) (key : String) : Nat := d.transactions.countP (storedKey · = key)

section Imports

variable {site : Site} {file : File} {files : List File} {d after last : Database} {key : String}
  {held : Nat}

theorem SameRows.contents (same : SameRows d after) : Ingest.contents after = Ingest.contents d := by
  rw [Ingest.contents, same.transactions, Ingest.contents]

theorem Import.honest (imports : Import site file d after) (honest : Honest site d) :
    Honest site after := by
  rw [Honest, imports.contents]
  exact honest.absorbed _

theorem Imports.upto (collisionless : Collisionless site.sha256) (honest : Honest site d)
    (imports : Imports site d files last) (upto : Upto (hashOf site) (Ingest.contents d) key held) :
    Upto (hashOf site) (Ingest.contents last) key
      ((files.map fun f => (f.keys site).count key).foldl max held) := by
  induction imports generalizing held with
  | nil => exact upto
  | aside same _ ih =>
      apply ih
      · rwa [Honest, same.contents]
      · rwa [same.contents]
  | next one _ ih =>
      apply ih (one.honest honest)
      rw [one.contents]
      exact upto.absorbed (fun _ _ _ _ => collisionless _ _ _ _) honest

theorem numberOf_of_upto (upto : Upto (hashOf site) (Ingest.contents d) key held) :
    numberOf d key = held := by
  rw [← upto.length, Ingest.contents, List.countP_map, numberOf]
  apply List.countP_congr
  intro t _
  rw [Function.comp_apply]

theorem Imports.transactions (imports : Imports site d files last) :
    ∃ more, last.transactions = d.transactions ++ more := by
  induction imports with
  | nil => exact ⟨[], by simp⟩
  | aside same _ ih =>
      obtain ⟨more, made⟩ := ih
      exact ⟨more, made.trans (by rw [same.transactions])⟩
  | next one _ ih =>
      obtain ⟨more, made⟩ := ih
      obtain ⟨draws, mismatched, mid, resolved, ran⟩ := one.persistRows
      obtain ⟨stored, _, transactions, -⟩ := persistRows_ok resolved ran
      exact ⟨stored ++ more, by rw [made, transactions, List.append_assoc]⟩

theorem Import.accounted (collisionless : Collisionless site.sha256) (honest : Honest site d)
    (imports : Import site file d after) (later : ∃ more, last.transactions = after.transactions ++ more) :
    ∃ both, after.transactions = d.transactions ++ both.1 ∧
      after.dedupSkips = d.dedupSkips ++ both.2 ∧ Accounted site last file both := by
  obtain ⟨draws, mismatched, mid, resolved, ran⟩ := imports.persistRows
  obtain ⟨stored, skipped, transactions, skips, storedAs, skippedAs⟩ := persistRows_ok resolved ran
  refine ⟨⟨stored, skipped⟩, transactions, skips, (file.rows site).filter (!isStored d ·),
    (file.rows site).filter (isStored d), ?_, storedAs, ?_⟩
  · have both := (List.filter_append_perm (isStored d) (file.rows site)).symm
    exact both.trans List.perm_append_comm
  · have own : ∀ c ∈ (file.rows site).filter (isStored d),
        ∃ n, c.txn.dedupHash = hashOf site (contentKey c.txn) n := by
      intro c member
      have listed : (contentKey c.txn, c.txn.dedupHash) ∈
          (number (fun _ => 0) (file.keys site)).map fun p => (p.1, hashOf site p.1 p.2) := by
        rw [← map_rows]
        exact List.mem_map_of_mem (List.mem_filter.mp member).1
      obtain ⟨p, -, same⟩ := List.mem_map.mp listed
      obtain ⟨key, hash⟩ := Prod.mk.inj same
      exact ⟨p.2, by rw [← hash, key]⟩
    obtain ⟨more, kept⟩ := later
    refine ((List.forall₂_and_left _ _).mpr ⟨own, skippedAs⟩).imp ?_
    rintro c s ⟨⟨n, hash⟩, batch, line, t, stored, named, same⟩
    obtain ⟨m, honestHash⟩ := honest (storedKey t, t.dedupHash) (List.mem_map_of_mem stored)
    have equal := collisionless _ _ _ _ ((honestHash.symm.trans same).trans hash)
    refine ⟨batch, line, t, ?_, named, equal.1⟩
    rw [kept, transactions, List.append_assoc]
    exact List.mem_append_left _ stored

theorem Imports.accounted (collisionless : Collisionless site.sha256) (honest : Honest site d)
    (imports : Imports site d files last) :
    ∃ landed, last.transactions = d.transactions ++ landed.flatMap Prod.fst ∧
      last.dedupSkips = d.dedupSkips ++ landed.flatMap Prod.snd ∧
      List.Forall₂ (Accounted site last) files landed := by
  induction imports with
  | nil => exact ⟨[], by simp, by simp, .nil⟩
  | aside same _ ih =>
      obtain ⟨landed, transactions, skips, each⟩ := ih (by rwa [Honest, same.contents])
      refine ⟨landed, ?_, ?_, each⟩
      · rw [transactions, same.transactions]
      · rw [skips, same.skips]
  | next one rest ih =>
      obtain ⟨landed, transactions, skips, each⟩ := ih (one.honest honest)
      obtain ⟨both, stored, skipped, accounted⟩ := one.accounted collisionless honest rest.transactions
      refine ⟨both :: landed, ?_, ?_, .cons accounted each⟩
      · rw [transactions, stored, List.flatMap_cons, List.append_assoc]
      · rw [skips, skipped, List.flatMap_cons, List.append_assoc]

end Imports

/-- Of each content there are as many transactions as the batch with the most rows of it has, in
whatever order the batches come. -/
theorem imports_keep_the_maximum {site : Site} {d last : Database} {files : List File}
    (collisionless : Collisionless site.sha256) (honest : Honest site d)
    (imports : Imports site d files last) :
    (∃ landed, last.transactions = d.transactions ++ landed.flatMap Prod.fst ∧
      last.dedupSkips = d.dedupSkips ++ landed.flatMap Prod.snd ∧
      List.Forall₂ (Accounted site last) files landed) ∧
    ∀ key, (∀ t ∈ d.transactions, storedKey t ≠ key) →
      numberOf last key = (files.map fun file => (file.keys site).count key).foldl max 0 ∧
      ∀ files' last', files'.Perm files → Imports site d files' last' →
        numberOf last' key = numberOf last key := by
  refine ⟨imports.accounted collisionless honest, fun key fresh => ?_⟩
  have empty : Upto (hashOf site) (contents d) key 0 := by
    apply upto_zero
    intro p member
    obtain ⟨t, stored, rfl⟩ := List.mem_map.mp member
    exact fresh t stored
  have most : ∀ files last, Imports site d files last →
      numberOf last key = (files.map fun file => (file.keys site).count key).foldl max 0 :=
    fun files last imports => numberOf_of_upto (imports.upto collisionless honest empty)
  refine ⟨most files last imports, fun files' last' reordered imports' => ?_⟩
  rw [most files last imports, most files' last' imports']
  exact (reordered.map _).foldl_eq 0

/-! ## Two files that overlap -/

/-- Two validated batches of an account on file. -/
def twoBatches : Database :=
  { Database.empty "BYN" with
    accounts := [⟨1, 1, "main", "BYN", some "BY01"⟩]
    batches := [⟨1, 1, .bank, .validated, some "first", none⟩,
      ⟨2, 1, .bank, .validated, some "second", none⟩] }

/-- The same payment on two lines. -/
def twice : File :=
  ⟨⟨1, 1, .bank, .validated, some "first", none⟩,
    ⟨"BY01", "BYN", "", [sampleRow 5 120000, sampleRow 6 120000]⟩, 1⟩

def once : File :=
  ⟨⟨2, 1, .bank, .validated, some "second", none⟩,
    ⟨"BY01", "BYN", "", [sampleRow 5 120000]⟩, 1⟩

/-- The job as far as nothing fails. -/
theorem import_of_attempt {site : Site} {draws : Draws} {file : File} {d : Database}
    {writes : List Write}
    (found : getImportBatch d file.batch.id = .ok file.batch) (validated : file.batch.status = .validated)
    (resolved : ∃ mismatched mid, (resolveAccount (draws.id Stream.accounts.number 0)
      file.batch.entityID file.statement).run Database.apply d = .ok ((file.accountID, mismatched), mid))
    (did : (persistRows site draws file.batch file.statement).attempt d [] = .ok ((), writes))
    (unfired : writes.filterMap Write.oneLiveFires = [])
    (landed : (getImportBatch (visible d writes) file.batch.id).toOption.map (·.status) =
      some .imported) : Import site file d (visible d writes) where
  found := found
  validated := validated
  landed := by
    obtain ⟨row, hit, status⟩ := Option.map_eq_some_iff.mp landed
    cases stored : getImportBatch (visible d writes) file.batch.id with
    | error e => simp [stored, Except.toOption] at hit
    | ok other =>
        rw [stored] at hit
        obtain rfl := Option.some.inj hit
        exact ⟨other, rfl, status⟩
  ran := by
    obtain ⟨mismatched, mid, account⟩ := resolved
    refine ⟨draws, [.object file.batch.id], some (.ok .done), mismatched, mid, ?_, account⟩
    have check : Store.check (visible d writes) writes = .ok () := by
      show oneLivePerTransaction _ writes = .ok ()
      rw [oneLivePerTransaction, unfired]
      rfl
    have read : (Prog.query (getImportBatch · file.batch.id) : Tx ImportBatchRow).attempt d [] =
        .ok (file.batch, []) := by
      rw [Prog.attempt_query, visible_nil, found]
      rfl
    apply solo_inTx_of_ok read rfl
    show Solo _ _ (persistBatch site draws file.batch) _ _ _ _ _
    rw [persistBatch, if_neg (not_not.mpr validated)]
    exact .answer rfl (solo_inTx_of_ok did check .done)

/-- The batch's rows are stored and nothing is left to check at the commit. -/
def lands (file : File) (d : Database) (draws : Draws) (writes : List Write) : Bool :=
  decide (writes.filterMap Write.oneLiveFires = []) &&
    decide ((getImportBatch (visible d writes) file.batch.id).toOption.map (·.status) =
      some .imported) &&
    decide (getImportBatch d file.batch.id = .ok file.batch) &&
    decide (((resolveAccount (draws.id Stream.accounts.number 0) file.batch.entityID
      file.statement).run Database.apply d).toOption.map (·.1.1) = some file.accountID)

theorem import_of_lands {file : File} {d : Database} {draws : Draws} {answer : Unit × List Write}
    (validated : file.batch.status = .validated)
    (did : ((persistRows sampleSite draws file.batch file.statement).attempt d []).toOption =
      some answer) (fits : lands file d draws answer.2 = true) :
    Import sampleSite file d (visible d answer.2) := by
  rw [lands, Bool.and_eq_true, Bool.and_eq_true, Bool.and_eq_true, decide_eq_true_iff,
    decide_eq_true_iff, decide_eq_true_iff, decide_eq_true_iff] at fits
  obtain ⟨⟨⟨unfired, landed⟩, found⟩, account⟩ := fits
  refine import_of_attempt found validated ?_ (Prog.attempt_of_toOption did) unfired landed
  obtain ⟨⟨⟨accountID, mismatched⟩, mid⟩, ran, own⟩ := Option.map_eq_some_iff.mp account
  refine ⟨mismatched, mid, ?_⟩
  cases made : (resolveAccount (draws.id Stream.accounts.number 0) file.batch.entityID
      file.statement).run Database.apply d with
  | error e => simp [made, Except.toOption] at ran
  | ok resolved =>
      rw [made] at ran
      rw [Option.some.inj ran, ← own]

theorem imports_keep_the_maximum_sample :
    ∃ last, Imports sampleSite twoBatches [twice, once] last ∧
      ∀ key ∈ twice.keys sampleSite, numberOf last key = 2 := by
  have evaluated : (((persistRows sampleSite (sampleDraws 100) twice.batch twice.statement).attempt
      twoBatches []).toOption.bind fun first =>
        ((persistRows sampleSite (sampleDraws 200) once.batch once.statement).attempt
          (visible twoBatches first.2) []).toOption.map fun second =>
            lands twice twoBatches (sampleDraws 100) first.2 &&
              lands once (visible twoBatches first.2) (sampleDraws 200) second.2) = some true := by
    decide +kernel
  obtain ⟨first, did, rest⟩ := Option.bind_eq_some_iff.mp evaluated
  obtain ⟨second, did', both⟩ := Option.map_eq_some_iff.mp rest
  obtain ⟨fits, fits'⟩ := Bool.and_eq_true_iff.mp both
  have imports : Imports sampleSite twoBatches [twice, once] _ :=
    .next (import_of_lands rfl did fits) (.next (import_of_lands rfl did' fits') .nil)
  have empty : twoBatches.transactions = [] := rfl
  have honest : Honest sampleSite twoBatches := by
    intro p member
    rw [contents, empty] at member
    cases member
  have most : ∀ key ∈ twice.keys sampleSite,
      ([twice, once].map fun file => (file.keys sampleSite).count key).foldl max 0 = 2 := by
    decide +kernel
  refine ⟨_, imports, fun key member => ?_⟩
  have fresh : ∀ t ∈ twoBatches.transactions, storedKey t ≠ key := by simp [empty]
  exact ((imports_keep_the_maximum collisionless_id honest imports).2 key fresh).1.trans
    (most key member)

end Vekst.Ingest
