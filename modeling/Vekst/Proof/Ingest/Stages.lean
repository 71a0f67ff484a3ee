import Vekst.Isolation.Alone
import Vekst.Proof.Ingest.Confirm

namespace Vekst.Ingest
open Isolation Ledger

variable {batchID : UUID}

/-! ## What a job's last transaction leaves -/

theorem pipelineLens : Prog.Lens Pipeline.ledger (fun p d => { p with ledger := d })
    Change.ledger Database.apply Pipeline.apply where
  view_put _ _ := rfl
  put_view _ := rfl
  put_put _ _ _ := rfl
  applied _ _ := rfl

theorem run_onLedger {α : Type} {p : Tx α} {before after : Pipeline} {answer : α}
    (ran : (onLedger p).run Pipeline.apply before = .ok (answer, after)) :
    ∃ d, p.run Database.apply before.ledger = .ok (answer, d) ∧ after = { before with ledger := d } := by
  rw [onLedger, Prog.run_lift pipelineLens] at ran
  obtain ⟨⟨_, d⟩, found, same⟩ := map_ok.mp ran
  obtain ⟨rfl, rfl⟩ := Prod.mk.inj same
  exact ⟨d, found, rfl⟩

/-- One row updated: the batch's only one. -/
theorem run_update {f : Database → Except Failure (List Write × Nat)}
    {update : ImportBatchRow → ImportBatchRow} {d after : Database} {affected : Nat}
    (updates : ∀ d writes n, f d = .ok (writes, n) →
      writes = ((d.batches.filter (·.id = batchID)).map update).map .updateBatch ∧
        n = (d.batches.filter (·.id = batchID)).length)
    (ran : (Prog.exec f).run Database.apply d = .ok (affected, after))
    (one : exactlyOneRow affected = .ok ()) :
    ∃ old, d.batches.filter (·.id = batchID) = [old] ∧ after = d.apply (.updateBatch (update old)) := by
  obtain ⟨writes, made, rfl⟩ := (Prog.run_exec_ok _).mp ran
  obtain ⟨rfl, rfl⟩ := updates _ _ _ made
  have length : (d.batches.filter (·.id = batchID)).length = 1 := by
    by_contra other
    rw [exactlyOneRow, if_neg other] at one
    cases one
  obtain ⟨old, only⟩ := List.length_eq_one_iff.mp length
  refine ⟨old, only, ?_⟩
  rw [only]
  rfl

theorem setImportBatchStatus_updates {status : BatchStatus} {failureCode : Option String}
    {d : Database} {writes : List Write} {n : Nat}
    (made : (do
      let rows := (d.batches.filter (·.id = batchID)).map fun batch =>
        { batch with status, failureCode }
      rows.forM (checkBatch d)
      return (rows.map .updateBatch, rows.length)) = Except.ok (writes, n)) :
    writes = ((d.batches.filter (·.id = batchID)).map fun batch =>
        { batch with status, failureCode }).map Write.updateBatch ∧
      n = (d.batches.filter (·.id = batchID)).length := by
  obtain ⟨_, -, made⟩ := bind_ok.mp made
  obtain ⟨rfl, rfl⟩ := Prod.mk.inj (Except.ok.inj made)
  exact ⟨rfl, List.length_map _⟩

theorem only_mem {p : Pipeline} {old : ImportBatchRow}
    (only : p.ledger.batches.filter (·.id = batchID) = [old]) :
    old ∈ p.ledger.batches ∧ old.id = batchID ∧
      ∀ row ∈ p.ledger.batches, row.id = batchID → row = old := by
  have member : old ∈ p.ledger.batches.filter (·.id = batchID) := by simp [only]
  obtain ⟨stored, own⟩ := List.mem_filter.mp member
  refine ⟨stored, of_decide_eq_true own, fun row known same => ?_⟩
  have other : row ∈ p.ledger.batches.filter (·.id = batchID) :=
    List.mem_filter.mpr ⟨known, decide_eq_true same⟩
  rw [only] at other
  exact List.mem_singleton.mp other

/-- The status once the only row is given a new version. -/
theorem statusOf_updated {p : Pipeline} {old row : ImportBatchRow}
    (only : p.ledger.batches.filter (·.id = batchID) = [old]) (own : row.id = batchID) :
    (p.apply (.ledger (.updateBatch row))).statusOf batchID = some row.status := by
  obtain ⟨stored, same, -⟩ := only_mem only
  unfold Pipeline.statusOf
  simp only [Pipeline.apply, Database.apply, find_replaceBy]
  cases found : p.ledger.batches.find? (·.id = batchID) with
  | none =>
      have absent := List.find?_eq_none.mp found old stored
      simp [same] at absent
  | some other =>
      have named : other.id = batchID := by simpa using List.find?_some found
      simp [named, own]

theorem recordUploadMeasurement_updates {content : Content} {d : Database} {writes : List Write}
    {n : Nat}
    (made : (do
      let rows := (d.batches.filter (·.id = batchID)).map fun batch =>
        { batch with fileSHA256 := some content.sha256, status := .uploaded }
      rows.forM fun row => do
        require (0 < content.length) "import_batches_byte_length_check"
        checkBatch d row
      return (rows.map .updateBatch, rows.length)) = Except.ok (writes, n)) :
    writes = ((d.batches.filter (·.id = batchID)).map fun batch =>
        { batch with fileSHA256 := some content.sha256, status := .uploaded }).map Write.updateBatch ∧
      n = (d.batches.filter (·.id = batchID)).length := by
  obtain ⟨_, -, made⟩ := bind_ok.mp made
  obtain ⟨rfl, rfl⟩ := Prod.mk.inj (Except.ok.inj made)
  exact ⟨rfl, List.length_map _⟩

theorem run_enqueue {task : Task} {owner : UUID} {before after : Pipeline} {answer : Unit}
    (ran : (enqueue task owner).run Pipeline.apply before = .ok (answer, after)) :
    after = before.apply (.enqueue ⟨task, owner⟩) := by
  obtain ⟨changes, made, rfl⟩ := (Prog.run_exec_ok _).mp ran
  obtain ⟨rfl, -⟩ := Prod.mk.inj (Except.ok.inj made)
  rfl

/-! ## Where a batch stands -/

/-- How far a status is along the jobs' way: the last is any that no job takes further. -/
def rank : Option BatchStatus → Nat
  | some .awaitingUpload => 0
  | some .uploaded => 1
  | some .validated => 2
  | _ => 3

/-- The status a job works from. -/
def Task.due : Task → BatchStatus
  | .measureUpload => .awaitingUpload
  | .validateImport => .uploaded
  | .persistImport => .validated

/-- The job a status leaves in the queue. -/
def following (batchID : UUID) : Option BatchStatus → List QueuedJob
  | some .uploaded => [⟨.validateImport, batchID⟩]
  | some .validated => [⟨.persistImport, batchID⟩]
  | _ => []

/-- The object has been measured, and no other batch had it imported. -/
def Measured (batchID : UUID) (uploadMaxBytes : Nat) (object : Option UploadedObject)
    (p : Pipeline) : Prop :=
  ∃ o, object = some o ∧ ¬ uploadMaxBytes < o.content.length ∧
    findImportedBatchAlreadyHoldingThisFile p.ledger o.content.sha256 = none ∧
    ∀ row ∈ p.ledger.batches, row.id = batchID →
      row.fileSHA256 = some o.content.sha256 ∧ row.status = .uploaded

/-- The queue holds the jobs the status calls for and none it does not come to. -/
structure Settled (batchID : UUID) (uploadMaxBytes : Nat) (object : Option UploadedObject)
    (p : Pipeline) : Prop where
  validates : ⟨.validateImport, batchID⟩ ∈ p.queue → 1 ≤ rank (p.statusOf batchID)
  persists : ⟨.persistImport, batchID⟩ ∈ p.queue → 2 ≤ rank (p.statusOf batchID)
  validateDue : p.statusOf batchID = some .uploaded → ⟨.validateImport, batchID⟩ ∈ p.queue
  persistDue : p.statusOf batchID = some .validated → ⟨.persistImport, batchID⟩ ∈ p.queue
  measured : p.statusOf batchID = some .uploaded → Measured batchID uploadMaxBytes object p

variable {uploadMaxBytes : Nat} {object : Option UploadedObject}

/-- What a job leaves that takes the batch further. -/
structure Advanced (batchID : UUID) (uploadMaxBytes : Nat) (object : Option UploadedObject)
    (task : Task) (p after : Pipeline) : Prop where
  worked : p.statusOf batchID = some task.due
  further : rank (some task.due) < rank (after.statusOf batchID)
  queue : after.queue = p.queue ++ following batchID (after.statusOf batchID)
  measured : after.statusOf batchID = some .uploaded →
    Measured batchID uploadMaxBytes object after
  stored : after.statusOf batchID = some .imported ∨ after.ledger.transactions = p.ledger.transactions

theorem Advanced.settled {task : Task} {p after : Pipeline}
    (advanced : Advanced batchID uploadMaxBytes object task p after)
    (settled : Settled batchID uploadMaxBytes object p) :
    Settled batchID uploadMaxBytes object after := by
  obtain ⟨worked, further, queue, measured, -⟩ := advanced
  have before : rank (p.statusOf batchID) < rank (after.statusOf batchID) := worked ▸ further
  refine ⟨fun _ => Nat.succ_le_of_lt (Nat.zero_lt_of_lt further), fun member => ?_, ?_, ?_, measured⟩
  · rw [queue] at member
    rcases List.mem_append.mp member with old | new
    · exact Nat.le_trans (settled.persists old) (Nat.le_of_lt before)
    · revert new
      cases after.statusOf batchID with
      | none => simp [following]
      | some status => cases status <;> simp [following, rank]
  · intro now
    rw [queue, now]
    simp [following]
  · intro now
    rw [queue, now]
    simp [following]

/-! ## What an attempt comes to by itself -/

theorem advanced_of {task : Task} {p after : Pipeline} {status : BatchStatus}
    (due : p.statusOf batchID = some task.due) (now : after.statusOf batchID = some status)
    (further : rank (some task.due) < rank (some status))
    (queue : after.queue = p.queue ++ following batchID (some status))
    (measured : status = .uploaded → Measured batchID uploadMaxBytes object after)
    (stored : status = .imported ∨ after.ledger.transactions = p.ledger.transactions) :
    Advanced batchID uploadMaxBytes object task p after where
  worked := due
  further := now ▸ further
  queue := now ▸ queue
  measured uploaded := measured (Option.some.inj (now.symm.trans uploaded))
  stored := stored.imp_left fun imported => now.trans (congrArg some imported)

/-- An attempt leaves what the jobs read, and succeeds only where nothing was due of its task; or
it succeeds and takes the batch further. -/
def Stage (batchID : UUID) (uploadMaxBytes : Nat) (object : Option UploadedObject) (task : Task)
    (p : Pipeline) (outcome : Except Failure Unit) (after : Pipeline) : Prop :=
  (after.core batchID = p.core batchID ∧
    (outcome = .ok () → p.statusOf batchID ≠ some task.due)) ∨
  outcome = .ok () ∧ Advanced batchID uploadMaxBytes object task p after

theorem stage_error {task : Task} {p : Pipeline} {e : Failure} :
    Stage batchID uploadMaxBytes object task p (.error e) p := .inl ⟨rfl, nofun⟩

theorem stage_finish {answers : StoreQuestion → StoreReply → Prop} {task : Task} {p after : Pipeline}
    {outcome : Except Failure Unit} (idle : p.statusOf batchID ≠ some task.due)
    (alone : finish.Alone answers p [] outcome after) :
    Stage batchID uploadMaxBytes object task p outcome after := by
  obtain ⟨rfl, rfl⟩ := alone
  exact .inl ⟨rfl, fun _ => idle⟩

/-- The last transaction of an attempt: it fails and changes nothing, or its body is what was done. -/
theorem stage_last {answers : StoreQuestion → StoreReply → Prop} {task : Task} {p after : Pipeline}
    {outcome : Except Failure Unit} {body : PipelineTx Unit}
    (does : ∀ q, body.run Pipeline.apply p = .ok ((), q) →
      Stage batchID uploadMaxBytes object task p (.ok ()) q)
    (alone : (inTx .done body : Attempt).Alone answers p [] outcome after) :
    Stage batchID uploadMaxBytes object task p outcome after := by
  rcases alone_inTx alone with ⟨_, q, ran, rfl, rfl⟩ | ⟨e, rfl, rfl⟩
  · exact does _ ran
  · exact stage_error

theorem advanced_failed {task : Task} {p : Pipeline} {old : ImportBatchRow}
    {failureCode : Option String} (due : p.statusOf batchID = some task.due)
    (only : p.ledger.batches.filter (·.id = batchID) = [old]) :
    Advanced batchID uploadMaxBytes object task p
      (p.apply (.ledger (.updateBatch { old with status := .failed, failureCode }))) := by
  obtain ⟨-, own, -⟩ := only_mem only
  have further : rank (some task.due) < rank (some .failed) := by cases task <;> decide
  exact advanced_of due (statusOf_updated only own) further (List.append_nil _).symm nofun (.inr rfl)

theorem stage_fail {answers : StoreQuestion → StoreReply → Prop} {task : Task} {p after : Pipeline}
    {outcome : Except Failure Unit} {code : String} (due : p.statusOf batchID = some task.due)
    (alone : (fail batchID code).Alone answers p [] outcome after) :
    Stage batchID uploadMaxBytes object task p outcome after := by
  refine stage_last (fun q ran => ?_) alone
  obtain ⟨affected, middle, updated, checked⟩ := (Prog.run_bind_ok _).mp ran
  obtain ⟨one, rfl⟩ := (Prog.run_ofExcept_ok _).mp checked
  obtain ⟨d, inner, rfl⟩ := run_onLedger updated
  obtain ⟨old, only, rfl⟩ := run_update (fun _ _ _ => setImportBatchStatus_updates) inner one
  exact .inr ⟨rfl, advanced_failed due only⟩

theorem alone_ledgerQuery {α β : Type} {answers : StoreQuestion → StoreReply → Prop}
    {next : Except Failure α → Isolation.Job Pipeline Change Failure StoreQuestion StoreReply Entry β}
    {f : Database → Except Failure α} {p after : Pipeline} {outcome : β} :
    (inTx next (onLedger (Prog.query f))).Alone answers p [] outcome after ↔
      (next (f p.ledger)).Alone answers p [] outcome after := by
  rw [onLedger, Prog.lift_query]
  exact alone_query rfl

/-- The batch an attempt reads is absent, or of its status. -/
theorem alone_getImportBatch {answers : StoreQuestion → StoreReply → Prop}
    {next : Except Failure ImportBatchRow → Attempt} {p after : Pipeline}
    {outcome : Except Failure Unit}
    (alone : (inTx next (onLedger (Prog.query (getImportBatch · batchID)))).Alone answers p []
      outcome after) :
    (p.statusOf batchID = none ∧ (next (.error .noRows)).Alone answers p [] outcome after) ∨
      ∃ batch, batch.id = batchID ∧ p.statusOf batchID = some batch.status ∧
        (next (.ok batch)).Alone answers p [] outcome after := by
  have read := alone_ledgerQuery.mp alone
  cases found : getImportBatch p.ledger batchID with
  | ok batch =>
      rw [found] at read
      exact .inr ⟨batch, (getImportBatch_ok found).2, statusOf_getImportBatch found, read⟩
  | error e =>
      rw [found] at read
      unfold getImportBatch at found
      split at found
      next => cases found
      next absent =>
        obtain rfl := Except.error.inj found
        refine .inl ⟨?_, read⟩
        rw [Pipeline.statusOf, absent]
        rfl

/-! ## Measuring -/

theorem findImportedBatch_eq_none {d : Database} {sha256 : String} :
    findImportedBatchAlreadyHoldingThisFile d sha256 = none ↔
      ∀ row ∈ d.batches, row.fileSHA256 = some sha256 → row.status ≠ .imported := by
  rw [findImportedBatchAlreadyHoldingThisFile, Option.map_eq_none_iff, List.find?_eq_none]
  simp

/-- A batch given again the row it has. -/
theorem update_self {p : Pipeline} {old : ImportBatchRow}
    (only : p.ledger.batches.filter (·.id = batchID) = [old]) :
    p.apply (.ledger (.updateBatch old)) = p := by
  obtain ⟨-, own, unique⟩ := only_mem only
  have same : replaceBy (·.id) old p.ledger.batches = p.ledger.batches :=
    replaceBy_eq_self fun row member named => unique row member (named.trans own)
  simp only [Pipeline.apply, Database.apply, same]

/-- Where a measurement has something to do: at the start, or again before validation. -/
def Measurable (batchID : UUID) (uploadMaxBytes : Nat) (object : Option UploadedObject)
    (p : Pipeline) : Prop :=
  p.statusOf batchID = some .awaitingUpload ∨
    p.statusOf batchID = some .uploaded ∧ Measured batchID uploadMaxBytes object p ∧
      ⟨.validateImport, batchID⟩ ∈ p.queue

theorem stage_recordMeasurement {answers : StoreQuestion → StoreReply → Prop} {p after : Pipeline}
    {outcome : Except Failure Unit} {o : UploadedObject}
    (place : Measurable batchID uploadMaxBytes (some o) p)
    (small : ¬ uploadMaxBytes < o.content.length)
    (unheld : findImportedBatchAlreadyHoldingThisFile p.ledger o.content.sha256 = none)
    (alone : (inTx .done (recordMeasurement batchID o.content) : Attempt).Alone answers p []
      outcome after) :
    Stage batchID uploadMaxBytes (some o) .measureUpload p outcome after := by
  refine stage_last (fun q ran => ?_) alone
  obtain ⟨affected, middle, updated, ran⟩ := (Prog.run_bind_ok _).mp ran
  obtain ⟨_, _, checked, queued⟩ := (Prog.run_bind_ok _).mp ran
  obtain ⟨one, rfl⟩ := (Prog.run_ofExcept_ok _).mp checked
  obtain ⟨d, inner, rfl⟩ := run_onLedger updated
  obtain ⟨old, only, rfl⟩ := run_update (fun _ _ _ => recordUploadMeasurement_updates) inner one
  obtain rfl := run_enqueue queued
  obtain ⟨stored, own, unique⟩ := only_mem only
  rcases place with awaiting | ⟨uploaded, ⟨_, same, -, -, rows⟩, queued⟩
  · refine .inr ⟨rfl, advanced_of awaiting (statusOf_updated only own) Nat.zero_lt_one rfl ?_ (.inr rfl)⟩
    refine fun _ => ⟨o, rfl, small, ?_, fun row member named => ?_⟩
    · rw [findImportedBatch_eq_none] at unheld ⊢
      intro row member held
      rcases mem_replaceBy_cases member with rfl | ⟨known, -⟩
      · simp
      · exact unheld row known held
    · rcases mem_replaceBy_cases member with rfl | ⟨-, other⟩
      · exact ⟨rfl, rfl⟩
      · exact absurd (named.trans own.symm) other
  · -- The row is written as it is, and its validation is queued already.
    obtain rfl := Option.some.inj same
    obtain ⟨digest, status⟩ := rows old stored own
    have whole : { old with fileSHA256 := some o.content.sha256, status := .uploaded } = old := by
      rw [← digest, ← status]
    refine .inl ⟨?_, fun _ => by simp [uploaded, Task.due]⟩
    rw [whole]
    change ((p.apply (.ledger (.updateBatch old))).apply (.enqueue _)).core batchID = _
    rw [update_self only]
    simp [Pipeline.core, Pipeline.apply, queued]

theorem stage_measureContent {p after : Pipeline} {outcome : Except Failure Unit}
    {o : UploadedObject} (place : Measurable batchID uploadMaxBytes (some o) p)
    (alone : (measureContent uploadMaxBytes batchID o.content).Alone
      (StoreAnswers uploadMaxBytes (some o)) p [] outcome after) :
    Stage batchID uploadMaxBytes (some o) .measureUpload p outcome after := by
  unfold measureContent at alone
  split at alone
  next large =>
    have awaiting : p.statusOf batchID = some .awaitingUpload := by
      rcases place with awaiting | ⟨-, ⟨_, same, small, -⟩, -⟩
      · exact awaiting
      · exact absurd (Option.some.inj same ▸ large) small
    obtain ⟨response, answered, alone⟩ := alone
    cases response with
    | deleted => exact stage_fail awaiting alone
    | _ => exact answered.elim
  next small =>
    have read := alone_ledgerQuery.mp alone
    cases holder : findImportedBatchAlreadyHoldingThisFile p.ledger o.content.sha256 with
    | none =>
        rw [holder] at read
        exact stage_recordMeasurement place small holder read
    | some other =>
        rw [holder] at read
        rcases place with awaiting | ⟨-, ⟨_, same, -, unheld, -⟩, -⟩
        · exact stage_fail awaiting read
        · rw [← Option.some.inj same, holder] at unheld
          cases unheld

theorem stage_measureUpload {p after : Pipeline} {outcome : Except Failure Unit}
    (settled : Settled batchID uploadMaxBytes object p)
    (alone : (measureUpload uploadMaxBytes batchID).Alone (StoreAnswers uploadMaxBytes object)
      p [] outcome after) :
    Stage batchID uploadMaxBytes object .measureUpload p outcome after := by
  rcases alone_getImportBatch alone with ⟨absent, alone⟩ | ⟨batch, -, status, alone⟩
  · exact stage_finish (by simp [absent]) alone
  have work : (measureBatch uploadMaxBytes batchID batch).Alone
    (StoreAnswers uploadMaxBytes object) p [] outcome after := alone
  unfold measureBatch at work
  split at work
  next past =>
    refine stage_finish ?_ work
    rw [status]
    exact fun same => past.1 (Option.some.inj same)
  next early =>
    have place : Measurable batchID uploadMaxBytes object p := by
      by_cases awaiting : batch.status = .awaitingUpload
      · exact .inl (awaiting ▸ status)
      · have uploaded : batch.status = .uploaded := by
          by_contra other
          exact early ⟨awaiting, other⟩
        have now : p.statusOf batchID = some .uploaded := uploaded ▸ status
        exact .inr ⟨now, settled.measured now, settled.validateDue now⟩
    -- Only at the start may the object be missing.
    have missing (gone : object = none ∨ TooLarge uploadMaxBytes object)
        (alone : (fail batchID failureUploadMissing).Alone (StoreAnswers uploadMaxBytes object)
          p [] outcome after) :
        Stage batchID uploadMaxBytes object .measureUpload p outcome after := by
      rcases place with awaiting | ⟨-, ⟨o, rfl, small, -⟩, -⟩
      · exact stage_fail awaiting alone
      · rcases gone with none_ | ⟨_, same, large⟩
        · cases none_
        · exact absurd (Option.some.inj same ▸ large) small
    obtain ⟨response, answered, work⟩ := work
    cases response with
    | present found =>
        cases found with
        | false =>
            refine missing ?_ work
            rcases answered with there | ⟨large, -⟩
            · exact .inl (Option.isSome_eq_false_iff.mp there.symm |> Option.isNone_iff_eq_none.mp)
            · exact .inr large
        | true =>
            obtain ⟨response, answered, work⟩ := work
            cases response with
            | content found =>
                cases found with
                | none =>
                    refine missing ?_ work
                    rcases answered with there | ⟨large, -⟩
                    · exact .inl (Option.map_eq_none_iff.mp there.symm)
                    · exact .inr large
                | some content =>
                    rcases answered with there | ⟨-, ⟨⟩⟩
                    obtain ⟨o, rfl, rfl⟩ := Option.map_eq_some_iff.mp there.symm
                    exact stage_measureContent place work
            | _ => exact answered.elim
    | _ => exact answered.elim

/-! ## Validating -/

theorem queue_foldl {changes : List Change} (quiet : ∀ change ∈ changes, ∀ job, change ≠ .enqueue job)
    (p : Pipeline) : (changes.foldl Pipeline.apply p).queue = p.queue := by
  induction changes generalizing p with
  | nil => rfl
  | cons change changes ih =>
      rw [List.foldl_cons, ih fun other member => quiet other (List.mem_cons_of_mem _ member)]
      cases change with
      | enqueue job => exact absurd rfl (quiet _ (List.mem_cons_self ..) job)
      | _ => rfl

theorem ledger_foldl {changes : List Change} (quiet : ∀ change ∈ changes, ∀ write, change ≠ .ledger write)
    (p : Pipeline) : (changes.foldl Pipeline.apply p).ledger = p.ledger := by
  induction changes generalizing p with
  | nil => rfl
  | cons change changes ih =>
      rw [List.foldl_cons, ih fun other member => quiet other (List.mem_cons_of_mem _ member)]
      cases change with
      | ledger write => exact absurd rfl (quiet _ (List.mem_cons_self ..) write)
      | _ => rfl

/-- Raw rows are all that their statement writes. -/
theorem run_persistRawRows {draw : Nat → UUID} {rows : List Row} {p after : Pipeline} {n : Nat}
    (ran : (persistRawRows draw batchID rows).run Pipeline.apply p = .ok (n, after)) :
    ∃ made : List RawRow, after = (made.map Change.insertRawRow).foldl Pipeline.apply p := by
  unfold persistRawRows at ran
  split at ran
  next =>
    obtain ⟨-, rfl⟩ := Prod.mk.inj (Except.ok.inj ran)
    exact ⟨[], rfl⟩
  next =>
    obtain ⟨changes, success, rfl⟩ := (Prog.run_exec_ok _).mp ran
    obtain ⟨_, -, made⟩ := bind_ok.mp success
    obtain ⟨rfl, -⟩ := Prod.mk.inj (Except.ok.inj made)
    exact ⟨_, rfl⟩

theorem queue_persistRawRows {draw : Nat → UUID} {rows : List Row} {p after : Pipeline} {n : Nat}
    (ran : (persistRawRows draw batchID rows).run Pipeline.apply p = .ok (n, after)) :
    after.queue = p.queue := by
  obtain ⟨made, rfl⟩ := run_persistRawRows ran
  refine queue_foldl (fun change member job same => ?_) p
  obtain ⟨_, -, rfl⟩ := List.mem_map.mp member
  cases same

theorem ledger_persistRawRows {draw : Nat → UUID} {rows : List Row} {p after : Pipeline} {n : Nat}
    (ran : (persistRawRows draw batchID rows).run Pipeline.apply p = .ok (n, after)) :
    after.ledger = p.ledger := by
  obtain ⟨made, rfl⟩ := run_persistRawRows ran
  refine ledger_foldl (fun change member write same => ?_) p
  obtain ⟨_, -, rfl⟩ := List.mem_map.mp member
  cases same

theorem queue_resolveInto {id entityID : UUID} {st : Statement} {found result : ValidationResult}
    {p after : Pipeline}
    (ran : (resolveInto id entityID st found).run Pipeline.apply p = .ok (result, after)) :
    after.queue = p.queue := by
  unfold resolveInto at ran
  split at ran
  next =>
    obtain ⟨-, rfl⟩ := Prod.mk.inj (Except.ok.inj ran)
    rfl
  next =>
    obtain ⟨_, middle, resolved, ran⟩ := (Prog.run_bind_ok _).mp ran
    obtain ⟨d, -, rfl⟩ := run_onLedger resolved
    obtain ⟨-, rfl⟩ := Prod.mk.inj (Except.ok.inj ran)
    rfl

theorem run_insertValidation {id : UUID} {result : ValidationResult} {p after : Pipeline}
    {answer : Unit}
    (ran : (insertValidation id batchID result).run Pipeline.apply p = .ok (answer, after)) :
    ∃ row, after = p.apply (.insertValidation row) := by
  obtain ⟨changes, success, rfl⟩ := (Prog.run_exec_ok _).mp ran
  obtain ⟨_, -, made⟩ := bind_ok.mp success
  obtain ⟨rfl, -⟩ := Prod.mk.inj (Except.ok.inj made)
  exact ⟨_, rfl⟩

theorem transactions_resolveInto {id entityID : UUID} {st : Statement}
    {found result : ValidationResult} {p after : Pipeline}
    (ran : (resolveInto id entityID st found).run Pipeline.apply p = .ok (result, after)) :
    after.ledger.transactions = p.ledger.transactions := by
  unfold resolveInto at ran
  split at ran
  next =>
    obtain ⟨-, rfl⟩ := Prod.mk.inj (Except.ok.inj ran)
    rfl
  next =>
    obtain ⟨_, middle, resolved, ran⟩ := (Prog.run_bind_ok _).mp ran
    obtain ⟨d, inner, rfl⟩ := run_onLedger resolved
    obtain ⟨-, rfl⟩ := Prod.mk.inj (Except.ok.inj ran)
    -- The account's statements insert no transaction.
    have emits : (resolveAccount id entityID st).Emits fun _ writes => ∀ d : Database,
        (writes.foldl Database.apply d).transactions = d.transactions :=
      resolveAccount_emits (fun _ _ => rfl) (fun _ _ _ => rfl) id entityID st
    exact Prog.leaves_of_emits emits (fun d writes kept quiet => (quiet d).trans kept) _ _ _ rfl inner

theorem nextStatus_cases (result : ValidationResult) :
    nextStatus result = .validated ∨ nextStatus result = .rejected := by
  unfold nextStatus
  split
  next => exact .inr rfl
  next => exact .inl rfl

theorem advanced_landBatch {draws : Draws} {batch : ImportBatchRow} {st : Statement}
    {found : ValidationResult} {p after : Pipeline}
    (due : p.statusOf batchID = some Task.validateImport.due)
    (ran : (landBatch draws batch batchID st found).run Pipeline.apply p = .ok ((), after)) :
    Advanced batchID uploadMaxBytes object .validateImport p after := by
  obtain ⟨_, landed, rows, ran⟩ := (Prog.run_bind_ok _).mp ran
  obtain ⟨result, resolved, accounts, ran⟩ := (Prog.run_bind_ok _).mp ran
  obtain ⟨_, _, receipt, ran⟩ := (Prog.run_bind_ok _).mp ran
  obtain ⟨_, _, moves, ran⟩ := (Prog.run_bind_ok _).mp ran
  obtain ⟨-, rfl⟩ := (Prog.run_ofExcept_ok _).mp moves
  obtain ⟨affected, _, updated, ran⟩ := (Prog.run_bind_ok _).mp ran
  obtain ⟨_, _, checked, queued⟩ := (Prog.run_bind_ok _).mp ran
  obtain ⟨one, rfl⟩ := (Prog.run_ofExcept_ok _).mp checked
  obtain ⟨d, inner, rfl⟩ := run_onLedger updated
  obtain ⟨old, only, rfl⟩ := run_update (fun _ _ _ => setImportBatchStatus_updates) inner one
  obtain ⟨-, own, -⟩ := only_mem only
  obtain ⟨row, rfl⟩ := run_insertValidation receipt
  have queue : resolved.queue = p.queue := by
    rw [queue_resolveInto accounts, queue_persistRawRows rows]
  have stored : resolved.ledger.transactions = p.ledger.transactions := by
    rw [transactions_resolveInto accounts, ledger_persistRawRows rows]
  have now : ((resolved.apply (.insertValidation row)).apply (.ledger (.updateBatch
      { old with status := nextStatus result, failureCode := none }))).statusOf batchID =
    some (nextStatus result) := statusOf_updated only own
  rcases nextStatus_cases result with next | next
  · rw [if_pos next] at queued
    obtain rfl := run_enqueue queued
    refine advanced_of due (now.trans (congrArg some next)) (Nat.lt_succ_self 1) ?_ nofun (.inr stored)
    exact congrArg (· ++ _) queue
  · rw [if_neg (by simp [next])] at queued
    obtain ⟨-, rfl⟩ := Prod.mk.inj (Except.ok.inj queued)
    refine advanced_of due (now.trans (congrArg some next)) (by decide) ?_ nofun (.inr stored)
    exact queue.trans (List.append_nil _).symm

theorem stage_validateImport {p after : Pipeline} {outcome : Except Failure Unit} {draws : Draws}
    (alone : (validateImport batchID draws).Alone (StoreAnswers uploadMaxBytes object) p []
      outcome after) :
    Stage batchID uploadMaxBytes object .validateImport p outcome after := by
  rcases alone_getImportBatch alone with ⟨absent, alone⟩ | ⟨batch, -, status, alone⟩
  · exact stage_finish (by simp [absent]) alone
  have work : (validateBatch draws batchID batch).Alone (StoreAnswers uploadMaxBytes object) p []
    outcome after := alone
  unfold validateBatch at work
  split at work
  next other =>
    refine stage_finish ?_ work
    rw [status]
    exact fun same => other (Option.some.inj same)
  next uploaded =>
    have due : p.statusOf batchID = some Task.validateImport.due := by
      rw [status, not_not.mp uploaded]
      rfl
    obtain ⟨response, answered, work⟩ := work
    cases response with
    | validated parsed =>
        cases parsed with
        | none => exact stage_fail due work
        | some result => exact stage_last (fun q ran => .inr ⟨rfl, advanced_landBatch due ran⟩) work
    | _ => exact answered.elim

/-! ## Persisting -/

/-- The ledger's own part of the last transaction, with the rest of the pipeline left. -/
theorem stage_lastLedger {answers : StoreQuestion → StoreReply → Prop} {task : Task}
    {p after : Pipeline} {outcome : Except Failure Unit} {next : Except Failure Unit → Attempt}
    {body : Tx Unit} (alone : (inTx next (onLedger body)).Alone answers p [] outcome after)
    (last : next (.ok ()) = .done (.ok ()))
    (does : ∀ d, body.run Database.apply p.ledger = .ok ((), d) →
      Advanced batchID uploadMaxBytes object task p { p with ledger := d })
    (failed : ∀ e, (next (.error e)).Alone answers p [] outcome after →
      Stage batchID uploadMaxBytes object task p outcome after) :
    Stage batchID uploadMaxBytes object task p outcome after := by
  rcases alone_inTx alone with ⟨_, q, ran, alone⟩ | ⟨e, alone⟩
  · rw [last] at alone
    obtain ⟨rfl, rfl⟩ := alone
    obtain ⟨d, inner, rfl⟩ := run_onLedger ran
    exact .inr ⟨rfl, does d inner⟩
  · exact failed e alone

theorem stage_failImport {answers : StoreQuestion → StoreReply → Prop} {task : Task}
    {p after : Pipeline} {outcome : Except Failure Unit} {code : String}
    (due : p.statusOf batchID = some task.due)
    (alone : ((failImport batchID code).lift amongPipeline).Alone answers p [] outcome after) :
    Stage batchID uploadMaxBytes object task p outcome after := by
  rw [failImport, lift_inTx] at alone
  refine stage_lastLedger alone rfl (fun d ran => ?_) fun e alone => ?_
  · obtain ⟨affected, middle, updated, checked⟩ := (Prog.run_bind_ok _).mp ran
    obtain ⟨one, rfl⟩ := (Prog.run_ofExcept_ok _).mp checked
    obtain ⟨old, only, rfl⟩ := run_update (fun _ _ _ => setImportBatchStatus_updates) updated one
    exact advanced_failed due only
  · obtain ⟨rfl, rfl⟩ := alone
    exact stage_error

theorem statusOf_persistRows {site : Site} {draws : Draws} {batch : ImportBatchRow} {st : Statement}
    {d : Database} (p : Pipeline)
    (ran : (persistRows site draws batch st).run Database.apply p.ledger = .ok ((), d)) :
    ({ p with ledger := d } : Pipeline).statusOf batch.id = some .imported := by
  unfold persistRows at ran
  obtain ⟨_, _, -, ran⟩ := (Prog.run_bind_ok _).mp ran
  obtain ⟨_, _, -, ran⟩ := (Prog.run_bind_ok _).mp ran
  obtain ⟨_, _, -, ran⟩ := (Prog.run_bind_ok _).mp ran
  obtain ⟨_, _, -, ran⟩ := (Prog.run_bind_ok _).mp ran
  obtain ⟨_, _, -, ran⟩ := (Prog.run_bind_ok _).mp ran
  obtain ⟨_, _, -, ran⟩ := (Prog.run_bind_ok _).mp ran
  obtain ⟨_, _, -, ran⟩ := (Prog.run_bind_ok _).mp ran
  obtain ⟨_, stored, -, ran⟩ := (Prog.run_bind_ok _).mp ran
  obtain ⟨affected, _, updated, ran⟩ := (Prog.run_bind_ok _).mp ran
  obtain ⟨_, _, checked, queued⟩ := (Prog.run_bind_ok _).mp ran
  obtain ⟨one, rfl⟩ := (Prog.run_ofExcept_ok _).mp checked
  obtain ⟨old, only, rfl⟩ := run_update (fun _ _ _ => setImportBatchStatus_updates) updated one
  obtain ⟨writes, made, rfl⟩ := (Prog.run_exec_ok _).mp queued
  obtain ⟨rfl, -⟩ := Prod.mk.inj (Except.ok.inj made)
  let before : Pipeline := { p with ledger := stored }
  have alone : before.ledger.batches.filter (·.id = batch.id) = [old] := only
  have now : (before.apply (.ledger (.updateBatch
      { old with status := .imported, failureCode := none }))).statusOf batch.id = some .imported :=
    statusOf_updated alone (only_mem alone).2.1
  exact now

theorem stage_persistBatch {p after : Pipeline} {outcome : Except Failure Unit} {site : Site}
    {draws : Draws} {batch : ImportBatchRow} (status : p.statusOf batch.id = some batch.status)
    (alone : ((persistBatch site draws batch).lift amongPipeline).Alone
      (StoreAnswers uploadMaxBytes object) p [] outcome after) :
    Stage batch.id uploadMaxBytes object .persistImport p outcome after := by
  unfold persistBatch at alone
  split at alone
  next other =>
    refine stage_finish ?_ alone
    rw [status]
    exact fun same => other (Option.some.inj same)
  next validated =>
    have due : p.statusOf batch.id = some Task.persistImport.due := by
      rw [status, not_not.mp validated]
      rfl
    obtain ⟨response, answered, work⟩ := alone
    cases response with
    | core reply =>
        cases reply with
        | statement parsed =>
            cases parsed with
            | none => exact stage_failImport due work
            | some st =>
                have land : (Job.lift amongPipeline
                    (inTx _ (persistRows site draws batch st))).Alone
                  (StoreAnswers uploadMaxBytes object) p [] outcome after := work
                rw [lift_inTx] at land
                refine stage_lastLedger land rfl (fun d ran => ?_) fun e alone => ?_
                · exact advanced_of due (statusOf_persistRows p ran) (by decide)
                    (List.append_nil _).symm nofun (.inl rfl)
                · dsimp only at alone
                  split at alone
                  next => exact stage_failImport due alone
                  next =>
                    obtain ⟨rfl, rfl⟩ := alone
                    exact stage_error
        | _ => exact answered.elim
    | _ => exact answered.elim

theorem stage_persistImport {p after : Pipeline} {outcome : Except Failure Unit} {site : Site}
    {draws : Draws}
    (alone : ((persistImport site batchID draws).lift amongPipeline).Alone
      (StoreAnswers uploadMaxBytes object) p [] outcome after) :
    Stage batchID uploadMaxBytes object .persistImport p outcome after := by
  rw [persistImport, lift_inTx] at alone
  rcases alone_getImportBatch alone with ⟨absent, alone⟩ | ⟨batch, rfl, status, alone⟩
  · exact stage_finish (by simp [absent]) alone
  · exact stage_persistBatch status alone

theorem stage_attempt {p after : Pipeline} {outcome : Except Failure Unit} {site : Site} {task : Task}
    {draws : Draws} (settled : Settled batchID uploadMaxBytes object p)
    (alone : (attempt site uploadMaxBytes ⟨task, batchID⟩ draws).Alone
      (StoreAnswers uploadMaxBytes object) p [] outcome after) :
    Stage batchID uploadMaxBytes object task p outcome after := by
  cases task with
  | measureUpload => exact stage_measureUpload settled alone
  | validateImport => exact stage_validateImport alone
  | persistImport => exact stage_persistImport alone

end Vekst.Ingest
