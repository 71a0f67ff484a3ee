import Vekst.Isolation.Locks
import Vekst.Proof.Ingest.Forward

namespace Vekst.Ingest
open Isolation Ledger

variable {batchID : UUID} {site : Site} {uploadMaxBytes : Nat}

/-! ## Who may abandon a batch -/

/-- No statement puts the batch back to awaiting its upload, or abandons it from another status. -/
def Leaves (batchID : UUID) (p : Pipeline) (changes : List Change) : Prop :=
  ∀ row, .ledger (.updateBatch row) ∈ changes → row.id = batchID →
    row.status ≠ .awaitingUpload ∧
      (row.status = .abandoned → p.Keyed → p.statusOf batchID = some .awaitingUpload)

def expiryRules (batchID : UUID) : Discipline Pipeline Change StoreReply Entry where
  allowed _ := True
  answered _ := True
  guarantee _ := Leaves batchID

/-- Statuses that no statement on the batch need be asked about. -/
def Settling (change : Change) : Prop :=
  ∀ row, change = .ledger (.updateBatch row) →
    row.status ≠ .awaitingUpload ∧ row.status ≠ .abandoned

theorem settling_of_sets {own : UUID} {statuses : List BatchStatus} {change : Change}
    (waits : .awaitingUpload ∉ statuses) (abandons : .abandoned ∉ statuses)
    (sets : Sets own statuses change) : Settling change := by
  intro row same
  have listed := (sets row same).2
  exact ⟨fun equal => waits (equal ▸ listed), fun equal => abandons (equal ▸ listed)⟩

theorem keeps_of_settling {job : PipelineJob} (writes : job.Writes Settling) :
    job.Keeps (expiryRules batchID) [] := by
  refine keeps_of_writes writes fun pending p made settling row member _ => ?_
  obtain ⟨waits, abandons⟩ := settling _ member row rfl
  exact ⟨waits, fun abandoned => absurd abandoned abandons⟩

theorem settling_query {α : Type} {f : Database → Except Failure α} :
    (onLedger (Prog.query f)).Emits fun _ changes => ∀ change ∈ changes, Settling change := by
  rw [onLedger, Prog.lift_query]
  exact Prog.emits_query (by simp) _

theorem settling_withBatch {own : UUID} {work : ImportBatchRow → Attempt}
    (works : ∀ batch, (work batch).Writes Settling) : (withBatch own work).Writes Settling := by
  refine writes_inTx settling_query fun result => ?_
  cases result with
  | ok batch => exact works batch
  | error e => cases e <;> trivial

theorem settling_attempt (site : Site) (uploadMaxBytes : Nat) (job : QueuedJob) (draws : Draws) :
    (attempt site uploadMaxBytes job draws).Writes Settling := by
  obtain ⟨task, own⟩ := job
  cases task with
  | measureUpload =>
      refine settling_withBatch fun batch => ?_
      exact (measureBatch_sets uploadMaxBytes own batch).mono fun _ =>
        settling_of_sets (by decide) (by decide)
  | validateImport =>
      refine settling_withBatch fun batch => ?_
      exact (validateBatch_sets draws own batch).mono fun _ =>
        settling_of_sets (by decide) (by decide)
  | persistImport =>
      have body : (persistImport site own draws).Writes fun write =>
          ∀ row, write = .updateBatch row → row.status ∈ [BatchStatus.imported, .failed] := by
        refine writes_inTx (Prog.emits_query (by simp) _) fun result => ?_
        cases result with
        | ok batch => exact (persistBatch_sets site draws batch).mono fun _ sets row same =>
            (sets row same).2
        | error e => cases e <;> trivial
      refine writes_lift body fun write sets row same => ?_
      have listed := sets row (Change.ledger.inj same)
      simp only [List.mem_cons, List.not_mem_nil, or_false] at listed
      rcases listed with imported | failed
      · simp [imported]
      · simp [failed]

theorem settling_confirm (userID own : UUID) :
    (confirmImportUpload userID own).Writes Settling := by
  refine writes_inTx settling_query fun result => ?_
  cases result with
  | error e => trivial
  | ok _ =>
      have queued : (enqueue .measureUpload own).Emits
          fun _ changes => ∀ change ∈ changes, Settling change :=
        (enqueue_sets own [] .measureUpload own).mono fun _ _ sets change member =>
          settling_of_sets (by simp) (by simp) (sets change member)
      refine writes_inTx (Prog.emits_bind settling_query fun batch =>
        Prog.emits_bind queued fun _ => trivial) fun result => ?_
      split <;> trivial

/-- What an attempt goes on with once its transaction has ended. -/
def abandoned (batchID : UUID) : Except Failure Bool → PipelineJob
  | .error e => .done (.error e)
  | .ok false => .done (.ok .expired)
  | .ok true => .ask (.delete batchID) fun
      | .ok .deleted => .done (.ok .expired)
      | .ok _ => .done (.error .transient)
      | .error e => .done (.error e)

theorem expireBatch_eq (own : UUID) :
    expireBatch own = inTx (abandoned own) (onLedger (abandonExpiredBatch own)) := by
  rw [expireBatch]
  congr 1

/-- The rows the update selects, in the state it sees. -/
def expired (batchID : UUID) (d : Database) : List ImportBatchRow :=
  d.batches.filter fun batch => batch.id = batchID && batch.status = .awaitingUpload

theorem abandonExpiredBatch_ok {own : UUID} {d : Database} {writes : List Write} {hit : Bool}
    (ran : (do
      let rows := (expired own d).map fun batch => { batch with status := .abandoned }
      rows.forM (checkBatch d)
      return (rows.map Write.updateBatch, !rows.isEmpty)) = Except.ok (writes, hit)) :
    writes = ((expired own d).map fun batch => .updateBatch { batch with status := .abandoned }) ∧
      hit = !(expired own d).isEmpty := by
  obtain ⟨_, -, made⟩ := bind_ok.mp ran
  obtain ⟨rfl, rfl⟩ := Prod.mk.inj (Except.ok.inj made)
  exact ⟨by rw [List.map_map]; rfl, by rw [List.isEmpty_map]⟩

theorem keeps_expireBatch (own : UUID) : (expireBatch own).Keeps (expiryRules batchID) [] := by
  rw [expireBatch_eq, onLedger, abandonExpiredBatch, Prog.lift_exec]
  refine keeps_inTx (Prog.wp_exec ?_) fun e => trivial
  intro p changes hit made
  obtain ⟨⟨writes, found⟩, ran, same⟩ := map_ok.mp made
  obtain ⟨rfl, rfl⟩ := Prod.mk.inj same
  obtain ⟨rfl, -⟩ := abandonExpiredBatch_ok ran
  refine ⟨?_, ?_⟩
  · intro row member named
    obtain ⟨write, known, same⟩ := List.mem_map.mp member
    obtain rfl := Change.ledger.inj same
    obtain ⟨old, selected, same⟩ := List.mem_map.mp known
    obtain rfl := Write.updateBatch.inj same
    obtain ⟨stored, awaiting⟩ := List.mem_filter.mp selected
    obtain ⟨-, status⟩ : old.id = own ∧ old.status = .awaitingUpload := by simpa using awaiting
    subst named
    refine ⟨by simp, fun _ keyed => ?_⟩
    rw [Pipeline.statusOf, keyed.find stored, Option.map_some, status]
  · cases found with
    | false => trivial
    | true =>
        refine ⟨fun response _ => ?_, fun e => trivial⟩
        cases response <;> trivial

theorem pipelineBody_keeps (entry : Entry) :
    (pipelineBody site uploadMaxBytes entry).Keeps (expiryRules batchID) [] := by
  cases entry with
  | confirmImportUpload userID own => exact keeps_of_settling (settling_confirm userID own)
  | work number job draws =>
      exact keeps_of_settling (writes_map (settling_attempt site uploadMaxBytes job draws))
  | expireBatch own => exact keeps_expireBatch own

/-! ## The status under pending changes -/

/-- A pending change never returns the batch to waiting, and abandons it while it waits. -/
def Abandons (batchID : UUID) (p : Pipeline) (pending : List Change) (_ : Bool) : Prop :=
  ∀ row, .ledger (.updateBatch row) ∈ pending → row.id = batchID →
    row.status ≠ .awaitingUpload ∧
      (row.status = .abandoned → p.statusOf batchID = some .awaitingUpload)

theorem mem_held_batch {sys : PipelineSystem} {i : Nat} {row : ImportBatchRow}
    (pending : .ledger (.updateBatch row) ∈ sys.writesOf i) :
    PipelineLock.ledger (.batch row.id) ∈ sys.held i := by
  refine List.mem_flatMap.mpr ⟨_, pending, List.mem_map_of_mem ?_⟩
  unfold Write.locks
  dsimp only
  split <;> simp

/-- Changes of one batch lock one another out. -/
theorem statusOf_publish {sys : PipelineSystem} {i j : Nat} {row : ImportBatchRow}
    (exclusive : Exclusive sys) (different : j ≠ i)
    (pending : .ledger (.updateBatch row) ∈ sys.writesOf j) (own : row.id = batchID) :
    (visible sys.committed (sys.writesOf i)).statusOf batchID =
      sys.committed.statusOf batchID := by
  rcases statusOf_visible sys.committed (sys.writesOf i) batchID with same | ⟨other, member, named, -⟩
  · exact same
  · have held := mem_held_batch member
    rw [named, ← own] at held
    exact absurd (mem_held_batch pending) (exclusive i j (Ne.symm different) held)

theorem carries_expiry {admits : PipelineSystem → PipelineEvent → Prop}
    (locked : ∀ sys event, admits sys event → Exclusive sys) :
    Carries (expiryRules batchID) admits Pipeline.Keyed (Abandons batchID) where
  opened p _ row member := by simp at member
  written p pending changes keyed held leaves := by
    intro row member own
    rcases List.mem_append.mp member with old | new
    · exact held row old own
    · obtain ⟨waits, abandons⟩ := leaves row new own
      refine ⟨waits, fun abandoned => ?_⟩
      have seen := abandons abandoned (keyed.visible pending)
      rcases statusOf_visible p pending batchID with same | ⟨other, made, named, -, set⟩
      · exact same ▸ seen
      · have never := (held other made named).1
        exact absurd (Option.some.inj (set.symm.trans seen)) never
  passed p pending keyed held _ := held
  published sys i client _ _ keyed _ := keyed.visible client.writes
  unmoved sys i client other admitted found aside keyed _ held := by
    have exclusive := locked _ _ admitted
    obtain ⟨j, different, place⟩ := System.mem_others.mp aside
    intro row member own
    obtain ⟨waits, abandons⟩ := held row member own
    refine ⟨waits, fun abandoned => ?_⟩
    rw [← System.writesOf_eq found, statusOf_publish exclusive different
      (System.writesOf_eq place ▸ member) own]
    exact abandons abandoned

/-! ## One attempt -/

/-- An attempt has asked the store to delete the batch's object, and the store has. -/
def Deleted (batchID : UUID) (sys : PipelineSystem) : Prop :=
  ∃ client ∈ sys.clients, .delete batchID ∈ client.asked ∧
    client.job = some (.done (.ok .expired))

abbrev PipelineClient :=
  Client Pipeline Change Failure StoreQuestion StoreReply Entry PipelineOutcome

/-- The client is an attempt about to run its statement. -/
def Attempts (batchID : UUID) (sys : PipelineSystem) (i : Nat) : Prop :=
  ∃ client, sys.clients[i]? = some client ∧ client.job = some (expireBatch batchID)

/-- A job that has ended does not crash any more. -/
def Unended (sys : PipelineSystem) : PipelineEvent → Prop
  | .crash i => ∀ client, sys.clients[i]? = some client → ∀ outcome, client.job ≠ some (.done outcome)
  | _ => True

/-- No attempt's statement meets a batch that is abandoned and whose object is not deleted. -/
def DeletedFirst (batchID : UUID) (sys : PipelineSystem) (event : PipelineEvent) : Prop :=
  Unended sys event ∧ ∀ i, event = .exec i → Attempts batchID sys i →
    sys.committed.statusOf batchID = some .abandoned → Deleted batchID sys

/-- The batch waits no more, and where it is abandoned its object is deleted. -/
def Cleared (batchID : UUID) (sys : PipelineSystem) : Prop :=
  sys.committed.statusOf batchID ≠ some .awaitingUpload ∧
    (sys.committed.statusOf batchID = some .abandoned → Deleted batchID sys)

/-- How far an attempt has come. -/
inductive Expiring (batchID : UUID) (sys : PipelineSystem) (client : PipelineClient) : Prop
  | waiting (head : client.job = some (.jump (.expireBatch batchID))) (empty : client.writes = [])
  | attempting (head : client.job = some (expireBatch batchID)) (empty : client.writes = [])
  | hit (head : client.job = some (inTx (abandoned batchID) (.ret true)))
  | deleting (head : client.job = some (abandoned batchID (.ok true)))
  | cleared (cleared : Cleared batchID sys)
  | deleted (deleted : Deleted batchID sys)
  | ended (unsuccessful : client.Returns fun outcome => outcome ≠ .ok .expired)

variable {sys after : PipelineSystem} {event : PipelineEvent}

/-- What a run from nobody connected carries of the batch. -/
structure Watching (batchID : UUID) (sys : PipelineSystem) : Prop where
  keyed : sys.committed.Keyed
  exclusive : Exclusive sys
  abandons : ∀ i, Abandons batchID sys.committed (sys.writesOf i) false

theorem watching_of_run {p : Pipeline} {admits : PipelineSystem → PipelineEvent → Prop}
    (keyed : p.Keyed) (run : Run (pipelineBody site uploadMaxBytes) admits p.idle sys) :
    Watching batchID sys := by
  have knowing := run.knowing fun reached before => before.exclusive rfl
  have carries : Carries (expiryRules batchID)
      (fun sys event => admits sys event ∧ Exclusive sys) Pipeline.Keyed (Abandons batchID) :=
    carries_expiry fun _ _ known => known.2
  obtain ⟨unique, each⟩ := knowing.carries carries (fun entry _ => pipelineBody_keeps entry)
    (fun _ event _ => by cases event <;> trivial) rfl keyed
  refine ⟨unique, run.exclusive rfl, fun i => ?_⟩
  cases found : sys.clients[i]? with
  | none => simp [Abandons, System.writesOf, found]
  | some client =>
      rw [System.writesOf_eq found]
      exact (each client (List.mem_of_getElem? found)).holds

theorem deleted_step (step : Step (pipelineBody site uploadMaxBytes) sys event after)
    (unended : Unended sys event) (deleted : Deleted batchID sys) : Deleted batchID after := by
  obtain ⟨client, member, asked, returned⟩ := deleted
  obtain ⟨j, place⟩ := List.mem_iff_getElem?.mp member
  cases split_of_step step with
  | spawn label same started =>
      subst started
      exact ⟨client, List.mem_append_left _ member, asked, returned⟩
  | move i other moved found moves clients =>
      by_cases own : i = j
      · subst own
        obtain rfl := Option.some.inj (found.symm.trans place)
        have crashed := moves.of_done returned
        subst crashed
        exact absurd returned (unended other found _)
      · refine ⟨client, ?_, asked, returned⟩
        rw [clients]
        exact List.mem_of_getElem? ((List.getElem?_set_ne own).trans place)

theorem cleared_step (watching : Watching batchID sys)
    (step : Step (pipelineBody site uploadMaxBytes) sys event after)
    (unended : Unended sys event) (cleared : Cleared batchID sys) : Cleared batchID after := by
  obtain ⟨waits, cleaned⟩ := cleared
  have still := fun abandoned => deleted_step step unended (cleaned abandoned)
  cases split_of_step step with
  | spawn label same started =>
      subst started
      exact ⟨waits, still⟩
  | move i client moved found moves clients =>
      rcases moves.committed_eq with same | ⟨-, published⟩
      · rw [Cleared, same]
        exact ⟨waits, still⟩
      · rw [Cleared, published]
        rcases statusOf_visible sys.committed client.writes batchID with same | ⟨row, member, own, -, set⟩
        · rw [same]
          exact ⟨waits, still⟩
        · have pending := watching.abandons i row (System.writesOf_eq found ▸ member) own
          rw [set]
          exact ⟨fun awaiting => pending.1 (Option.some.inj awaiting), fun abandoned =>
            absurd (pending.2 (Option.some.inj abandoned)) waits⟩

/-- An attempt that finds nothing to abandon leaves a batch that waits no more. -/
theorem cleared_of_missed {i : Nat} (first : Attempts batchID sys i)
    (admitted : DeletedFirst batchID sys (.exec i))
    (missed : expired batchID sys.committed.ledger = []) : Cleared batchID sys := by
  refine ⟨fun awaiting => ?_, admitted.2 i rfl first⟩
  obtain ⟨batch, found, status⟩ := Option.map_eq_some_iff.mp awaiting
  have own : batch.id = batchID := by simpa using List.find?_some found
  have selected : batch ∈ expired batchID sys.committed.ledger :=
    List.mem_filter.mpr ⟨List.mem_of_find?_eq_some found, by simp [own, status]⟩
  simp [missed] at selected

/-- The statement of an attempt, and what follows what it found. -/
theorem expireBatch_stmt (batchID : UUID) : ∃ emit next, expireBatch batchID = .stmt emit next ∧
    (∀ e, next (.error e) = .rollback (abandoned batchID (.error e))) ∧
    ∀ p changes, emit p = .ok changes →
      expired batchID p.ledger = [] ∧ next (.ok p) = inTx (abandoned batchID) (.ret false) ∨
      next (.ok p) = inTx (abandoned batchID) (.ret true) := by
  rw [expireBatch_eq, onLedger, abandonExpiredBatch, Prog.lift_exec, Prog.exec]
  simp only [inTx]
  refine ⟨_, _, rfl, ?_, ?_⟩
  · intro e
    rfl
  · intro p changes emitted
    obtain ⟨⟨made, _⟩, ran, -⟩ := map_ok.mp emitted
    obtain ⟨⟨writes, found⟩, updated, same⟩ := map_ok.mp ran
    obtain ⟨-, rfl⟩ := Prod.mk.inj same
    have selected := (abandonExpiredBatch_ok updated).2
    simp only [ran]
    cases rows : expired batchID p.ledger with
    | nil =>
        obtain rfl : found = false := by simpa [rows] using selected
        exact .inl ⟨rfl, rfl⟩
    | cons first rest =>
        obtain rfl : found = true := by simpa [rows] using selected
        exact .inr rfl

/-- The commit of an attempt that found nothing, or what is left of one that failed. -/
theorem ended_of_error {client : PipelineClient} {e : Failure}
    (head : client.job = some (.done (.error e))) :
    client.Returns fun outcome => outcome ≠ .ok .expired := by
  intro job running
  obtain rfl := Option.some.inj (head.symm.trans running)
  simp [Job.Returns]

theorem ended_of_rollback {client : PipelineClient} {e : Failure}
    (head : client.job = some (.rollback (abandoned batchID (.error e)))) :
    client.Returns fun outcome => outcome ≠ .ok .expired := by
  intro job running
  obtain rfl := Option.some.inj (head.symm.trans running)
  simp [abandoned, Job.Returns]

theorem ended_of_crash {client : PipelineClient} (crashed : client.job = none) :
    client.Returns fun outcome => outcome ≠ .ok .expired := by
  intro job running
  rw [crashed] at running
  cases running

/-- An attempt's own event. -/
theorem expiring_moves {i : Nat} {later : Pipeline}
    {client moved : PipelineClient}
    (found : sys.clients[i]? = some client) (watching : Watching batchID sys)
    (step : Step (pipelineBody site uploadMaxBytes) sys event after)
    (admitted : DeletedFirst batchID sys event)
    (moves : Moves (pipelineBody site uploadMaxBytes) sys.committed i client event moved later)
    (placed : moved ∈ after.clients)
    (expiring : Expiring batchID sys client) : Expiring batchID after moved := by
  cases expiring with
  | waiting head empty =>
      rcases moves.of_jump head with rfl | crashed
      · exact .attempting rfl empty
      · exact .ended (ended_of_crash crashed)
  | attempting head empty =>
      obtain ⟨emit, next, shape, refused, answered⟩ := expireBatch_stmt batchID
      have opening := head
      rw [shape] at head
      rcases moves.of_stmt head with ⟨changes, rfl, emitted, rfl⟩ | ⟨e, -, -, rfl⟩ | ⟨e, -, rfl⟩ | crashed
      · rw [empty, visible_nil] at emitted ⊢
        rcases answered _ _ emitted with ⟨missed, -⟩ | hit
        · have first : Attempts batchID sys i := ⟨client, found, opening⟩
          exact .cleared (cleared_step watching step admitted.1 (cleared_of_missed first admitted missed))
        · exact .hit (congrArg some hit)
      · exact .ended (ended_of_rollback (congrArg some (refused e)))
      · exact .ended (ended_of_rollback (congrArg some (refused e)))
      · exact .ended (ended_of_crash crashed)
  | hit head =>
      rcases moves.of_commit head with ⟨-, rfl⟩ | ⟨-, -, rfl⟩ | ⟨e, _, -, -, rfl⟩ | crashed
      · exact .hit head
      · exact .deleting rfl
      · exact .ended (ended_of_error rfl)
      · exact .ended (ended_of_crash crashed)
  | deleting head =>
      rcases moves.of_ask head with ⟨result, rfl⟩ | crashed
      · cases result with
        | ok response =>
            cases response with
            | deleted => exact .deleted ⟨_, placed, by simp, rfl⟩
            | _ => exact .ended (ended_of_error rfl)
        | error e => exact .ended (ended_of_error rfl)
      · exact .ended (ended_of_crash crashed)
  | cleared cleared => exact .cleared (cleared_step watching step admitted.1 cleared)
  | deleted deleted => exact .deleted (deleted_step step admitted.1 deleted)
  | ended unsuccessful => exact .ended (unsuccessful.moves moves)

/-! ## Every run -/

/-- The attempt of a client, however the others move. -/
theorem expiring_step {i : Nat} {client : PipelineClient}
    (found : sys.clients[i]? = some client) (watching : Watching batchID sys)
    (step : Step (pipelineBody site uploadMaxBytes) sys event after)
    (admitted : DeletedFirst batchID sys event) (expiring : Expiring batchID sys client) :
    ∃ moved, after.clients[i]? = some moved ∧ Expiring batchID after moved := by
  have stays : Expiring batchID after client := by
    cases expiring with
    | waiting head empty => exact .waiting head empty
    | attempting head empty => exact .attempting head empty
    | hit head => exact .hit head
    | deleting head => exact .deleting head
    | cleared cleared => exact .cleared (cleared_step watching step admitted.1 cleared)
    | deleted deleted => exact .deleted (deleted_step step admitted.1 deleted)
    | ended unsuccessful => exact .ended unsuccessful
  have inside := (List.getElem?_eq_some_iff.mp found).1
  cases split_of_step step with
  | spawn label same started =>
      subst started
      exact ⟨client, (List.getElem?_append_left inside).trans found, stays⟩
  | move j other moved place moves clients =>
      by_cases own : j = i
      · subst own
        obtain rfl := Option.some.inj (found.symm.trans place)
        have placed : after.clients[j]? = some moved := by
          rw [clients]
          exact List.getElem?_set_self inside
        exact ⟨moved, placed, expiring_moves found watching step admitted moves
          (List.mem_of_getElem? placed) expiring⟩
      · refine ⟨client, ?_, stays⟩
        rw [clients]
        exact (List.getElem?_set_ne own).trans found

/-- Where no attempt's statement meets a batch abandoned and not yet deleted, an attempt that
succeeds on an abandoned batch leaves its object deleted. -/
theorem abandoned_leaves_no_object {p : Pipeline} {opened later : PipelineSystem}
    {client : PipelineClient} (keyed : p.Keyed)
    (run : Run (pipelineBody site uploadMaxBytes) (DeletedFirst batchID) p.idle sys)
    (spawned : fire (pipelineBody site uploadMaxBytes) sys (.spawn (.expireBatch batchID)) =
      some opened)
    (onward : Run (pipelineBody site uploadMaxBytes) (DeletedFirst batchID) opened later)
    (found : later.clients[sys.clients.length]? = some client)
    (returned : client.job = some (.done (.ok .expired)))
    (abandoned : later.committed.statusOf batchID = some .abandoned) : Deleted batchID later := by
  have first : DeletedFirst batchID sys (.spawn (.expireBatch batchID)) :=
    ⟨trivial, by rintro i ⟨⟩⟩
  have started : Run (pipelineBody site uploadMaxBytes) (DeletedFirst batchID) p.idle opened :=
    .step run first spawned
  obtain ⟨last, place, expiring⟩ : ∃ last, later.clients[sys.clients.length]? = some last ∧
      Expiring batchID later last := by
    clear found abandoned
    induction onward with
    | refl =>
        obtain rfl := Option.some.inj spawned
        exact ⟨.started (.expireBatch batchID), by simp, .waiting rfl rfl⟩
    | step before admitted fired ih =>
        obtain ⟨last, place, expiring⟩ := ih
        exact expiring_step place (watching_of_run keyed (started.trans before))
          (step_of_fire fired) admitted expiring
  obtain rfl := Option.some.inj (place.symm.trans found)
  cases expiring with
  | waiting head => cases head.symm.trans returned
  | attempting head =>
      obtain ⟨emit, next, shape, -⟩ := expireBatch_stmt batchID
      rw [shape] at head
      cases head.symm.trans returned
  | hit head => cases head.symm.trans returned
  | deleting head => cases head.symm.trans returned
  | cleared cleared => exact cleared.2 abandoned
  | deleted deleted => exact deleted
  | ended unsuccessful => exact absurd rfl (unsuccessful _ returned)

/-! ## A retry -/

def returnedExpired (client : PipelineClient) : Bool :=
  match client.job with
  | some (.done (.ok .expired)) => true
  | _ => false

theorem returnedExpired_iff {client : PipelineClient} :
    returnedExpired client = true ↔ client.job = some (.done (.ok .expired)) := by
  unfold returnedExpired
  split
  next returned => exact iff_of_true rfl returned
  next other => exact iff_of_false Bool.false_ne_true other

def objectDeleted (batchID : UUID) (sys : PipelineSystem) : Bool :=
  sys.clients.any fun client => client.asked.contains (.delete batchID) && returnedExpired client

theorem objectDeleted_iff : objectDeleted batchID sys = true ↔ Deleted batchID sys := by
  simp only [objectDeleted, List.any_eq_true, Bool.and_eq_true, List.contains_iff_mem,
    returnedExpired_iff, Deleted]

def Uncrashed (_ : PipelineSystem) : PipelineEvent → Prop
  | .crash _ => False
  | _ => True

instance (sys : PipelineSystem) (event : PipelineEvent) : Decidable (Uncrashed sys event) :=
  match event with
  | .crash _ => inferInstanceAs (Decidable False)
  | .spawn _ | .jump _ | .exec _ | .check _ | .publish _ | .rollback _ | .answer _ _ | .fault _ _ =>
      inferInstanceAs (Decidable True)

theorem unended_of_uncrashed (uncrashed : Uncrashed sys event) : Unended sys event := by
  cases event with
  | crash i => exact uncrashed.elim
  | _ => trivial

def Tidy (batchID : UUID) (sys : PipelineSystem) (event : PipelineEvent) : Prop :=
  Uncrashed sys event ∧
    match event with
    | .exec _ => sys.committed.statusOf batchID ≠ some .abandoned ∨ objectDeleted batchID sys = true
    | _ => True

instance (sys : PipelineSystem) (event : PipelineEvent) : Decidable (Tidy batchID sys event) :=
  match event with
  | .exec _ => inferInstanceAs (Decidable (_ ∧ (_ ∨ _)))
  | .spawn _ | .jump _ | .check _ | .publish _ | .rollback _ | .answer _ _ | .fault _ _ | .crash _ =>
      inferInstanceAs (Decidable (_ ∧ True))

theorem deletedFirst_of_tidy (tidy : Tidy batchID sys event) : DeletedFirst batchID sys event := by
  refine ⟨unended_of_uncrashed tidy.1, ?_⟩
  rintro i rfl _ abandoned
  exact objectDeleted_iff.mp (tidy.2.resolve_left fun other => other abandoned)

/-- An attempt at the only batch, up to its commit. -/
def expireEvents (i : Nat) : List PipelineEvent := [.jump i, .exec i, .check i, .publish i]

/-- A first attempt, whose delete goes as it does, and a second. -/
def firstEvents (answered : PipelineEvent) : List PipelineEvent :=
  .spawn (.expireBatch 1) :: expireEvents 0 ++ [answered]

def secondAttempt (answered : PipelineEvent) : Option (Bool × Option BatchStatus × Bool) :=
  (fireAll (pipelineBody sampleSite 10) reservedBatch.idle (firstEvents answered)).bind fun sys =>
    (fire (pipelineBody sampleSite 10) sys (.spawn (.expireBatch 1))).bind fun opened =>
      (fireAll (pipelineBody sampleSite 10) opened (expireEvents 1)).map fun later =>
        ((later.clients[sys.clients.length]?).any returnedExpired,
          later.committed.statusOf 1, objectDeleted 1 later)

theorem secondAttempt_eq_some {admits : PipelineSystem → PipelineEvent → Prop}
    {answered : PipelineEvent} {status : Option BatchStatus} {deleted : Bool}
    (evaluated : secondAttempt answered = some (true, status, deleted))
    (first : AdmitsAll (pipelineBody sampleSite 10) admits reservedBatch.idle (firstEvents answered))
    (both : AdmitsAll (pipelineBody sampleSite 10) admits reservedBatch.idle
      (firstEvents answered ++ .spawn (.expireBatch 1) :: expireEvents 1)) :
    ∃ sys opened later client,
      Run (pipelineBody sampleSite 10) admits reservedBatch.idle sys ∧
      fire (pipelineBody sampleSite 10) sys (.spawn (.expireBatch 1)) = some opened ∧
      Run (pipelineBody sampleSite 10) admits opened later ∧
      later.clients[sys.clients.length]? = some client ∧
      client.job = some (.done (.ok .expired)) ∧
      later.committed.statusOf 1 = status ∧ objectDeleted 1 later = deleted := by
  obtain ⟨sys, fired, evaluated⟩ := Option.bind_eq_some_iff.mp evaluated
  obtain ⟨opened, spawned, evaluated⟩ := Option.bind_eq_some_iff.mp evaluated
  obtain ⟨later, again, evaluated⟩ := Option.map_eq_some_iff.mp evaluated
  obtain ⟨returned, set, gone⟩ : (later.clients[sys.clients.length]?).any returnedExpired = true ∧
      later.committed.statusOf 1 = status ∧ objectDeleted 1 later = deleted := by
    simpa only [Prod.mk.injEq] using evaluated
  obtain ⟨client, found, returned⟩ := (Option.any_eq_true _ _).mp returned
  have rest := (both.rest fired).2 opened spawned
  exact ⟨sys, opened, later, client, .of_fireAll first fired, spawned, .of_fireAll rest again, found,
    returnedExpired_iff.mp returned, set, gone⟩

/-- The first attempt deletes the object, and the second finds nothing to do. -/
theorem abandoned_leaves_no_object_sample :
    ∃ sys opened later client,
      Run (pipelineBody sampleSite 10) (DeletedFirst 1) reservedBatch.idle sys ∧
      fire (pipelineBody sampleSite 10) sys (.spawn (.expireBatch 1)) = some opened ∧
      Run (pipelineBody sampleSite 10) (DeletedFirst 1) opened later ∧
      later.clients[sys.clients.length]? = some client ∧
      client.job = some (.done (.ok .expired)) ∧ Deleted 1 later := by
  have evaluated : secondAttempt (.answer 0 .deleted) = some (true, some .abandoned, true) := by
    decide +kernel
  have first : AdmitsAll (pipelineBody sampleSite 10) (Tidy 1) reservedBatch.idle
      (firstEvents (.answer 0 .deleted)) := by decide +kernel
  have both : AdmitsAll (pipelineBody sampleSite 10) (Tidy 1) reservedBatch.idle
      (firstEvents (.answer 0 .deleted) ++ .spawn (.expireBatch 1) :: expireEvents 1) := by
    decide +kernel
  obtain ⟨sys, opened, later, client, run, spawned, onward, found, returned, abandoned, -⟩ :=
    secondAttempt_eq_some evaluated (first.mono fun _ _ => deletedFirst_of_tidy)
      (both.mono fun _ _ => deletedFirst_of_tidy)
  exact ⟨sys, opened, later, client, run, spawned, onward, found, returned,
    abandoned_leaves_no_object (by decide) run spawned onward found returned abandoned⟩

/-- The store fails the first attempt's delete; the retry finds the batch abandoned and succeeds. -/
theorem retry_leaves_the_object :
    ¬ ∀ (sys opened later : PipelineSystem) (client : PipelineClient),
      Run (pipelineBody sampleSite 10) Unended reservedBatch.idle sys →
      fire (pipelineBody sampleSite 10) sys (.spawn (.expireBatch 1)) = some opened →
      Run (pipelineBody sampleSite 10) Unended opened later →
      later.clients[sys.clients.length]? = some client →
      client.job = some (.done (.ok .expired)) →
      later.committed.statusOf 1 = some .abandoned → Deleted 1 later := by
  intro claimed
  have evaluated : secondAttempt (.fault 0 .transient) = some (true, some .abandoned, false) := by
    decide +kernel
  have first : AdmitsAll (pipelineBody sampleSite 10) Uncrashed reservedBatch.idle
      (firstEvents (.fault 0 .transient)) := by decide +kernel
  have both : AdmitsAll (pipelineBody sampleSite 10) Uncrashed reservedBatch.idle
      (firstEvents (.fault 0 .transient) ++ .spawn (.expireBatch 1) :: expireEvents 1) := by
    decide +kernel
  obtain ⟨sys, opened, later, client, run, spawned, onward, found, returned, abandoned, kept⟩ :=
    secondAttempt_eq_some evaluated (first.mono fun _ _ => unended_of_uncrashed)
      (both.mono fun _ _ => unended_of_uncrashed)
  have deleted := claimed sys opened later client run spawned onward found returned abandoned
  rw [← objectDeleted_iff, kept] at deleted
  cases deleted

end Vekst.Ingest
