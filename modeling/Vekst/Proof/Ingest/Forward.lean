import Vekst.Proof.Ingest.Duplicates
import Vekst.Proof.Ingest.Transitions

namespace Vekst.Ingest
open Isolation Ledger

/-! ## Every job, given the status it first saw -/

variable {batchID : UUID}

theorem onward_of_sets {own : UUID} {p : Pipeline} {statuses : List BatchStatus}
    {before : BatchStatus} (now : p.statusOf own = some before)
    (leads : ∀ next ∈ statuses, MovesTo before next) {change : Change}
    (sets : Sets own statuses change) : Onward batchID p change := by
  intro row same wanted _ status known
  obtain ⟨rfl, allowed⟩ := sets row same
  subst wanted
  obtain rfl : before = status := Option.some.inj (now.symm.trans known)
  exact leads _ allowed

theorem getImportBatch_ok {d : Database} {own : UUID} {batch : ImportBatchRow}
    (found : getImportBatch d own = .ok batch) :
    d.batches.find? (·.id = own) = some batch ∧ batch.id = own := by
  unfold getImportBatch at found
  split at found
  next row known =>
    obtain rfl := Except.ok.inj found
    exact ⟨known, by simpa using List.find?_some known⟩
  next => cases found

theorem statusOf_getImportBatch {p : Pipeline} {own : UUID} {batch : ImportBatchRow}
    (found : getImportBatch p.ledger own = .ok batch) : p.statusOf own = some batch.status := by
  rw [Pipeline.statusOf, (getImportBatch_ok found).1, Option.map_some]

theorem first_withBatch {own : UUID} {work : ImportBatchRow → Attempt}
    (works : ∀ p batch, p.statusOf own = some batch.status →
      (work batch).Writes (Onward batchID p)) :
    (withBatch own work).First (Onward batchID) := by
  unfold withBatch
  rw [onLedger, Prog.lift_query]
  apply first_query
  · intro p batch found
    exact works p batch (statusOf_getImportBatch found)
  · intro e p
    cases e <;> trivial

theorem first_measureUpload (uploadMaxBytes : Nat) (own : UUID) :
    (measureUpload uploadMaxBytes own).First (Onward batchID) := by
  apply first_withBatch
  intro p batch now
  by_cases past : batch.status ≠ .awaitingUpload ∧ batch.status ≠ .uploaded
  · rw [measureBatch, if_pos past]
    trivial
  · refine (measureBatch_sets uploadMaxBytes own batch).mono fun _ => onward_of_sets now ?_
    intro next member
    have early : batch.status = .awaitingUpload ∨ batch.status = .uploaded := by
      by_contra neither
      exact past (not_or.mp neither)
    rcases early with awaiting | uploaded
    · rw [awaiting]
      simp only [List.mem_cons, List.not_mem_nil, or_false] at member
      rcases member with rfl | rfl
      · exact movesTo_of_edge (by decide)
      · exact movesTo_failed (by decide)
    · rw [uploaded]
      simp only [List.mem_cons, List.not_mem_nil, or_false] at member
      rcases member with rfl | rfl
      -- Measuring an uploaded batch again writes the status it has.
      · exact .refl
      · exact movesTo_failed (by decide)

theorem first_validateImport (own : UUID) (draws : Draws) :
    (validateImport own draws).First (Onward batchID) := by
  apply first_withBatch
  intro p batch now
  by_cases uploaded : batch.status = .uploaded
  · refine (validateBatch_sets draws own batch).mono fun _ => onward_of_sets now ?_
    intro next member
    rw [uploaded]
    simp only [List.mem_cons, List.not_mem_nil, or_false] at member
    rcases member with rfl | rfl | rfl
    · exact uploaded_movesTo (by decide)
    · exact uploaded_movesTo (by decide)
    · exact movesTo_failed (by decide)
  · rw [validateBatch, if_pos uploaded]
    trivial

theorem first_persistImport (site : Site) (own : UUID) (draws : Draws) :
    ((persistImport site own draws).lift (amongPipeline)).First (Onward batchID) := by
  rw [persistImport, lift_inTx]
  change (inTx _ ((Prog.query (getImportBatch · own)).lift Pipeline.ledger Change.ledger)).First _
  rw [Prog.lift_query]
  apply first_query
  · intro p batch found
    obtain rfl := (getImportBatch_ok found).2
    have now := statusOf_getImportBatch found
    by_cases validated : batch.status = .validated
    · refine (writes_lift (persistBatch_sets site draws batch) fun write sets =>
        (?_ : Sets batch.id [.imported, .failed] (.ledger write))).mono fun _ => onward_of_sets now ?_
      · intro row same
        exact sets row (Change.ledger.inj same)
      · intro next member
        rw [validated]
        simp only [List.mem_cons, List.not_mem_nil, or_false] at member
        rcases member with rfl | rfl
        · exact validated_movesTo_imported
        · exact movesTo_failed (by decide)
    · dsimp only
      rw [persistBatch, if_pos validated]
      trivial
  · intro e p
    cases e <;> trivial

theorem first_expireBatch (own : UUID) : (expireBatch own).First (Onward batchID) := by
  unfold expireBatch
  rw [onLedger, abandonExpiredBatch, Prog.lift_exec]
  apply first_exec
  · intro p changes answer success
    obtain ⟨⟨writes, abandoned⟩, updated, same⟩ := map_ok.mp success
    obtain ⟨rfl, rfl⟩ := Prod.mk.inj same
    obtain ⟨_, -, made⟩ := bind_ok.mp updated
    obtain ⟨rfl, rfl⟩ := Prod.mk.inj (Except.ok.inj made)
    refine ⟨?_, ?_⟩
    · rintro change member row rfl wanted keyed before now
      obtain ⟨write, known, same⟩ := List.mem_map.mp member
      obtain rfl := Change.ledger.inj same
      obtain ⟨_, chosen, same⟩ := List.mem_map.mp known
      obtain rfl := Write.updateBatch.inj same
      obtain ⟨old, kept, rfl⟩ := List.mem_map.mp chosen
      obtain ⟨stored, awaiting⟩ := List.mem_filter.mp kept
      obtain ⟨-, status⟩ : old.id = own ∧ old.status = .awaitingUpload := by simpa using awaiting
      subst wanted
      rw [Pipeline.statusOf, keyed.find stored, Option.map_some, status] at now
      obtain rfl := Option.some.inj now
      exact (movesTo_of_edge (by decide) : MovesTo .awaitingUpload .abandoned)
    · split
      · trivial
      · trivial
      · intro response
        dsimp only
        split <;> trivial
  · intro e p
    trivial

theorem first_confirmImportUpload (userID own : UUID) :
    (confirmImportUpload userID own).First (Onward batchID) := by
  have quiet {α : Type} {f : Database → Except Failure α} :
      (onLedger (Prog.query f)).Emits (SetsAll own []) :=
    onLedger_sets (Prog.emits_query (by simp [LedgerSets]) f)
  apply first_of_writes
  intro p
  refine (?_ : Job.Writes (Sets own []) _).mono fun change sets row same => by simpa using sets row same
  refine writes_inTx quiet fun result => ?_
  cases result with
  | error e => trivial
  | ok _ =>
      refine writes_inTx (Prog.emits_bind quiet fun batch =>
        Prog.emits_bind (enqueue_sets _ _ _ _) fun _ => trivial) fun result => ?_
      split <;> trivial

theorem pipelineBody_first (site : Site) (uploadMaxBytes : Nat) (entry : Entry) :
    (pipelineBody site uploadMaxBytes entry).First (Onward batchID) := by
  cases entry with
  | confirmImportUpload userID own => exact first_confirmImportUpload userID own
  | work number job draws =>
      cases job with
      | mk task own =>
          cases task with
          | measureUpload => exact first_map (first_measureUpload uploadMaxBytes own)
          | validateImport => exact first_map (first_validateImport own draws)
          | persistImport => exact first_map (first_persistImport site own draws)
  | expireBatch own => exact first_expireBatch own

/-! ## One direction -/

def setsStatus (batchID : UUID) (changes : List Change) : Bool :=
  changes.any fun
    | .ledger (.updateBatch row) => row.id = batchID
    | _ => false

/-- A status of the batch is published only while it has the one the job first saw. -/
def Unmoved (batchID : UUID) (firsts : Firsts Pipeline) (sys : PipelineSystem) :
    PipelineEvent → Prop
  | .publish i => setsStatus batchID (sys.writesOf i) = true →
      (firsts i).map (·.statusOf batchID) = some (sys.committed.statusOf batchID)
  | _ => True

theorem setsStatus_of_mem {changes : List Change} {row : ImportBatchRow}
    (member : .ledger (.updateBatch row) ∈ changes) (own : row.id = batchID) :
    setsStatus batchID changes = true := by
  rw [setsStatus, List.any_eq_true]
  exact ⟨_, member, decide_eq_true own⟩

/-- The committed state, and those the clients first saw, have the table's key. -/
def AllKeyed (firsts : Firsts Pipeline) (sys : PipelineSystem) : Prop :=
  sys.committed.Keyed ∧ ∀ i p, firsts i = some p → p.Keyed

theorem allKeyed_step {site : Site} {uploadMaxBytes : Nat} {firsts : Firsts Pipeline}
    {sys after : PipelineSystem} {event : PipelineEvent}
    (step : Step (pipelineBody site uploadMaxBytes) sys event after) (keyed : AllKeyed firsts sys) :
    AllKeyed (firsts.after sys.committed event) after := by
  obtain ⟨committed, seen⟩ := keyed
  refine ⟨?_, fun i p first => ?_⟩
  · cases split_of_step step with
    | spawn entry same started =>
        subst started
        exact committed
    | move i client moved found moves clients =>
        rcases moves.committed_eq with same | ⟨-, published⟩
        · rw [same]
          exact committed
        · rw [published]
          exact committed.visible client.writes
  · rcases firsts.after_eq sys.committed event i with same | same
    · exact seen i p (same ▸ first)
    · exact Option.some.inj (same.symm.trans first) ▸ committed

/-- One event leaves the status or takes it along a path of edges. -/
theorem forward_step {site : Site} {uploadMaxBytes : Nat} {firsts : Firsts Pipeline}
    {sys after : PipelineSystem} {event : PipelineEvent} {before : BatchStatus}
    (bound : Each (Client.Bound (Onward batchID)) firsts sys) (keyed : AllKeyed firsts sys)
    (unmoved : Unmoved batchID firsts sys event)
    (step : Step (pipelineBody site uploadMaxBytes) sys event after)
    (now : sys.committed.statusOf batchID = some before) :
    ∃ next, after.committed.statusOf batchID = some next ∧ MovesTo before next := by
  cases split_of_step step with
  | spawn entry same started =>
      subst started
      exact ⟨before, now, .refl⟩
  | move i client moved found moves clients =>
      rcases moves.committed_eq with same | ⟨rfl, published⟩
      · rw [same]
        exact ⟨before, now, .refl⟩
      · rw [published]
        rcases statusOf_visible sys.committed client.writes batchID with same | ⟨row, member, own, -, set⟩
        · exact ⟨before, same.trans now, .refl⟩
        · refine ⟨row.status, set, ?_⟩
          have still := unmoved (by
            rw [System.writesOf_eq found]
            exact setsStatus_of_mem member own)
          have held := bound.2 i client found
          cases seen : firsts i with
          | none => simp [seen] at still
          | some p =>
              rw [seen] at still held
              have first : p.statusOf batchID = some before := (Option.some.inj still).trans now
              exact held.1 _ member row rfl own (keyed.2 i p seen) before first

theorem allKeyed_of_watched {site : Site} {uploadMaxBytes : Nat} {p : Pipeline}
    {firsts : Firsts Pipeline} {sys : PipelineSystem}
    {admits : Firsts Pipeline → PipelineSystem → PipelineEvent → Prop} (keyed : p.Keyed)
    (reached : Watched (pipelineBody site uploadMaxBytes) admits (fun _ => none) p.idle firsts sys) :
    AllKeyed firsts sys :=
  reached.invariant ⟨keyed, fun _ _ first => nomatch first⟩
    fun _ _ _ _ _ step held => allKeyed_step step held

/-- While no status is published over another than the job first saw, the status of a batch only
ever moves along the edges of the table. -/
theorem import_batches_move_forward {site : Site} {uploadMaxBytes : Nat} {p : Pipeline}
    {firsts firstsLater : Firsts Pipeline} {earlier later : PipelineSystem} {before : BatchStatus}
    (keyed : p.Keyed)
    (reached : Watched (pipelineBody site uploadMaxBytes) (Unmoved batchID) (fun _ => none) p.idle
      firsts earlier)
    (onward : Watched (pipelineBody site uploadMaxBytes) (Unmoved batchID) firsts earlier
      firstsLater later)
    (now : earlier.committed.statusOf batchID = some before) :
    ∃ next, later.committed.statusOf batchID = some next ∧ MovesTo before next ∧
      (Terminal before → next = before) := by
  induction onward with
  | refl => exact ⟨before, now, .refl, fun _ => rfl⟩
  | step watched admitted fired ih =>
      obtain ⟨middle, known, path, -⟩ := ih
      have there := reached.trans watched
      have bound : Each (Client.Bound (Onward batchID)) _ _ := there.bound (fun entry => pipelineBody_first site uploadMaxBytes entry) rfl
      obtain ⟨next, set, moves⟩ := forward_step bound (allKeyed_of_watched keyed there) admitted
        (step_of_fire fired) known
      have whole : MovesTo before next := path.trans moves
      exact ⟨next, set, whole, fun terminal => whole.of_terminal terminal⟩

/-! ## A batch confirmed twice -/

instance (batchID : UUID) (firsts : Firsts Pipeline) (sys : PipelineSystem)
    (event : PipelineEvent) : Decidable (Unmoved batchID firsts sys event) :=
  match event with
  | .publish i => inferInstanceAs (Decidable (setsStatus batchID (sys.writesOf i) = true →
      (firsts i).map (·.statusOf batchID) = some (sys.committed.statusOf batchID)))
  | .spawn _ | .jump _ | .exec _ | .check _ | .rollback _ | .answer _ _ | .fault _ _ | .crash _ =>
      inferInstanceAs (Decidable True)

/-- A batch whose file is uploaded, before anybody confirms it. -/
def reservedBatch : Pipeline where
  ledger := { Database.empty "BYN" with
    members := [⟨7, .owner⟩]
    batches := [⟨1, 1, .bank, .awaitingUpload, none, none⟩] }
  rawRows := []
  validations := []
  queue := []

def confirmEvents (i : Nat) : List PipelineEvent := [
  .spawn (.confirmImportUpload 7 1), .jump i, .exec i, .check i, .publish i,
  .exec i, .exec i, .check i, .publish i]

/-- An attempt at a job up to its request for the object. -/
def attemptEvents (i number : Nat) (task : Task) : List PipelineEvent := [
  .spawn (.work number ⟨task, 1⟩ (sampleDraws (100 * (i + 1)))), .jump i, .exec i, .check i,
  .publish i]

def objectEvents (i : Nat) : List PipelineEvent := [
  .answer i (.present true), .answer i (.content (some ⟨64, "digest"⟩))]

/-- The digest is not that of an imported batch, and is recorded. -/
def recordEvents (i : Nat) : List PipelineEvent := [
  .exec i, .check i, .publish i, .exec i, .exec i, .check i, .publish i]

def landEvents (i : Nat) : List PipelineEvent := [
  .answer i (.validated (some (sampleStatement, ⟨.valid, 1, [], [], none⟩))),
  .exec i, .exec i, .exec i, .exec i, .exec i, .exec i, .check i, .publish i]

def importEvents (i : Nat) : List PipelineEvent := [
  .answer i (.core (.statement (some sampleStatement))),
  .exec i, .exec i, .exec i, .exec i, .exec i, .exec i, .check i, .publish i]

/-- One confirm, and each job it leads to, one after another. -/
def confirmedOnceEvents : List PipelineEvent :=
  confirmEvents 0 ++ attemptEvents 1 0 .measureUpload ++ objectEvents 1 ++ recordEvents 1 ++
    attemptEvents 2 1 .validateImport ++ landEvents 2 ++ attemptEvents 3 2 .persistImport ++
    importEvents 3

/-- Two confirms. The second measurement has read the batch as uploaded when the others import it. -/
def confirmedTwiceEvents : List PipelineEvent :=
  confirmEvents 0 ++ confirmEvents 1 ++
    attemptEvents 2 0 .measureUpload ++ objectEvents 2 ++ recordEvents 2 ++
    attemptEvents 3 1 .measureUpload ++ objectEvents 3 ++
    attemptEvents 4 2 .validateImport ++ landEvents 4 ++
    attemptEvents 5 3 .persistImport ++ importEvents 5

/-- It then finds the file imported, by this very batch. -/
def resurrectEvents : List PipelineEvent := [
  .exec 3, .check 3, .publish 3, .exec 3, .check 3, .publish 3]

theorem import_batches_move_forward_sample :
    ∃ firsts firstsLater earlier later,
      Watched (pipelineBody sampleSite 100) (Unmoved 1) (fun _ => none) reservedBatch.idle
        firsts earlier ∧
      Watched (pipelineBody sampleSite 100) (Unmoved 1) firsts earlier firstsLater later ∧
      (∃ next, later.committed.statusOf 1 = some next ∧ MovesTo .awaitingUpload next ∧
        (Terminal .awaitingUpload → next = .awaitingUpload)) ∧
      later.committed.statusOf 1 = some .imported := by
  have evaluated : (fireAll (pipelineBody sampleSite 100) reservedBatch.idle
      confirmedOnceEvents).map (fun sys => sys.committed.statusOf 1) = some (some .imported) := by
    decide +kernel
  obtain ⟨later, fired, imported⟩ := Option.map_eq_some_iff.mp evaluated
  obtain ⟨firsts, watched⟩ : ∃ firsts, Watched (pipelineBody sampleSite 100) (Unmoved 1)
      (fun _ => none) reservedBatch.idle firsts later := Watched.of_fireAll (by decide +kernel) fired
  exact ⟨_, firsts, _, later, .refl, watched,
    import_batches_move_forward (by decide) .refl watched (by decide), imported⟩

theorem imported_batch_fails :
    ¬ ∀ (earlier later : PipelineSystem) (before : BatchStatus),
      Run (pipelineBody sampleSite 100) (fun _ _ => True) reservedBatch.idle earlier →
      Run (pipelineBody sampleSite 100) (fun _ _ => True) earlier later →
      earlier.committed.statusOf 1 = some before →
      ∃ next, later.committed.statusOf 1 = some next ∧ MovesTo before next ∧
        (Terminal before → next = before) := by
  intro claimed
  have evaluated : ((fireAll (pipelineBody sampleSite 100) reservedBatch.idle
      confirmedTwiceEvents).bind fun earlier =>
        (fireAll (pipelineBody sampleSite 100) earlier resurrectEvents).map fun later =>
          (earlier.committed.statusOf 1, later.committed.statusOf 1)) =
      some (some .imported, some .failed) := by decide +kernel
  obtain ⟨earlier, fired, evaluated⟩ := Option.bind_eq_some_iff.mp evaluated
  obtain ⟨later, resurrected, statuses⟩ := Option.map_eq_some_iff.mp evaluated
  obtain ⟨imported, failed⟩ := Prod.mk.inj statuses
  have first := Run.of_fireAll (admitsAll fun _ _ => trivial) fired
  have second := Run.of_fireAll (admitsAll fun _ _ => trivial) resurrected
  obtain ⟨next, now, -, stays⟩ := claimed earlier later .imported first second imported
  obtain rfl := stays rfl
  rw [failed] at now
  cases now

end Vekst.Ingest
