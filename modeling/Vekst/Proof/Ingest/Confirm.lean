import Vekst.Isolation.Rehearse
import Vekst.Proof.Ingest.Forward

namespace Vekst.Ingest
open Isolation Ledger

/-! ## What the jobs of a batch read -/

/-- All of the pipeline but the queue, of which it is only known whether the batch's later jobs are
in it. -/
structure Core where
  ledger : Database
  rawRows : List RawRow
  validations : List ValidationRow
  validateQueued : Bool
  persistQueued : Bool

def Pipeline.core (batchID : UUID) (p : Pipeline) : Core where
  ledger := p.ledger
  rawRows := p.rawRows
  validations := p.validations
  validateQueued := p.queue.contains ⟨.validateImport, batchID⟩
  persistQueued := p.queue.contains ⟨.persistImport, batchID⟩

variable {batchID : UUID}

theorem core_ledger {p q : Pipeline} (same : p.core batchID = q.core batchID) :
    p.ledger = q.ledger := congrArg Core.ledger same

theorem core_respects (batchID : UUID) : Respects (Pipeline.core batchID) where
  apply p q change same := by
    obtain ⟨ledger, rawRows, validations, queue⟩ := p
    obtain ⟨ledger', rawRows', validations', queue'⟩ := q
    simp only [Pipeline.core, Core.mk.injEq] at same
    obtain ⟨rfl, rfl, rfl, validates, persists⟩ := same
    cases change <;> simp_all [Pipeline.core, Store.apply, Pipeline.apply]
  check p q changes same := by
    change oneLivePerTransaction p.ledger _ = oneLivePerTransaction q.ledger _
    rw [core_ledger same]

/-- The object a browser uploaded, with what its parse and validation give. -/
structure UploadedObject where
  content : Content
  parsed : Option (Statement × (Timestamp → ValidationResult))

/-- An object over the limit, which a measurement deletes. -/
def TooLarge (uploadMaxBytes : Nat) (object : Option UploadedObject) : Prop :=
  ∃ o, object = some o ∧ uploadMaxBytes < o.content.length

/-- The store holds the object unchanged, unless a measurement deletes it for its size. -/
def StoreAnswers (uploadMaxBytes : Nat) (object : Option UploadedObject) :
    StoreQuestion → StoreReply → Prop
  | .head _, .present found =>
      found = object.isSome ∨ TooLarge uploadMaxBytes object ∧ found = false
  | .get _, .content found =>
      found = object.map (·.content) ∨ TooLarge uploadMaxBytes object ∧ found = none
  | .delete _, .deleted => True
  | .validate _ now, .validated parsed =>
      ∃ o, object = some o ∧ parsed = o.parsed.map fun result => (result.1, result.2 now)
  | .core (.object _), .core (.statement parsed) =>
      ∃ o, object = some o ∧ parsed = o.parsed.map Prod.fst
  | _, _ => False

/-- Connections are lost and deadlines pass; a status is written by a job's last commit alone. -/
def importScript (batchID : UUID) (uploadMaxBytes : Nat) (object : Option UploadedObject)
    (α : Type) : Script Pipeline Core Change Failure StoreQuestion StoreReply (Except Failure α) where
  core := Pipeline.core batchID
  answers := StoreAnswers uploadMaxBytes object
  lost e := e = .transient
  gaveUp outcome := ∃ e, outcome = .error e
  marked changes := setsStatus batchID changes = true

/-! ## The attempts are rehearsed -/

section Rehearsed

variable {uploadMaxBytes : Nat} {object : Option UploadedObject}

theorem setsStatus_append (earlier later : List Change) :
    setsStatus batchID (earlier ++ later) = (setsStatus batchID earlier || setsStatus batchID later) :=
  List.any_append

theorem exists_of_exactlyOneRow {α : Type} {rows : List α}
    (one : exactlyOneRow rows.length = .ok ()) : ∃ row, row ∈ rows := by
  cases rows with
  | nil => cases one
  | cons row rows => exact ⟨row, by simp⟩

theorem marks_updates {pending : List Change} {rows : List ImportBatchRow}
    (own : ∀ row ∈ rows, row.id = batchID) (one : exactlyOneRow rows.length = .ok ()) :
    setsStatus batchID (pending ++ (rows.map Write.updateBatch).map Change.ledger) = true := by
  obtain ⟨row, member⟩ := exists_of_exactlyOneRow one
  apply setsStatus_of_mem _ (own row member)
  rw [List.map_map]
  exact List.mem_append_right _ (List.mem_map_of_mem member)

theorem marks_setImportBatchStatus (status : BatchStatus) (failureCode : Option String)
    (pending : List Change) :
    (onLedger (setImportBatchStatus batchID status failureCode)).wp (fun _ _ _ => True)
      (fun affected changes => exactlyOneRow affected = .ok () →
        setsStatus batchID changes = true) pending := by
  rw [onLedger, setImportBatchStatus, Prog.lift_exec]
  apply Prog.wp_exec
  intro p changes affected success
  obtain ⟨⟨writes, count⟩, updated, same⟩ := map_ok.mp success
  obtain ⟨rfl, rfl⟩ := Prod.mk.inj same
  obtain ⟨_, -, made⟩ := bind_ok.mp updated
  obtain ⟨rfl, rfl⟩ := Prod.mk.inj (Except.ok.inj made)
  refine ⟨trivial, marks_updates fun row member => ?_⟩
  obtain ⟨old, chosen, rfl⟩ := List.mem_map.mp member
  exact of_decide_eq_true (List.mem_filter.mp chosen).2

theorem onLedger_blind {α : Type} (p : Tx α) : (onLedger p).Blind (Pipeline.core batchID) :=
  Prog.blind_lift (fun _ _ => core_ledger) p

theorem enqueue_blind (task : Task) (owner : UUID) :
    (enqueue task owner).Blind (Pipeline.core batchID) :=
  Prog.blind_exec fun _ _ _ => rfl

/-- A commit that only the last transaction of an attempt makes. -/
theorem tame_last {p : PipelineTx Unit} (blind : p.Blind (Pipeline.core batchID))
    (marks : p.wp (fun _ _ _ => True) (fun _ changes => setsStatus batchID changes = true) []) :
    (inTx .done p : Attempt).Tame (importScript batchID uploadMaxBytes object Unit) [] := by
  refine tame_inTx blind (Prog.wp_mono marks fun _ changes marked => ?_) (fun e => trivial) ?_
  · exact ⟨.inr ⟨marked, _, rfl⟩, trivial⟩
  · intro e _
    exact ⟨e, rfl⟩

theorem tame_fail (code : String) :
    (fail batchID code).Tame (importScript batchID uploadMaxBytes object Unit) [] := by
  refine tame_last (Prog.blind_bind (onLedger_blind _) fun _ => Prog.blind_ofExcept _) ?_
  apply Prog.wp_bind
  refine Prog.wp_mono (marks_setImportBatchStatus _ _ _) fun affected changes marked => ?_
  exact Prog.wp_ofExcept fun _ one => marked one

theorem marks_recordUploadMeasurement (content : Content) (pending : List Change) :
    (onLedger (recordUploadMeasurement batchID content)).wp (fun _ _ _ => True)
      (fun affected changes => exactlyOneRow affected = .ok () →
        setsStatus batchID changes = true) pending := by
  rw [onLedger, recordUploadMeasurement, Prog.lift_exec]
  apply Prog.wp_exec
  intro p changes affected success
  obtain ⟨⟨writes, count⟩, updated, same⟩ := map_ok.mp success
  obtain ⟨rfl, rfl⟩ := Prod.mk.inj same
  obtain ⟨_, -, made⟩ := bind_ok.mp updated
  obtain ⟨rfl, rfl⟩ := Prod.mk.inj (Except.ok.inj made)
  refine ⟨trivial, marks_updates fun row member => ?_⟩
  obtain ⟨old, chosen, rfl⟩ := List.mem_map.mp member
  exact of_decide_eq_true (List.mem_filter.mp chosen).2

/-- Whatever follows a marked prefix leaves it marked. -/
theorem marks_rest {α : Type} (p : PipelineTx α) {pending : List Change}
    (marked : setsStatus batchID pending = true) :
    p.wp (fun _ _ _ => True) (fun _ changes => setsStatus batchID changes = true) pending := by
  induction p generalizing pending with
  | ret answer => exact marked
  | fail e => trivial
  | stmt emit next ih =>
      intro p more _
      exact ⟨trivial, ih p (by rw [setsStatus_append, marked, Bool.true_or])⟩

theorem tame_recordMeasurement (content : Content) :
    (inTx .done (recordMeasurement batchID content) : Attempt).Tame
      (importScript batchID uploadMaxBytes object Unit) [] := by
  refine tame_last (Prog.blind_bind (onLedger_blind _) fun _ =>
    Prog.blind_bind (Prog.blind_ofExcept _) fun _ => enqueue_blind _ _) ?_
  apply Prog.wp_bind
  refine Prog.wp_mono (marks_recordUploadMeasurement _ _) fun affected changes marked => ?_
  apply Prog.wp_bind
  exact Prog.wp_ofExcept fun _ one => marks_rest _ (marked one)

/-- A query of the ledger in a transaction of its own. -/
theorem tame_ledgerQuery {α β : Type} {next : Except Failure α → Isolation.Job Pipeline Change
      Failure StoreQuestion StoreReply Entry (Except Failure β)} (f : Database → Except Failure α)
    (rest : ∀ d answer, f d = .ok answer →
      (next (.ok answer)).Tame (importScript batchID uploadMaxBytes object β) [])
    (failed : ∀ e, (next (.error e)).Tame (importScript batchID uploadMaxBytes object β) [])
    (struck : ∃ e, next (.error .transient) = .done (.error e)) :
    (inTx next (onLedger (Prog.query f))).Tame
      (importScript batchID uploadMaxBytes object β) [] := by
  rw [onLedger, Prog.lift_query]
  refine tame_query (fun p q same => ?_) (fun p => rest p.ledger) failed ?_
  · rw [core_ledger same]
  · rintro e rfl
    obtain ⟨e, gives⟩ := struck
    rw [gives]
    exact ⟨e, rfl⟩

theorem tame_withBatch {work : ImportBatchRow → Attempt}
    (works : ∀ batch, (work batch).Tame (importScript batchID uploadMaxBytes object Unit) []) :
    (withBatch batchID work).Tame (importScript batchID uploadMaxBytes object Unit) [] := by
  refine tame_ledgerQuery _ (fun _ batch _ => works batch) (fun e => ?_) ⟨_, rfl⟩
  cases e <;> trivial

theorem tame_measureContent (content : Content) :
    (measureContent uploadMaxBytes batchID content).Tame
      (importScript batchID uploadMaxBytes object Unit) [] := by
  unfold measureContent
  split
  next =>
    refine ⟨fun response => ?_, fun e _ => ⟨e, rfl⟩⟩
    dsimp only
    split
    · exact tame_fail _
    · trivial
    · trivial
  next =>
    refine tame_ledgerQuery _ (fun _ holder _ => ?_) (fun e => trivial) ⟨_, rfl⟩
    cases holder with
    | some _ => exact tame_fail _
    | none => exact tame_recordMeasurement content

theorem tame_measureUpload :
    (measureUpload uploadMaxBytes batchID).Tame
      (importScript batchID uploadMaxBytes object Unit) [] := by
  refine tame_withBatch fun batch => ?_
  unfold measureBatch
  split
  next => trivial
  next =>
    refine ⟨fun response => ?_, fun e _ => ⟨e, rfl⟩⟩
    dsimp only
    split
    · exact tame_fail _
    · refine ⟨fun response => ?_, fun e _ => ⟨e, rfl⟩⟩
      dsimp only
      split
      · exact tame_fail _
      · exact tame_measureContent _
      · trivial
      · trivial
    · trivial
    · trivial

theorem landBatch_blind (draws : Draws) (batch : ImportBatchRow) (st : Statement)
    (found : ValidationResult) :
    (landBatch draws batch batchID st found).Blind (Pipeline.core batchID) := by
  refine Prog.blind_bind ?_ fun _ => Prog.blind_bind ?_ fun result => Prog.blind_bind ?_ fun _ =>
    Prog.blind_bind (Prog.blind_ofExcept _) fun _ => Prog.blind_bind (onLedger_blind _) fun affected =>
      Prog.blind_bind (Prog.blind_ofExcept _) fun _ => ?_
  · unfold persistRawRows
    split
    next => trivial
    next =>
      apply Prog.blind_exec
      intro p q same
      have stored : p.rawRows = q.rawRows := congrArg Core.rawRows same
      rw [core_ledger same, stored]
  · unfold resolveInto
    split
    next => trivial
    next => exact Prog.blind_bind (onLedger_blind _) fun _ => trivial
  · apply Prog.blind_exec
    intro p q same
    have stored : p.validations = q.validations := congrArg Core.validations same
    unfold checkValidation
    rw [core_ledger same, stored]
  · split
    · exact enqueue_blind _ _
    · trivial

theorem tame_validateImport (draws : Draws) :
    (validateImport batchID draws).Tame (importScript batchID uploadMaxBytes object Unit) [] := by
  refine tame_withBatch fun batch => ?_
  unfold validateBatch
  split
  next => trivial
  next =>
    refine ⟨fun response => ?_, fun e _ => ⟨e, rfl⟩⟩
    dsimp only
    split
    · exact tame_fail _
    · refine tame_last (landBatch_blind _ _ _ _) ?_
      have anything {α : Type} (p : PipelineTx α) (pending : List Change) :
          p.wp (fun _ _ _ => True) (fun _ _ => True) pending :=
        Prog.wp_true (fun _ _ _ => trivial) p pending
      apply Prog.wp_bind
      refine Prog.wp_mono (anything _ _) fun _ pending _ => ?_
      apply Prog.wp_bind
      refine Prog.wp_mono (anything _ _) fun result pending _ => ?_
      apply Prog.wp_bind
      refine Prog.wp_mono (anything _ _) fun _ pending _ => ?_
      apply Prog.wp_bind
      refine Prog.wp_mono (anything _ _) fun _ pending _ => ?_
      apply Prog.wp_bind
      refine Prog.wp_mono (marks_setImportBatchStatus _ _ _) fun affected pending marked => ?_
      apply Prog.wp_bind
      exact Prog.wp_ofExcept fun _ one => marks_rest _ (marked one)
    · trivial
    · trivial

theorem marks_persistRows (site : Site) (draws : Draws) (batch : ImportBatchRow) (st : Statement) :
    (persistRows site draws batch st).wp (fun _ _ _ => True)
      (fun _ writes => ∃ row, .updateBatch row ∈ writes ∧ row.id = batch.id) [] := by
  have anything {α : Type} (p : Tx α) (pending : List Write) :
      p.wp (fun _ _ _ => True) (fun _ _ => True) pending :=
    Prog.wp_true (fun _ _ _ => trivial) p pending
  apply Prog.wp_bind
  refine Prog.wp_mono (anything _ _) fun _ pending _ => ?_
  apply Prog.wp_bind
  refine Prog.wp_mono (anything _ _) fun _ pending _ => ?_
  apply Prog.wp_bind
  refine Prog.wp_mono (anything _ _) fun _ pending _ => ?_
  apply Prog.wp_bind
  refine Prog.wp_mono (anything _ _) fun _ pending _ => ?_
  apply Prog.wp_bind
  refine Prog.wp_mono (anything _ _) fun _ pending _ => ?_
  apply Prog.wp_bind
  refine Prog.wp_mono (anything _ _) fun _ pending _ => ?_
  apply Prog.wp_bind
  refine Prog.wp_mono (anything _ _) fun _ pending _ => ?_
  apply Prog.wp_bind
  refine Prog.wp_mono (anything _ _) fun _ pending _ => ?_
  apply Prog.wp_bind
  apply Prog.wp_exec
  intro d writes affected success
  obtain ⟨_, -, made⟩ := bind_ok.mp success
  obtain ⟨rfl, rfl⟩ := Prod.mk.inj (Except.ok.inj made)
  refine ⟨trivial, ?_⟩
  apply Prog.wp_bind
  apply Prog.wp_ofExcept
  intro _ one
  obtain ⟨row, member⟩ := exists_of_exactlyOneRow one
  have own : row.id = batch.id := by
    obtain ⟨old, chosen, rfl⟩ := List.mem_map.mp member
    exact of_decide_eq_true (List.mem_filter.mp chosen).2
  apply Prog.wp_exec
  intro d writes _ success
  obtain ⟨rfl, -⟩ := Prod.mk.inj (Except.ok.inj success)
  refine ⟨trivial, row, ?_, own⟩
  exact List.mem_append_left _ (List.mem_append_right _ (List.mem_map_of_mem member))

theorem marks_failImport (code : String) :
    (do
      let affected ← setImportBatchStatus batchID .failed (some code)
      Prog.ofExcept (exactlyOneRow affected) : Tx Unit).wp (fun _ _ _ => True)
        (fun _ writes => ∃ row, .updateBatch row ∈ writes ∧ row.id = batchID) [] := by
  apply Prog.wp_bind
  apply Prog.wp_exec
  intro d writes affected success
  obtain ⟨_, -, made⟩ := bind_ok.mp success
  obtain ⟨rfl, rfl⟩ := Prod.mk.inj (Except.ok.inj made)
  refine ⟨trivial, ?_⟩
  apply Prog.wp_ofExcept
  intro _ one
  obtain ⟨row, member⟩ := exists_of_exactlyOneRow one
  have own : row.id = batchID := by
    obtain ⟨old, chosen, rfl⟩ := List.mem_map.mp member
    exact of_decide_eq_true (List.mem_filter.mp chosen).2
  exact ⟨row, List.mem_map_of_mem member, own⟩

/-- A last commit of the ledger's own statements. -/
theorem tame_lastLedger {next : Except Failure Unit → Attempt} {p : Tx Unit}
    (marks : p.wp (fun _ _ _ => True)
      (fun _ writes => ∃ row, .updateBatch row ∈ writes ∧ row.id = batchID) [])
    (last : ∃ outcome, next (.ok ()) = .done outcome)
    (failed : ∀ e, (next (.error e)).Tame (importScript batchID uploadMaxBytes object Unit) [])
    (struck : ∃ e, next (.error .transient) = .done (.error e)) :
    (inTx next (onLedger p)).Tame (importScript batchID uploadMaxBytes object Unit) [] := by
  refine tame_inTx (onLedger_blind p) ?_ failed ?_
  · have larger : (onLedger p).wp (fun _ _ _ => True) _ [] := Prog.wp_lift marks
    refine Prog.wp_mono larger ?_
    rintro _ _ ⟨writes, rfl, row, member, own⟩
    refine ⟨.inr ⟨setsStatus_of_mem (List.mem_map_of_mem member) own, last⟩, ?_⟩
    obtain ⟨outcome, gives⟩ := last
    rw [gives]
    trivial
  · rintro e rfl
    obtain ⟨e, gives⟩ := struck
    rw [gives]
    exact ⟨e, rfl⟩

theorem tame_failImport (code : String) :
    ((failImport batchID code).lift amongPipeline).Tame
      (importScript batchID uploadMaxBytes object Unit) [] := by
  rw [failImport, lift_inTx]
  exact tame_lastLedger (marks_failImport code) ⟨_, rfl⟩ (fun e => trivial) ⟨_, rfl⟩

theorem tame_persistImport (site : Site) (draws : Draws) :
    ((persistImport site batchID draws).lift amongPipeline).Tame
      (importScript batchID uploadMaxBytes object Unit) [] := by
  rw [persistImport, lift_inTx]
  refine tame_ledgerQuery _ (fun d batch found => ?_) (fun e => ?_) ⟨_, rfl⟩
  · obtain rfl := (getImportBatch_ok found).2
    dsimp only
    unfold persistBatch
    split
    next => trivial
    next =>
      refine ⟨fun response => ?_, fun e _ => ⟨e, rfl⟩⟩
      dsimp only
      split
      · trivial
      · trivial
      · exact tame_failImport _
      · rw [lift_inTx]
        refine tame_lastLedger (marks_persistRows site draws batch _) ⟨_, rfl⟩ (fun e => ?_) ⟨_, rfl⟩
        dsimp only
        split
        · exact tame_failImport _
        · trivial
  · cases e <;> trivial

theorem opens_ledgerQuery {α β : Type} {next : Except Failure α → Isolation.Job Pipeline Change
      Failure StoreQuestion StoreReply Entry (Except Failure β)} (f : Database → Except Failure α) :
    ∃ emit rest, inTx next (onLedger (Prog.query f)) = .stmt emit rest := by
  rw [onLedger, Prog.lift_query]
  simp [Prog.query, inTx]

theorem rehearsed_attempt (site : Site) (task : Task) (draws : Draws) :
    Rehearsed (importScript batchID uploadMaxBytes object Unit)
      (attempt site uploadMaxBytes ⟨task, batchID⟩ draws) := by
  cases task with
  | measureUpload => exact ⟨opens_ledgerQuery _, tame_measureUpload⟩
  | validateImport => exact ⟨opens_ledgerQuery _, tame_validateImport draws⟩
  | persistImport =>
      refine ⟨?_, tame_persistImport site draws⟩
      change ∃ emit next, (persistImport site batchID draws).lift amongPipeline = .stmt emit next
      rw [persistImport, lift_inTx]
      exact opens_ledgerQuery _

theorem enqueue_quiet (owner : UUID) : Quiet (Pipeline.core batchID)
    [Change.enqueue ⟨.measureUpload, owner⟩] := by
  intro p
  simp [Pipeline.core, visible, Store.apply, Pipeline.apply]

theorem rehearsed_confirm (userID owner : UUID) :
    Rehearsed (importScript batchID uploadMaxBytes object Finished)
      (confirmImportUpload userID owner) := by
  refine ⟨opens_ledgerQuery _, tame_ledgerQuery _ (fun _ _ _ => ?_) (fun e => trivial) ⟨_, rfl⟩⟩
  refine tame_inTx (Prog.blind_bind (onLedger_blind _) fun batch =>
    Prog.blind_bind (enqueue_blind _ _) fun _ => trivial) ?_ (fun e => ?_) ?_
  · apply Prog.wp_bind
    rw [onLedger, Prog.lift_query]
    apply Prog.wp_query
    intro p batch _
    refine ⟨trivial, ?_⟩
    apply Prog.wp_bind
    apply Prog.wp_exec
    intro p changes _ success
    obtain ⟨rfl, -⟩ := Prod.mk.inj (Except.ok.inj success)
    exact ⟨trivial, .inl (enqueue_quiet owner), trivial⟩
  · cases e <;> trivial
  · rintro e rfl
    exact ⟨_, rfl⟩

end Rehearsed

end Vekst.Ingest
