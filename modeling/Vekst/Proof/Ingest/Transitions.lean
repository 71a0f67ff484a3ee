import Mathlib.Logic.Relation
import Vekst.Ingest.Upload
import Vekst.Isolation.Watch
import Vekst.Proof.Ledger.Emitted

namespace Vekst.Ingest
open Isolation Ledger

/-! ## The edges of the table -/

/-- A path of edges of the transitions table. -/
def MovesTo : BatchStatus → BatchStatus → Prop :=
  Relation.ReflTransGen fun status next => next ∈ transitions status

def Terminal (status : BatchStatus) : Prop := transitions status = []

theorem MovesTo.of_terminal {status next : BatchStatus} (terminal : Terminal status)
    (moves : MovesTo status next) : next = status := by
  cases moves.cases_head with
  | inl same => exact same.symm
  | inr first =>
      obtain ⟨_, edge, -⟩ := first
      rw [terminal] at edge
      cases edge

theorem movesTo_of_edge {status next : BatchStatus} (edge : next ∈ transitions status) :
    MovesTo status next := .single edge

theorem movesTo_failed {status : BatchStatus} (live : .failed ∈ transitions status) :
    MovesTo status .failed := movesTo_of_edge live

theorem uploaded_movesTo {next : BatchStatus} (last : next ∈ transitions .validating) :
    MovesTo .uploaded next :=
  (movesTo_of_edge (by decide : .parsing ∈ transitions .uploaded)).trans <|
    (movesTo_of_edge (by decide : .parsed ∈ transitions .parsing)).trans <|
      (movesTo_of_edge (by decide : .validating ∈ transitions .parsed)).trans (movesTo_of_edge last)

theorem validated_movesTo_imported : MovesTo .validated .imported :=
  (movesTo_of_edge (by decide : .persisting ∈ transitions .validated)).trans
    (movesTo_of_edge (by decide : .imported ∈ transitions .persisting))

/-! ## The status under pending changes -/

theorem find_replaceBy (row : ImportBatchRow) (rows : List ImportBatchRow) (batchID : UUID) :
    (replaceBy (·.id) row rows).find? (·.id = batchID) =
      (rows.find? (·.id = batchID)).map fun old => if old.id = row.id then row else old := by
  rw [replaceBy, List.find?_map]
  congr 1
  congr 1
  funext old
  by_cases same : old.id = row.id <;> simp [same]

theorem statusOf_apply (p : Pipeline) (change : Change) (batchID : UUID) :
    (p.apply change).statusOf batchID = p.statusOf batchID ∨
      ∃ row, change = .ledger (.updateBatch row) ∧ row.id = batchID ∧
        (p.statusOf batchID).isSome ∧ (p.apply change).statusOf batchID = some row.status := by
  cases change with
  | ledger write =>
      cases write with
      | updateBatch row =>
          unfold Pipeline.statusOf
          simp only [Pipeline.apply, Database.apply, find_replaceBy]
          cases found : p.ledger.batches.find? (·.id = batchID) with
          | none => exact .inl rfl
          | some old =>
              have own : old.id = batchID := by simpa using List.find?_some found
              by_cases same : old.id = row.id
              · exact .inr ⟨row, rfl, same ▸ own, rfl, by simp [same]⟩
              · exact .inl (by simp [same])
      | _ => exact .inl rfl
  | _ => exact .inl rfl

theorem statusOf_visible (p : Pipeline) (changes : List Change) (batchID : UUID) :
    (visible p changes).statusOf batchID = p.statusOf batchID ∨
      ∃ row, .ledger (.updateBatch row) ∈ changes ∧ row.id = batchID ∧
        (p.statusOf batchID).isSome ∧ (visible p changes).statusOf batchID = some row.status := by
  induction changes generalizing p with
  | nil => exact .inl rfl
  | cons change changes ih =>
      have first := statusOf_apply p change batchID
      rcases ih (p.apply change) with same | ⟨row, member, own, there, set⟩
      · rcases first with unmoved | ⟨row, rfl, own, there, set⟩
        · exact .inl (same.trans unmoved)
        · exact .inr ⟨row, by simp, own, there, same.trans set⟩
      · refine .inr ⟨row, List.mem_cons_of_mem _ member, own, ?_, set⟩
        rcases first with unmoved | ⟨_, -, -, known, -⟩
        · exact unmoved ▸ there
        · exact known

def Pipeline.batchIDs (p : Pipeline) : List UUID := p.ledger.batches.map (·.id)

/-- `import_batches` has its primary key. -/
def Pipeline.Keyed (p : Pipeline) : Prop := p.batchIDs.Nodup

instance (p : Pipeline) : Decidable p.Keyed := inferInstanceAs (Decidable (List.Nodup _))

theorem batchIDs_apply (p : Pipeline) (change : Change) :
    (p.apply change).batchIDs = p.batchIDs := by
  cases change with
  | ledger write =>
      cases write with
      | updateBatch row =>
          exact replaceBy_ids (·.id) row p.ledger.batches
      | _ => rfl
  | _ => rfl

theorem Pipeline.Keyed.visible {p : Pipeline} (keyed : p.Keyed) (changes : List Change) :
    (visible p changes).Keyed := by
  have same : (Isolation.visible p changes).batchIDs = p.batchIDs :=
    visible_eq batchIDs_apply p changes
  rw [Keyed, same]
  exact keyed

theorem Pipeline.Keyed.find {p : Pipeline} (keyed : p.Keyed) {row : ImportBatchRow}
    (member : row ∈ p.ledger.batches) : p.ledger.batches.find? (·.id = row.id) = some row := by
  cases found : p.ledger.batches.find? (·.id = row.id) with
  | none => simpa using List.find?_eq_none.mp found row member
  | some other =>
      have same : other.id = row.id := by simpa using List.find?_some found
      exact congrArg some
        (List.inj_on_of_nodup_map keyed (List.mem_of_find?_eq_some found) member same)

/-! ## The statuses a job may write -/

/-- Only this batch is written, and only ever given one of the statuses. -/
def Sets (batchID : UUID) (statuses : List BatchStatus) (change : Change) : Prop :=
  ∀ row, change = .ledger (.updateBatch row) → row.id = batchID ∧ row.status ∈ statuses

theorem Sets.mono {batchID : UUID} {few more : List BatchStatus} {change : Change}
    (sets : Sets batchID few change) (subset : few ⊆ more) : Sets batchID more change :=
  fun row same => ⟨(sets row same).1, subset (sets row same).2⟩

/-- What may be written by a job that first saw the state: statuses the batch's leads to. -/
def Onward (batchID : UUID) (p : Pipeline) (change : Change) : Prop :=
  ∀ row, change = .ledger (.updateBatch row) → row.id = batchID → p.Keyed →
    ∀ before, p.statusOf batchID = some before → MovesTo before row.status

abbrev SetsAll (batchID : UUID) (statuses : List BatchStatus) (_ : Pipeline)
    (changes : List Change) : Prop :=
  ∀ change ∈ changes, Sets batchID statuses change

/-- The same of the ledger's own writes. -/
def LedgerSets (batchID : UUID) (statuses : List BatchStatus) (_ : Database)
    (writes : List Write) : Prop :=
  ∀ row, .updateBatch row ∈ writes → row.id = batchID ∧ row.status ∈ statuses

theorem ledgerSets_mono {batchID : UUID} {few more : List BatchStatus} {α : Type} {p : Tx α}
    (emits : p.Emits (LedgerSets batchID few)) (subset : few ⊆ more) :
    p.Emits (LedgerSets batchID more) :=
  emits.mono fun _ _ sets row member => ⟨(sets row member).1, subset (sets row member).2⟩

theorem onLedger_sets {α : Type} {batchID : UUID} {statuses : List BatchStatus} {p : Tx α}
    (emits : p.Emits (LedgerSets batchID statuses)) :
    (onLedger p).Emits (SetsAll batchID statuses) := by
  apply Prog.emits_lift emits
  intro s writes allowed change member row same
  obtain ⟨write, known, rfl⟩ := List.mem_map.mp member
  obtain rfl := Change.ledger.inj same
  exact allowed row known

theorem enqueue_sets (owner : UUID) (statuses : List BatchStatus) (task : Task) (batchID : UUID) :
    (enqueue task batchID).Emits (SetsAll owner statuses) := by
  apply Prog.emits_exec
  intro d writes answer success
  obtain ⟨rfl, -⟩ := Prod.mk.inj (Except.ok.inj success)
  intro change member row same
  rw [List.mem_singleton.mp member] at same
  cases same

theorem setImportBatchStatus_sets (batchID : UUID) (status : BatchStatus)
    (failureCode : Option String) :
    (setImportBatchStatus batchID status failureCode).Emits (LedgerSets batchID [status]) := by
  apply setImportBatchStatus_emits
  intro d rows made row member
  obtain ⟨_, known, same⟩ := List.mem_map.mp member
  obtain rfl := Write.updateBatch.inj same
  obtain ⟨_, -, own, rfl⟩ := made _ known
  exact ⟨own, List.mem_singleton_self _⟩

theorem setStatus_sets (batchID : UUID) (status : BatchStatus) (failureCode : Option String) :
    (do
      let affected ← onLedger (setImportBatchStatus batchID status failureCode)
      Prog.ofExcept (exactlyOneRow affected) : PipelineTx Unit).Emits (SetsAll batchID [status]) :=
  Prog.emits_bind (onLedger_sets (setImportBatchStatus_sets batchID status failureCode))
    fun _ => Prog.emits_ofExcept _

theorem fail_sets (batchID : UUID) (code : String) :
    (fail batchID code).Writes (Sets batchID [.failed]) := by
  apply writes_inTx (setStatus_sets batchID .failed (some code))
  intro result
  cases result <;> trivial

theorem recordMeasurement_sets (batchID : UUID) (content : Content) :
    (recordMeasurement batchID content).Emits (SetsAll batchID [.uploaded, .failed]) := by
  refine Prog.emits_bind (onLedger_sets (Prog.emits_exec ?_)) fun affected =>
    Prog.emits_bind (Prog.emits_ofExcept _) fun _ => enqueue_sets _ _ _ _
  intro d writes answer success row member
  obtain ⟨_, -, updated⟩ := bind_ok.mp success
  obtain ⟨rfl, -⟩ := Prod.mk.inj (Except.ok.inj updated)
  obtain ⟨_, known, same⟩ := List.mem_map.mp member
  obtain rfl := Write.updateBatch.inj same
  obtain ⟨old, chosen, rfl⟩ := List.mem_map.mp known
  have own : old.id = batchID := of_decide_eq_true (List.mem_filter.mp chosen).2
  exact ⟨own, by simp⟩

theorem measureContent_sets (uploadMaxBytes : Nat) (batchID : UUID) (content : Content) :
    (measureContent uploadMaxBytes batchID content).Writes (Sets batchID [.uploaded, .failed]) := by
  have failing (code : String) : (fail batchID code).Writes (Sets batchID [.uploaded, .failed]) :=
    (fail_sets batchID code).mono fun _ sets => sets.mono (by simp)
  unfold measureContent
  split
  next =>
    intro response
    dsimp only
    split
    · exact failing _
    · trivial
    · trivial
  next =>
    rw [onLedger, Prog.lift_query]
    refine writes_inTx (Prog.emits_query (by simp) _) fun result => ?_
    split
    · trivial
    · exact failing _
    · apply writes_inTx (recordMeasurement_sets batchID content)
      intro result
      cases result <;> trivial

theorem measureBatch_sets (uploadMaxBytes : Nat) (batchID : UUID) (batch : ImportBatchRow) :
    (measureBatch uploadMaxBytes batchID batch).Writes (Sets batchID [.uploaded, .failed]) := by
  have failing (code : String) : (fail batchID code).Writes (Sets batchID [.uploaded, .failed]) :=
    (fail_sets batchID code).mono fun _ sets => sets.mono (by simp)
  unfold measureBatch
  split
  next => trivial
  next =>
    intro response
    dsimp only
    split
    · exact failing _
    · intro response
      dsimp only
      split
      · exact failing _
      · exact measureContent_sets _ _ _
      · trivial
      · trivial
    · trivial
    · trivial

theorem landBatch_sets (draws : Draws) (batch : ImportBatchRow) (batchID : UUID) (st : Statement)
    (found : ValidationResult) :
    (landBatch draws batch batchID st found).Emits (SetsAll batchID [.validated, .rejected, .failed]) := by
  refine Prog.emits_bind ?_ fun _ => Prog.emits_bind ?_ fun result => Prog.emits_bind ?_ fun _ =>
    Prog.emits_bind (Prog.emits_ofExcept _) fun _ => Prog.emits_bind ?_ fun affected =>
      Prog.emits_bind (Prog.emits_ofExcept _) fun _ => ?_
  · unfold persistRawRows
    split
    next => trivial
    next =>
      apply Prog.emits_exec
      intro p changes answer success
      obtain ⟨_, -, made⟩ := bind_ok.mp success
      obtain ⟨rfl, -⟩ := Prod.mk.inj (Except.ok.inj made)
      intro change member row same
      obtain ⟨_, -, rfl⟩ := List.mem_map.mp member
      cases same
  · unfold resolveInto
    split
    next => trivial
    next =>
      refine Prog.emits_bind (onLedger_sets ?_) fun _ => trivial
      exact resolveAccount_emits (by simp [LedgerSets]) (by simp [LedgerSets]) _ _ _
  · apply Prog.emits_exec
    intro p changes answer success
    obtain ⟨_, -, made⟩ := bind_ok.mp success
    obtain ⟨rfl, -⟩ := Prod.mk.inj (Except.ok.inj made)
    intro change member row same
    rw [List.mem_singleton.mp member] at same
    cases same
  · refine onLedger_sets (ledgerSets_mono (setImportBatchStatus_sets batchID _ _) ?_)
    rw [nextStatus]
    split <;> simp
  · split
    · exact enqueue_sets _ _ _ _
    · trivial

theorem validateBatch_sets (draws : Draws) (batchID : UUID) (batch : ImportBatchRow) :
    (validateBatch draws batchID batch).Writes (Sets batchID [.validated, .rejected, .failed]) := by
  unfold validateBatch
  split
  next => trivial
  next =>
    intro response
    dsimp only
    split
    · exact (fail_sets batchID _).mono fun _ sets => sets.mono (by simp)
    · apply writes_inTx (landBatch_sets draws batch batchID _ _)
      intro result
      cases result <;> trivial
    · trivial
    · trivial

theorem allowsImport_sets (batchID : UUID) :
    AllowsImport (LedgerSets batchID [.imported, .failed]) batchID where
  quiet := by simp [LedgerSets]
  account := by simp [LedgerSets]
  missed := by simp [LedgerSets]
  skip := by simp [LedgerSets]
  transaction := by simp [LedgerSets]
  pair := by simp [LedgerSets]
  batch d rows status failureCode landed made row member := by
    obtain ⟨_, known, same⟩ := List.mem_map.mp member
    obtain rfl := Write.updateBatch.inj same
    obtain ⟨_, -, own, rfl⟩ := made _ known
    exact ⟨own, landed⟩
  enqueue := by simp [LedgerSets]

/-- The persist job's writes, before it is set among the pipeline's. -/
theorem persistBatch_sets (site : Site) (draws : Draws) (batch : ImportBatchRow) :
    (persistBatch site draws batch).Writes fun write =>
      ∀ row, write = .updateBatch row →
        row.id = batch.id ∧ row.status ∈ [BatchStatus.imported, .failed] := by
  have alike {α : Type} {p : Tx α} (emits : p.Emits (LedgerSets batch.id [.imported, .failed])) :
      p.Emits fun _ writes => ∀ write ∈ writes, ∀ row, write = .updateBatch row →
        row.id = batch.id ∧ row.status ∈ [BatchStatus.imported, .failed] :=
    emits.mono fun d writes allowed write member row same => allowed row (same ▸ member)
  have failing (code : String) : (failImport batch.id code).Writes fun write =>
      ∀ row, write = .updateBatch row →
        row.id = batch.id ∧ row.status ∈ [BatchStatus.imported, .failed] := by
    refine writes_inTx (alike (failImport_emits code (allowsImport_sets batch.id))) ?_
    intro result
    cases result <;> trivial
  unfold persistBatch
  split
  next => trivial
  next =>
    intro response
    dsimp only
    split
    · trivial
    · trivial
    · exact failing _
    · refine writes_inTx (alike (persistRows_emits site draws _ (allowsImport_sets batch.id))) fun result => ?_
      split
      · trivial
      · split
        · exact failing _
        · trivial

end Vekst.Ingest
