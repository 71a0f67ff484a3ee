import Vekst.Proof.Review.InStep

namespace Vekst.Review
open Isolation Ledger Classify

/-! ## What the jobs of an import write -/

/-- A write to none of the tables that decisions, answers and memory are kept in. -/
def Aside : Write → Prop
  | .insertTransaction _ => False
  | .insertClassification _ => False
  | .updateClassification _ => False
  | .insertDecision _ => False
  | .updateDecision _ => False
  | .upsertVendor _ => False
  | .deleteVendor _ _ => False
  | _ => True

def Imports (d : Database) (writes : List Write) : Prop :=
  (∃ row, writes = [.insertTransaction row] ∧ checkTransaction d row = .ok ()) ∨
  (∃ row, writes = [.insertClassification row] ∧ checkClassification d row = .ok () ∧
    row.decidedBy = none) ∨
  ∀ w ∈ writes, Aside w

theorem imports_aside {d : Database} {writes : List Write} (aside : ∀ w ∈ writes, Aside w) :
    Imports d writes := .inr (.inr aside)

theorem imports_nil (d : Database) : Imports d [] :=
  imports_aside fun _ member => absurd member List.not_mem_nil

theorem imports_query {α : Type} (f : Database → Except Failure α) :
    (Prog.query f : Tx α).Emits Imports :=
  Prog.emits_query imports_nil f

theorem allowsImport_imports (batchID : UUID) : AllowsImport Imports batchID where
  quiet := imports_nil
  account d row := imports_aside (by simp [Aside])
  missed d hash _ := imports_aside (by simp [Aside])
  skip d row := imports_aside (by simp [Aside])
  transaction d row checked := .inl ⟨row, rfl, checked⟩
  pair d pair := imports_aside (by simp [Aside])
  batch d rows status failureCode _ _ := imports_aside (by simp [Aside])
  enqueue d := imports_aside (by simp [Aside])

theorem imports_updateRunning (batchID : UUID)
    (change : ClassificationRunRow → ClassificationRunRow) :
    (updateRunning batchID change).Emits Imports := by
  apply Prog.emits_exec
  intro d writes answer success
  split at success
  next => cases success
  next =>
    obtain ⟨rfl, -⟩ := Prod.mk.inj (Except.ok.inj success)
    exact imports_aside (by simp [Aside])

theorem imports_insertClassificationRun (id : UUID) (now : Timestamp) (batchID : UUID) :
    (insertClassificationRun id now batchID).Emits Imports := by
  apply Prog.emits_exec
  intro d writes answer success
  obtain ⟨_, -, made⟩ := bind_ok.mp success
  obtain ⟨rfl, -⟩ := Prod.mk.inj (Except.ok.inj made)
  exact imports_aside (by simp [Aside])

theorem imports_insertClassification (id : UUID) (now : Timestamp) {c : Classification}
    (machine : c.decidedBy = UUID.zero) : (insertClassification id now c).Emits Imports := by
  apply Prog.emits_exec
  intro d writes answer success
  obtain ⟨_, checked, made⟩ := bind_ok.mp success
  obtain ⟨rfl, rfl⟩ := Prod.mk.inj (Except.ok.inj made)
  exact .inr (.inl ⟨_, rfl, checked, if_pos machine⟩)

theorem imports_storeChunk (batchID : UUID) (draws : Draws) (page : Nat) {rows : List Classification}
    (machine : ∀ c ∈ rows, c.decidedBy = UUID.zero) (offered : Nat) :
    (storeChunk batchID draws page rows offered).Emits Imports := by
  apply Prog.emits_bind
  · apply Prog.emits_forM
    rintro ⟨c, i⟩ numbered
    have one := machine c (List.fst_mem_of_mem_zipIdx numbered)
    exact Prog.emits_bind (imports_insertClassification _ _ one) fun _ => trivial
  · intro _
    exact imports_updateRunning _ _

theorem imports_requestContext (site : Site) : (requestContext site).Emits Imports := by
  apply Prog.emits_bind (imports_query _)
  intro cats
  apply Prog.emits_bind (imports_query _)
  intro rules
  apply Prog.emits_bind (Prog.emits_ofExcept _)
  intro rules
  exact Prog.emits_bind (imports_query _) fun _ => trivial

/-- An accepted response is the machine's: the run names no person. -/
theorem machine_of_accepted {site : Site} {context : BatchContext} {page : List TransactionRow}
    {resp : BatchResponse} {rows : List Classification}
    (accepted : chunkClassifications site context page resp = .ok rows) :
    ∀ c ∈ rows, c.decidedBy = UUID.zero := by
  intro c member
  obtain ⟨p, -, txnID, categoryID, -, -, rfl⟩ :=
    Relational.exists_left_of_forall₂ (chunkClassifications_ok.mp accepted).1 member
  rfl

/-! ## The jobs -/

/-- The entry points of an import and the page its classification run returns to. -/
def importing : Discipline Database Write Reply Label where
  allowed label := match label with
    | .persistImport _ _ | .classifyBatch _ _ | .classifyPage _ _ _ _ _ => True
    | _ => False
  answered _ := True
  guarantee _ := Imports

section Keeps

variable {site : Site}

theorem imports_inTx {α : Type} {next : Except Failure α → Job} {p : Tx α} (emits : p.Emits Imports)
    (kept : ∀ result, (next result).Keeps importing []) : (inTx next p).Keeps importing [] := by
  apply keeps_inTx
  · have all := @Prog.wp_of_emits _ _ _ _ _ (fun _ => Imports) (fun _ => True) _ emits
      (fun _ _ _ _ allowed => ⟨allowed, trivial⟩) [] trivial
    exact Prog.wp_mono all fun answer _ _ => kept (.ok answer)
  · exact fun e => kept (.error e)

theorem imports_failImport (batchID : UUID) (code : String) :
    (Ingest.failImport batchID code).Keeps importing [] := by
  apply imports_inTx (failImport_emits code (allowsImport_imports batchID))
  intro result
  cases result <;> trivial

theorem imports_persistImport (batchID : UUID) (draws : Draws) :
    (Ingest.persistImport site batchID draws).Keeps importing [] := by
  apply imports_inTx (imports_query _)
  intro result
  split
  next => trivial
  next => trivial
  next batch =>
    unfold Ingest.persistBatch
    split
    next => trivial
    next =>
      refine ⟨fun reply _ => ?_, fun e => trivial⟩
      cases reply with
      | proposals resp => trivial
      | statement parsed =>
          cases parsed with
          | none => exact imports_failImport _ _
          | some st =>
              apply imports_inTx (persistRows_emits site draws st (allowsImport_imports batch.id))
              intro result
              split
              next => trivial
              next =>
                split
                next => exact imports_failImport _ _
                next => trivial

theorem imports_close (batchID : UUID) (now : Timestamp) (status : RunStatus)
    (failureCode : Option String) :
    (inTx settle (finishClassificationRun batchID now status failureCode)).Keeps importing [] := by
  apply imports_inTx (imports_updateRunning _ _)
  intro result
  cases result <;> trivial

theorem imports_classifyPage (batchID : UUID) (draws : Draws) (context : BatchContext)
    (cursor : Cursor) (page : Nat) :
    (classifyPage site batchID draws context cursor page).Keeps importing [] := by
  apply imports_inTx (imports_query _)
  intro result
  split
  next => trivial
  next => exact imports_close _ _ _ _
  next first rest =>
    refine ⟨fun reply _ => ?_, fun e => ?_⟩
    · cases reply with
      | statement parsed => trivial
      | proposals resp =>
          dsimp only
          unfold writeChunk
          split
          next => exact imports_close _ _ _ _
          next => trivial
          next rows accepted =>
            apply imports_inTx (imports_storeChunk _ _ _ (machine_of_accepted accepted) _)
            intro result
            split
            next => exact ⟨trivial, rfl⟩
            next => exact imports_close _ _ _ _
            next => trivial
    · cases e with
      | classifierRejected => exact imports_close _ _ _ _
      | _ => trivial

theorem imports_classifyBatch (batchID : UUID) (draws : Draws) :
    (classifyBatch site batchID draws).Keeps importing [] := by
  apply imports_inTx (imports_insertClassificationRun _ _ _)
  intro result
  split
  next =>
    apply imports_inTx (imports_requestContext site)
    intro result
    split
    next => exact imports_close _ _ _ _
    next => trivial
    next context => exact ⟨trivial, rfl⟩
  next => split <;> trivial

theorem imports_bodies (label : Label) (allowed : importing.allowed label) :
    (body site label).Keeps importing [] := by
  cases label with
  | persistImport batchID draws => exact imports_persistImport batchID draws
  | classifyBatch batchID draws => exact imports_classifyBatch batchID draws
  | classifyPage batchID draws context cursor page => exact imports_classifyPage _ _ _ _ _
  | _ => exact absurd allowed id

end Keeps

/-! ## What an import changes -/

/-- What an import may do to the tables of the review. -/
structure Grows (d last : Database) : Prop where
  kept : ∀ wrote, Kept wrote d → Kept wrote last
  oneLive : OneLive d → OneLive last
  decisions : last.decisions = d.decisions

/-- What is known of the writes an import has pending. -/
structure Growing (d : Database) (pending : List Write) : Prop where
  kept : ∀ wrote, Kept wrote d → Kept wrote (visible d pending)
  retiring : Retiring pending
  decisions : (visible d pending).decisions = d.decisions

theorem aside_tables {d : Database} {writes : List Write} (aside : ∀ w ∈ writes, Aside w) :
    (visible d writes).transactions = d.transactions ∧
    (visible d writes).classifications = d.classifications ∧
    (visible d writes).decisions = d.decisions ∧ (visible d writes).vendors = d.vendors := by
  induction writes generalizing d with
  | nil => exact ⟨rfl, rfl, rfl, rfl⟩
  | cons w writes ih =>
      have allowed := aside w (by simp)
      have later := @ih (d.apply w) fun other member => aside other (by simp [member])
      cases w <;> first
        | exact absurd allowed id
        | exact later

theorem newTransaction_of_checked {d : Database} {row : TransactionRow}
    (checked : checkTransaction d row = .ok ()) : ∀ t ∈ d.transactions, t.id ≠ row.id := by
  simp only [checkTransaction, require_bind_ok, List.all_eq_true, decide_eq_true_eq] at checked
  obtain ⟨-, -, -, -, -, -, -, -, -, new, -⟩ := checked
  exact new

theorem imports_drives : importing.Drives Growing Grows where
  refl d := ⟨fun _ kept => kept, id, rfl⟩
  trans d mid last first second := ⟨fun wrote kept => second.kept wrote (first.kept wrote kept),
    second.oneLive ∘ first.oneLive, second.decisions.trans first.decisions⟩
  opened d := ⟨fun _ kept => kept, fun _ member => absurd member List.not_mem_nil, rfl⟩
  written d pending more growing allowed := by
    have retiring {writes : List Write} (kind : ∀ w ∈ writes, ∀ row, w ≠ .updateClassification row) :
        Retiring (pending ++ writes) :=
      retiring_append growing.retiring fun row member => absurd rfl (kind _ member row)
    rcases allowed with ⟨row, rfl, checked⟩ | ⟨row, rfl, checked, machine⟩ | aside
    · refine ⟨fun wrote kept => ?_, retiring (by simp), ?_⟩
      · rw [visible_append]
        exact kept_transaction (growing.kept wrote kept) (newTransaction_of_checked checked)
      · rw [visible_append]
        exact growing.decisions
    · obtain ⟨fits, new⟩ := checkClassification_ok.mp checked
      refine ⟨fun wrote kept => ?_, retiring (by simp), ?_⟩
      · rw [visible_append]
        refine kept_machine (growing.kept wrote kept) new (fun human => ?_) fits.transaction
        have decider := fits.decider human
        rw [machine] at decider
        cases decider
      · rw [visible_append]
        exact growing.decisions
    · have kind : ∀ w ∈ more, ∀ row, w ≠ .updateClassification row := by
        rintro w member row rfl
        exact aside _ member
      refine ⟨fun wrote kept => ?_, retiring kind, ?_⟩
      · rw [visible_append]
        obtain ⟨transactions, classifications, decisions, vendors⟩ := @aside_tables (visible d pending) _ aside
        exact kept_of_tables (growing.kept wrote kept) transactions classifications decisions vendors
      · rw [visible_append]
        exact (aside_tables aside).2.2.1.trans growing.decisions
  published d pending growing passes :=
    ⟨growing.kept, fun sound => oneLive_visible sound growing.retiring (passes_of_check passes),
      growing.decisions⟩

end Vekst.Review
