import Vekst.Proof.Ingest.Persist

namespace Vekst
open Isolation Ledger Relational

variable {site : Site} {currencies : String → Prop}

/-- A transaction without inserted rows of the ledger, in front of a job that keeps the rules. -/
theorem keeps_ordinary {α : Type} {next : Except Failure α → Job} {p : Tx α}
    (emits : p.Emits Ordinary)
    (kept : ∀ result, (next result).Keeps (rules site currencies) []) :
    (inTx next p).Keeps (rules site currencies) [] := by
  apply keeps_inTx
  · exact Prog.wp_mono (wp_anything emits) fun answer _ _ => kept (.ok answer)
  · intro e
    exact kept (.error e)

theorem keeps_settle (outcome : Except Failure Unit) :
    (Classify.settle outcome).Keeps (rules site currencies) [] := by
  cases outcome <;> trivial

theorem keeps_answer {α : Type} (outcome : Except Failure α) :
    (Review.answer outcome).Keeps (rules site currencies) [] := by
  cases outcome <;> trivial

theorem keeps_failImport (batchID : UUID) (code : String) :
    (Ingest.failImport batchID code).Keeps (rules site currencies) [] := by
  apply keeps_ordinary
  · apply Prog.emits_bind (emits_setImportBatchStatus _ _ _)
    intro affected
    exact Prog.emits_ofExcept _
  · intro result
    cases result <;> trivial

theorem keeps_persistBatch (draws : Draws) (batch : ImportBatchRow) :
    (Ingest.persistBatch site draws batch).Keeps (rules site currencies) [] := by
  unfold Ingest.persistBatch
  split
  next => trivial
  next =>
    refine ⟨fun reply answered => ?_, fun e => trivial⟩
    cases reply with
    | proposals resp => trivial
    | statement parsed =>
        cases parsed with
        | none => exact keeps_failImport _ _
        | some st =>
            apply keeps_inTx
            · exact Prog.wp_mono (wp_persistRows (answered st rfl)) fun _ _ _ => trivial
            · intro e
              dsimp only
              split
              next => exact keeps_failImport _ _
              next => trivial

theorem keeps_persistImport (batchID : UUID) (draws : Draws) :
    (Ingest.persistImport site batchID draws).Keeps (rules site currencies) [] := by
  apply keeps_ordinary (ordinary_query _)
  intro result
  split
  next => trivial
  next => trivial
  next batch => exact keeps_persistBatch draws batch

theorem keeps_close (batchID : UUID) (now : Timestamp) (status : RunStatus)
    (failureCode : Option String) :
    (inTx Classify.settle
      (Classify.finishClassificationRun batchID now status failureCode)).Keeps
      (rules site currencies) [] :=
  keeps_ordinary (emits_updateRunning _ _) keeps_settle

theorem keeps_writeChunk (batchID : UUID) (draws : Draws) (context : Classify.BatchContext)
    (page : Nat) (txns : List TransactionRow) (resp : Classify.BatchResponse) {next : Job}
    (kept : next.Keeps (rules site currencies) []) :
    (Classify.writeChunk site batchID draws context page txns resp next).Keeps
      (rules site currencies) [] := by
  unfold Classify.writeChunk
  split
  next => exact keeps_close _ _ _ _
  next => trivial
  next rows made =>
    apply keeps_ordinary (emits_storeChunk _ _ _ _ _)
    intro result
    split
    next => exact kept
    next => exact keeps_close _ _ _ _
    next => trivial

theorem keeps_classifyPage (batchID : UUID) (draws : Draws) (context : Classify.BatchContext)
    (cursor : Cursor) (page : Nat) :
    (Classify.classifyPage site batchID draws context cursor page).Keeps
      (rules site currencies) [] := by
  apply keeps_ordinary (ordinary_query _)
  intro result
  split
  next => trivial
  next => exact keeps_close _ _ _ _
  next first rest =>
    refine ⟨fun reply _ => ?_, fun e => ?_⟩
    · cases reply with
      | statement parsed => trivial
      | proposals resp => exact keeps_writeChunk _ _ _ _ _ _ ⟨trivial, rfl⟩
    · cases e with
      | classifierRejected => exact keeps_close _ _ _ _
      | _ => trivial

theorem keeps_classifyBatch (batchID : UUID) (draws : Draws) :
    (Classify.classifyBatch site batchID draws).Keeps (rules site currencies) [] := by
  apply keeps_ordinary (emits_insertClassificationRun _ _ _)
  intro result
  split
  next =>
    apply keeps_ordinary (emits_requestContext site)
    intro result
    split
    next => exact keeps_close _ _ _ _
    next => trivial
    next context => exact ⟨trivial, rfl⟩
  next => split <;> trivial

theorem keeps_memberRole {next : Except Failure Role → Job} (userID : UUID)
    (kept : ∀ result, (next result).Keeps (rules site currencies) []) :
    (inTx next (Review.memberRole userID)).Keeps (rules site currencies) [] :=
  keeps_ordinary (ordinary_query _) kept

theorem keeps_resolve (userID entityID : UUID) (key outcome categoryCode : String)
    (draws : Draws) :
    (Review.resolve site userID entityID key outcome categoryCode draws).Keeps
      (rules site currencies) [] := by
  apply keeps_memberRole
  intro result
  split
  next => trivial
  next role =>
    split
    next => trivial
    next =>
      split
      next => trivial
      next => exact keeps_ordinary (emits_resolveRows _ _ _ _ _ _ _) keeps_answer

theorem keeps_undo (userID decisionID : UUID) (draws : Draws) :
    (Review.undo userID decisionID draws).Keeps (rules site currencies) [] := by
  apply keeps_memberRole
  intro result
  split
  next => trivial
  next role =>
    split
    next => trivial
    next => exact keeps_ordinary (emits_undoDecision _ _ _) keeps_answer

theorem keeps_dismissTransfer (userID transferID : UUID) (draws : Draws) :
    (dismissTransfer userID transferID draws).Keeps (rules site currencies) [] := by
  apply keeps_memberRole
  intro result
  split
  next => trivial
  next => exact keeps_ordinary (emits_dismiss _ _ _) keeps_answer

theorem emits_reconcilePeriods {may : Database → List Write → Prop} (quiet : ∀ d, may d [])
    (baseCcy : String) (columns : List (String × Reports.Selection))
    (balances : List Int64) :
    (Reports.reconcilePeriods baseCcy columns balances).Emits may := by
  induction columns, balances using Reports.reconcilePeriods.induct with
  | case1 period sel rest opening closing later ih =>
      rw [Reports.reconcilePeriods]
      apply Prog.emits_bind
      · exact Prog.emits_bind (Prog.emits_query quiet _) fun _ => trivial
      · intro line
        exact Prog.emits_bind ih fun _ => trivial
  | case2 columns balances short =>
      rw [Reports.reconcilePeriods]
      · trivial
      · exact short

/-- The report's statements only read. -/
theorem emits_readReport {may : Database → List Write → Prop} (quiet : ∀ d, may d [])
    (req : Reports.Request) (prep : Reports.Prepared) : (Reports.readReport req prep).Emits may := by
  apply Prog.emits_bind (Prog.emits_query quiet _)
  intro baseCcy
  dsimp only
  by_cases missing : baseCcy = ""
  · simp only [missing, if_true, Prog.fail_bind, Prog.emits_fail]
  simp only [missing, if_false]
  apply Prog.emits_bind (Prog.emits_query quiet _)
  intro lines
  apply Prog.emits_bind (Prog.emits_ofExcept _)
  intro classified
  apply Prog.emits_bind (Prog.emits_query quiet _)
  intro unclassified
  apply Prog.emits_bind (Prog.emits_ofExcept _)
  intro unclassified
  apply Prog.emits_bind (Prog.emits_query quiet _)
  intro other
  apply Prog.emits_bind (Prog.emits_ofExcept _)
  intro other
  apply Prog.emits_bind
  · unfold Reports.reconciliation
    by_cases none_ : prep.periods = []
    · simp only [none_, if_true]
      trivial
    · simp only [none_, if_false]
      apply Prog.emits_bind (Prog.emits_ofExcept _)
      intro selections
      apply Prog.emits_bind (Prog.emits_mapM _ fun _ => Prog.emits_query quiet _)
      intro balances
      exact emits_reconcilePeriods quiet _ _ _
  · intro strip
    exact Prog.emits_bind (Prog.emits_query quiet _) fun _ => trivial

theorem keeps_managementPNL (userID : UUID) (req : Reports.Request) :
    (managementPNL userID req).Keeps (rules site currencies) [] := by
  unfold managementPNL
  split
  next => trivial
  next prep prepared =>
    apply keeps_ordinary (ordinary_query _)
    intro result
    split
    next => trivial
    next =>
      apply keeps_ordinary (emits_readReport ordinary_nil req prep)
      intro result
      cases result <;> trivial

/-- Every entry point keeps the rules of what may be written. -/
theorem body_keeps (label : Label) : (body site label).Keeps (rules site currencies) [] := by
  cases label with
  | persistImport batchID draws => exact keeps_persistImport batchID draws
  | classifyBatch batchID draws => exact keeps_classifyBatch batchID draws
  | classifyPage batchID draws context cursor page =>
      exact keeps_classifyPage batchID draws context cursor page
  | resolve userID entityID key outcome categoryCode draws =>
      exact keeps_resolve userID entityID key outcome categoryCode draws
  | undo userID decisionID draws => exact keeps_undo userID decisionID draws
  | dismissTransfer userID transferID draws =>
      exact keeps_dismissTransfer userID transferID draws
  | insertClassification c draws =>
      exact keeps_ordinary (emits_insertClassification _ _ c) keeps_answer
  | supersedeClassification oldID c draws =>
      exact keeps_ordinary (emits_supersedeClassification _ _ oldID c) keeps_answer
  | managementPNL userID req => exact keeps_managementPNL userID req

/-- Where every currency is taken, so is every event. -/
theorem rules_admit (event : Event) : (rules site fun _ => True).Admits event := by
  cases event with
  | answer i reply => exact fun _ _ _ => trivial
  | _ => trivial

/-! ## A deployment to evaluate on -/

/-- Digests and keys stand for themselves. -/
def sampleSite : Site where
  sha256 := id
  counterpartyKey := fun name _ _ => name
  normalizeDescription := id
  taxonomyVersion := "1"
  rulesetVersion := "1"
  chunkSize := 10

/-- Identifiers from a place of their own on. -/
def sampleDraws (start : Nat) : Draws where
  id := fun stream i => start + 10 * stream + i
  now := fun transaction => start + transaction

end Vekst
