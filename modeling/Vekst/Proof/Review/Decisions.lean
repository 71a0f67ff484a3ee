import Vekst.Proof.Ingest.Duplicates
import Vekst.Proof.Review.Imports

namespace Vekst.Review
open Isolation Ledger Classify

/-! ## Calls one after another -/

/-- The calls of the runs: the two jobs of an import, and the two writes of the review. -/
def Called : Label → Prop
  | .persistImport _ _ | .classifyBatch _ _ | .resolve _ _ _ _ _ _ | .undo _ _ _ => True
  | _ => False

/-- A database before anything is imported. -/
structure Unused (d : Database) : Prop where
  transactions : d.transactions = []
  classifications : d.classifications = []
  decisions : d.decisions = []
  vendors : d.vendors = []

/-- Calls that run one at a time, whatever fails in them, and the states left before the last. -/
inductive Sequential (site : Site) (start : Database) : Database → List Database → Prop
  | start : Sequential site start start []
  | call {d last : Database} {earlier : List Database} {label : Label}
      {around : Surroundings Failure Question Reply} {asked : List Question} {result : Option Outcome}
      (run : Sequential site start d earlier) (called : Called label)
      (did : Solo (body site) around (body site label) d [] asked result last) :
      Sequential site start last (d :: earlier)

section Calls

variable {site : Site} {d after last : Database} {earlier : List Database} {wrote : UUID → UUID → Prop}
  {draws : Draws} {userID entityID decisionID : UUID} {key outcome categoryCode : String}
  {around : Surroundings Failure Question Reply} {asked : List Question} {result : Option Outcome}
  {decision : ReviewDecisionRow}

/-- Where no decision is new, nothing more was written by one. -/
theorem wrote_eq (known : ∀ id, (∃ x ∈ after.decisions, x.id = id) → ∃ x ∈ d.decisions, x.id = id) :
    Wrote (after :: d :: earlier) = Wrote (d :: earlier) := by
  funext x c
  apply propext
  refine ⟨fun wrote_ => wrote_.resolve_left fun now => ?_, .inr⟩
  obtain ⟨y, stored, same⟩ := known x now.decision
  exact now.decisionNew y stored same

theorem kept_unused (unused : Unused d) : Kept (Wrote [d]) d := by
  obtain ⟨transactions, classifications, decisions, vendors⟩ := unused
  constructor <;> constructor <;>
    simp [transactions, classifications, decisions, vendors, Wrote]

/-! ## A resolution -/

theorem checkDecision_new {x : ReviewDecisionRow} (checked : checkDecision d x = .ok ()) :
    (∀ y ∈ d.decisions, y.id ≠ x.id) ∧ ∀ y ∈ d.decisions, y.keyVersion = x.keyVersion →
      y.counterpartyKey = x.counterpartyKey → y.undoneAt ≠ none := by
  simp only [checkDecision, require_bind_ok, List.all_eq_true, decide_eq_true_eq] at checked
  obtain ⟨-, -, -, -, -, new, undecided, -⟩ := checked
  refine ⟨new, fun y known version same live => ?_⟩
  have other := undecided y known
  simp [version, same, live] at other

theorem run_resolveRows_skipped
    (ran : (resolveRows site draws userID entityID key outcomeSkipped categoryCode).run Store.apply d =
      .ok (decision, after)) :
    checkDecision d decision = .ok () ∧ decision = settledDecision draws userID d.baseCurrency key
      outcomeSkipped none (reviewGroupRows d entityID key) ∧
      after = { d with decisions := d.decisions ++ [decision] } := by
  obtain ⟨_, _, first, ran⟩ := (Prog.run_bind_ok _).mp ran
  obtain ⟨base, rfl⟩ := (Prog.run_query_ok _).mp first
  obtain rfl := Except.ok.inj base
  obtain ⟨_, _, second, ran⟩ := (Prog.run_bind_ok _).mp ran
  obtain ⟨read, rfl⟩ := (Prog.run_query_ok _).mp second
  obtain rfl := Except.ok.inj read
  by_cases covers : reviewGroupRows d entityID key = []
  · rw [if_pos covers] at ran
    cases ran
  · rw [if_neg covers] at ran
    obtain ⟨checked, rfl, rfl⟩ := run_insertReviewDecision_ok.mp ran
    exact ⟨checked, rfl, rfl⟩

/-- A resolution that goes through adds its decision, the rows of it and what is remembered. -/
theorem settles_of_resolveRows (kept : Kept wrote d)
    (ran : (resolveRows site draws userID entityID key outcome categoryCode).run Store.apply d =
      .ok (decision, after)) :
    ∃ rows vendors, Settles d decision rows vendors ∧ after = settledBy d decision rows vendors := by
  have undecided (checked : checkDecision d decision = .ok ()) (version : decision.keyVersion =
      normalizeVersion) : ∀ y ∈ d.decisions, ¬ LiveFor decision.counterpartyKey y := by
    intro y known live
    exact (checkDecision_new checked).2 y known ((kept.versioned y known).trans version.symm) live.1
      live.2
  by_cases skipped : outcome = outcomeSkipped
  · subst skipped
    obtain ⟨checked, rfl, rfl⟩ := run_resolveRows_skipped ran
    refine ⟨[], d.vendors, ?_, by rw [settledBy, List.append_nil]⟩
    exact {
      new := (checkDecision_new checked).1
      undecided := undecided checked rfl
      live := rfl
      versioned := rfl
      skips := fun _ => rfl
      rowsNew := fun _ member => absurd member List.not_mem_nil
      rowsApart := List.nodup_nil
      rowsLive := fun _ member => absurd member List.not_mem_nil
      vendors := .inr ⟨(by decide : outcomeSkipped ≠ outcomeCategorised), rfl⟩ }
  · obtain ⟨-, category, -, settled⟩ := (run_resolveRows_iff skipped).mp ran
    obtain ⟨-, storable, checked, rfl, rfl⟩ := run_settleGroup_ok.mp settled
    refine ⟨_, _, ?_, rfl⟩
    exact {
      new := (checkDecision_new checked).1
      undecided := undecided checked rfl
      live := rfl
      versioned := rfl
      skips := fun same => absurd same skipped
      rowsNew := storable.new
      rowsApart := storable.apart
      rowsLive := by
        intro row member
        obtain ⟨⟨t, i⟩, numbered, rfl⟩ := List.mem_map.mp member
        obtain ⟨stored, -, -, own⟩ := mem_groupRows.mp (List.fst_mem_of_mem_zipIdx numbered)
        exact ⟨rfl, rfl, t, stored, rfl, own⟩
      vendors := by
        rw [rememberedVendors]
        by_cases categorised : outcome = outcomeCategorised
        · rw [if_pos categorised]
          have named : decidedCategory outcome category = some category.id := if_pos categorised
          refine .inl ⟨categorised, _, ?_, ?_, ?_, rfl⟩
          · rfl
          · rfl
          · exact named
        · rw [if_neg categorised]
          exact .inr ⟨categorised, rfl⟩ }

theorem resolve_keeps (kept : Kept (Wrote (d :: earlier)) d) (sound : OneLive d)
    (run : Solo (body site) around
      (body site (.resolve userID entityID key outcome categoryCode draws)) d [] asked result last) :
    Kept (Wrote (last :: d :: earlier)) last ∧ OneLive last := by
  have unchanged : last = d → Kept (Wrote (last :: d :: earlier)) last ∧ OneLive last := by
    rintro rfl
    rw [wrote_eq fun _ known => known]
    exact ⟨kept, sound⟩
  rcases solo_resolve run with ⟨-, -, returned⟩ | ⟨left, -⟩
  · cases returned with
    | unchanged left _ => exact unchanged left
    | committed did holds left _ =>
        obtain ⟨rows, vendors, settles, after⟩ :=
          settles_of_resolveRows kept (Prog.run_of_attempt did)
        refine ⟨?_, ?_⟩
        · rw [left, after]
          exact kept_settled kept settles
        · rw [left]
          exact oneLive_visible sound (retiring_of_attempt (emits_resolveRows _ _ _ _ _ _ _) did)
            (passes_of_check holds)
  · exact unchanged left

/-! ## An undo -/

theorem solo_undo (run : Solo (body site) around (body site (.undo userID decisionID draws)) d []
    asked result last) :
    MayResolve d userID ∧ Returns (undoDecision draws userID decisionID) d result last ∨
      last = d ∧ Unsuccessful result := by
  rcases solo_member run with ⟨allowed, run⟩ | failed
  · exact .inl ⟨allowed, solo_answer run⟩
  · exact .inr failed

theorem undo_keeps (kept : Kept (Wrote (d :: earlier)) d) (sound : OneLive d)
    (run : Solo (body site) around (body site (.undo userID decisionID draws)) d [] asked result
      last) :
    Kept (Wrote (last :: d :: earlier)) last ∧ OneLive last := by
  have unchanged : last = d → Kept (Wrote (last :: d :: earlier)) last ∧ OneLive last := by
    rintro rfl
    rw [wrote_eq fun _ known => known]
    exact ⟨kept, sound⟩
  rcases solo_undo run with ⟨-, returned⟩ | ⟨left, -⟩
  · cases returned with
    | unchanged left _ => exact unchanged left
    | committed did holds left _ =>
        obtain ⟨x, undone⟩ := (run_undoDecision_ok kept.classifications kept.decisions).mp
          ⟨_, Prog.run_of_attempt did⟩
        rw [← left] at undone
        refine ⟨?_, ?_⟩
        · rw [wrote_eq fun _ known => (exists_id (undone_ids undone).1).mp known]
          exact kept_undone kept undone
        · rw [left]
          exact oneLive_visible sound (retiring_of_attempt (emits_undoDecision _ _ _) did)
            (passes_of_check holds)
  · exact unchanged left

/-! ## Every sequential run -/

theorem import_keeps {label : Label} (allowed : importing.allowed label)
    (kept : Kept (Wrote (d :: earlier)) d) (sound : OneLive d)
    (run : Solo (body site) around (body site label) d [] asked result last) :
    Kept (Wrote (last :: d :: earlier)) last ∧ OneLive last := by
  have grows := Solo.moves imports_drives (fun label permitted => imports_bodies label permitted)
    (fun _ _ _ => trivial) run (imports_bodies label allowed) (imports_drives.opened d)
  rw [wrote_eq fun _ known => grows.decisions ▸ known]
  exact ⟨grows.kept _ kept, grows.oneLive sound⟩

theorem sequential_keeps {start : Database} (unused : Unused start)
    (run : Sequential site start d earlier) : Kept (Wrote (d :: earlier)) d ∧ OneLive d := by
  induction run with
  | start =>
      refine ⟨kept_unused unused, fun txnID => ?_⟩
      simp [Database.liveOf, unused.classifications]
  | @call d last earlier label around asked result run called did ih =>
      obtain ⟨kept, sound⟩ := ih
      cases label with
      | persistImport batchID draws =>
          refine import_keeps ?_ kept sound did
          trivial
      | classifyBatch batchID draws =>
          refine import_keeps ?_ kept sound did
          trivial
      | resolve userID entityID key outcome categoryCode draws => exact resolve_keeps kept sound did
      | undo userID decisionID draws => exact undo_keeps kept sound did
      | _ => exact absurd called id

/-! ## A decision that can be undone -/

/-- A retraction queues no check. -/
def Unfired (writes : List Write) : Prop := fired writes = []

theorem unfired_nil : Unfired [] := rfl

theorem unfired_undoDecision :
    (undoDecision draws userID decisionID).Emits fun _ => Unfired := by
  have quiet {α : Type} (f : Database → Except Failure α) :
      (Prog.query f : Tx α).Emits fun _ => Unfired := Prog.emits_query (fun _ => unfired_nil) f
  rw [undoDecision_eq]
  refine Prog.emits_bind (quiet _) fun x => Prog.emits_bind (quiet _) fun live =>
    Prog.emits_bind ?_ fun count => Prog.emits_bind ?_ fun _ => Prog.emits_bind ?_ fun _ => trivial
  · rw [retractLive]
    split
    next => trivial
    next =>
      apply Prog.emits_exec
      intro d writes answer success
      obtain ⟨rfl, -⟩ := Prod.mk.inj (Except.ok.inj success)
      rw [Unfired, fired, List.filterMap_eq_nil_iff]
      intro w member
      obtain ⟨row, known, rfl⟩ := List.mem_map.mp member
      obtain ⟨c, selected, rfl⟩ := List.mem_map.mp known
      have live := (List.mem_filter.mp selected).2
      simp only [ClassificationRow.live, Bool.and_eq_true] at live
      simp [Write.oneLiveFires, Option.isNone_iff_eq_none.mp live.2.1]
  · rw [forgetVendor]
    split
    next =>
      apply Prog.emits_exec
      intro d writes answer success
      obtain ⟨rfl, -⟩ := Prod.mk.inj (Except.ok.inj success)
      rfl
    next => trivial
  · apply Prog.emits_exec
    intro d writes answer success
    split at success
    next => cases success
    next =>
      obtain ⟨rfl, -⟩ := Prod.mk.inj (Except.ok.inj success)
      rfl

theorem undo_succeeds {x : ReviewDecisionRow} (kept : Kept wrote d) (allowed : MayResolve d userID)
    (known : x ∈ d.decisions) (live : x.undoneAt = none) :
    ∃ last, Solo (body site) .calm (body site (.undo userID x.id draws)) d [] []
      (some (.ok .done)) last := by
  obtain ⟨count, ran⟩ := (run_undoDecision_ok kept.classifications kept.decisions).mpr
    ⟨x, known, rfl, live, rfl⟩
  obtain ⟨writes, did, -⟩ := Prog.attempt_of_run ran
  have unfired : Unfired writes := by
    refine Prog.attempt_emits unfired_undoDecision unfired_nil (fun before more held quiet => ?_) did
    rw [Unfired, fired_append, held, quiet, List.nil_append]
  have passes : Store.check (visible d writes) writes = .ok () := by
    apply if_pos
    rw [List.all_eq_true]
    intro txnID member
    rw [Unfired, fired] at unfired
    rw [unfired] at member
    cases member
  exact ⟨_, solo_member_of allowed (solo_inTx_of_ok did passes .done)⟩

end Calls

/-! ## A run -/

def firstImport : Label := .persistImport 1 (sampleDraws 100)

end Vekst.Review
