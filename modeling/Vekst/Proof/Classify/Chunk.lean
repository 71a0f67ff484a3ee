import Vekst.Classify.Run
import Vekst.Proof.Ledger.Emitted
import Vekst.Relational.Grouping

namespace Vekst.Classify
open Isolation Ledger Relational

/-! ## A request that is assembled -/

theorem run_requestContext_ok {site : Site} {d mid : Database} {context : BatchContext} :
    (requestContext site).run Store.apply d = .ok (context, mid) ↔ mid = d ∧
      ∃ sent, (effectiveRules d site.taxonomyVersion site.rulesetVersion).mapM toRule = .ok sent ∧
        context = {
          categories := (classifiableCategories d site.taxonomyVersion).map
            fun c => ⟨c.code, c.name, c.requiresAllocation⟩
          rules := sent
          vendors := vendorMemory d normalizeVersion
          codes := (classifiableCategories d site.taxonomyVersion).map fun c => (c.code, c.id) } := by
  simp only [requestContext, Prog.run_bind_ok, Prog.run_query_ok, Prog.run_ofExcept_ok,
    Prog.pure_eq, Prog.run_ret, Except.ok.injEq, Prod.mk.injEq]
  constructor
  · rintro ⟨_, _, ⟨rfl, rfl⟩, _, _, ⟨rfl, rfl⟩, sent, _, ⟨read, rfl⟩, _, _, ⟨rfl, rfl⟩, rfl, rfl⟩
    exact ⟨rfl, sent, read, rfl⟩
  · rintro ⟨rfl, sent, read, rfl⟩
    exact ⟨_, _, ⟨rfl, rfl⟩, _, _, ⟨rfl, rfl⟩, sent, _, ⟨read, rfl⟩, _, _, ⟨rfl, rfl⟩, rfl, rfl⟩

/-! ## An answer that is accepted -/

/-- What a proposal stores of the transaction and the category it names. -/
def classificationOf (site : Site) (resp : BatchResponse) (p : Proposal) (txnID categoryID : UUID) :
    Classification where
  transactionID := txnID
  categoryID := categoryID
  engineLayer := p.engineLayer
  confidence := p.confidence
  evidence := p.evidence
  taxonomyVersion := site.taxonomyVersion
  rulesetVersion := resp.rulesetVersion
  engineVersion := resp.engineVersion
  normalizeVersion := normalizeVersion
  decidedBy := UUID.zero

section Answer

variable {site : Site} {context : BatchContext} {page : List TransactionRow} {resp : BatchResponse}
  {out rows : List Classification} {p : Proposal}

/-- The proposal names a row of the page and a category of the request. -/
def Answers (site : Site) (context : BatchContext) (page : List TransactionRow)
    (resp : BatchResponse) (p : Proposal) (row : Classification) : Prop :=
  ∃ txnID categoryID, inPage page p.transactionID = some txnID ∧
    context.category p.categoryCode = some categoryID ∧
    row = classificationOf site resp p txnID categoryID

theorem chunkClassification_ok :
    chunkClassification site context page resp out p = .ok rows ↔
      ∃ row, Answers site context page resp p row ∧
        row.transactionID ∉ out.map (·.transactionID) ∧ rows = out ++ [row] := by
  rw [chunkClassification]
  constructor
  · intro ok
    split at ok
    next => cases ok
    next txnID found =>
      split at ok
      next => cases ok
      next new =>
        split at ok
        next => cases ok
        next categoryID named =>
          have added := Except.ok.inj ok
          refine ⟨classificationOf site resp p txnID categoryID,
            ⟨txnID, categoryID, found, named, rfl⟩, fun member => new ?_, added.symm⟩
          obtain ⟨row, known, same⟩ := List.mem_map.mp member
          exact List.any_eq_true.mpr ⟨row, known, decide_eq_true same⟩
  · rintro ⟨row, ⟨txnID, categoryID, found, named, rfl⟩, new, rfl⟩
    have unseen : ¬ (out.any (·.transactionID = txnID)) = true := by
      intro seen
      obtain ⟨row, known, same⟩ := List.any_eq_true.mp seen
      exact new (List.mem_map.mpr ⟨row, known, of_decide_eq_true same⟩)
    rw [found]
    dsimp only
    rw [if_neg unseen, named]
    rfl

theorem foldlM_ok {proposals : List Proposal} :
    proposals.foldlM (chunkClassification site context page resp) out = .ok rows ↔
      ∃ more, rows = out ++ more ∧ List.Forall₂ (Answers site context page resp) proposals more ∧
        (more.map (·.transactionID)).Nodup ∧
        List.Disjoint (out.map (·.transactionID)) (more.map (·.transactionID)) := by
  induction proposals generalizing out with
  | nil =>
      simp only [List.foldlM_nil, List.forall₂_nil_left_iff]
      constructor
      · intro ok
        exact ⟨[], by simpa using (Except.ok.inj ok).symm, rfl, List.nodup_nil, by simp⟩
      · rintro ⟨_, rfl, rfl, -⟩
        rw [List.append_nil]
        rfl
  | cons p proposals ih =>
      rw [List.foldlM_cons, bind_ok]
      constructor
      · rintro ⟨mid, first, rest⟩
        obtain ⟨row, answers, new, rfl⟩ := chunkClassification_ok.mp first
        obtain ⟨more, rfl, matching, nodup, apart⟩ := ih.mp rest
        rw [List.map_append, List.disjoint_append_left] at apart
        refine ⟨row :: more, by simp, .cons answers matching, ?_, ?_⟩
        · rw [List.map_cons, List.nodup_cons]
          exact ⟨fun again => apart.2 (by simp) again, nodup⟩
        · rw [List.map_cons, List.disjoint_cons_right]
          exact ⟨new, apart.1⟩
      · rintro ⟨more, rfl, matching, nodup, apart⟩
        cases matching with
        | cons answers matching =>
            rw [List.map_cons, List.nodup_cons] at nodup
            rw [List.map_cons, List.disjoint_cons_right] at apart
            refine ⟨_, chunkClassification_ok.mpr ⟨_, answers, apart.1, rfl⟩, ih.mpr
              ⟨_, by simp, matching, nodup.2, ?_⟩⟩
            rw [List.map_append, List.disjoint_append_left]
            refine ⟨apart.2, fun id known again => ?_⟩
            obtain rfl : id = _ := by simpa using known
            exact nodup.1 again

/-- A response is accepted when each proposal names a row and a category that were sent, and no
row is named twice. -/
theorem chunkClassifications_ok :
    chunkClassifications site context page resp = .ok rows ↔
      List.Forall₂ (Answers site context page resp) resp.proposals rows ∧
        (rows.map (·.transactionID)).Nodup := by
  rw [chunkClassifications, foldlM_ok]
  constructor
  · rintro ⟨more, rfl, matching, nodup, -⟩
    exact ⟨matching, nodup⟩
  · rintro ⟨matching, nodup⟩
    exact ⟨rows, rfl, matching, nodup, by simp⟩

/-- Any other response fails with one code. -/
theorem chunkClassifications_error {e : Failure}
    (failed : chunkClassifications site context page resp = .error e) :
    e = .fatal failureUnknownCategory := by
  suffices general : ∀ (proposals : List Proposal) out,
      proposals.foldlM (chunkClassification site context page resp) out = .error e →
        e = .fatal failureUnknownCategory from general _ _ failed
  intro proposals
  induction proposals with
  | nil =>
      intro out failed
      cases failed
  | cons p proposals ih =>
      intro out failed
      rw [List.foldlM_cons] at failed
      cases first : chunkClassification site context page resp out p with
      | ok mid =>
          rw [first] at failed
          exact ih mid failed
      | error _ =>
          rw [first] at failed
          obtain rfl := Except.error.inj failed
          rw [chunkClassification] at first
          split at first
          next => exact (Except.error.inj first).symm
          next =>
            split at first
            next => exact (Except.error.inj first).symm
            next =>
              split at first
              next => exact (Except.error.inj first).symm
              next => cases first

end Answer

/-! ## A chunk that is stored -/

/-- The rows a chunk stores. -/
def storedClassifications (draws : Draws) (number : Nat) (rows : List Classification) :
    List ClassificationRow :=
  rows.zipIdx.map fun (c, i) => toRow (draws.id (pageOrdinal number) i)
    (draws.now (pageOrdinal number)) c

/-- What the schema asks of a classification, beside the key of its own table. -/
structure Admissible (d : Database) (row : ClassificationRow) : Prop where
  layer : row.engineLayer ∈ engineLayers
  confidence : 0 ≤ row.confidence ∧ row.confidence ≤ 1
  decider : row.engineLayer = "human" → row.decidedBy.isSome
  transaction : ∃ t ∈ d.transactions, t.id = row.transactionID
  category : ∃ cat ∈ d.categories, cat.id = row.categoryID
  target : ∀ cat ∈ d.categories, cat.id = row.categoryID → cat.isLeaf ∧ !cat.isComputed

theorem categoryIsVisible_ok {d : Database} {categoryID : UUID} {name : String} :
    categoryIsVisible d categoryID name = .ok () ↔ (∃ cat ∈ d.categories, cat.id = categoryID) ∧
      ∀ cat ∈ d.categories, cat.id = categoryID → cat.isLeaf ∧ !cat.isComputed := by
  have leaf : ∀ cat : CategoryRow, (cat.id ≠ categoryID || (cat.isLeaf && !cat.isComputed)) ↔
      (cat.id = categoryID → cat.isLeaf ∧ !cat.isComputed) := by
    intro cat
    by_cases same : cat.id = categoryID <;> simp [same]
  rw [categoryIsVisible, require_bind_ok, require_ok, List.any_eq_true, List.all_eq_true]
  simp only [leaf, decide_eq_true_eq]

theorem checkClassification_ok {d : Database} {row : ClassificationRow} :
    checkClassification d row = .ok () ↔
      Admissible d row ∧ ∀ c ∈ d.classifications, c.id ≠ row.id := by
  simp only [checkClassification, require_bind_ok, categoryIsVisible_ok, List.any_eq_true,
    List.all_eq_true, decide_eq_true_eq, Bool.and_eq_true, Bool.or_eq_true]
  constructor
  · rintro ⟨layer, confidence, decider, new, transaction, category, target⟩
    exact ⟨⟨layer, confidence, decider.resolve_left ∘ not_not_intro, transaction, category, target⟩,
      new⟩
  · rintro ⟨fits, new⟩
    exact ⟨fits.layer, fits.confidence, (em _).imp_right fun human => fits.decider (not_not.mp human),
      new, fits.transaction, fits.category, fits.target⟩

theorem run_insertClassification_ok {id : UUID} {now : Timestamp} {c : Classification}
    {d after : Database} {row : ClassificationRow} :
    (insertClassification id now c).run Store.apply d = .ok (row, after) ↔
      checkClassification d row = .ok () ∧ row = toRow id now c ∧
        after = { d with classifications := d.classifications ++ [row] } := by
  rw [insertClassification, Prog.run_exec_ok]
  constructor
  · rintro ⟨writes, made, rfl⟩
    obtain ⟨_, checked, made⟩ := bind_ok.mp made
    obtain ⟨rfl, rfl⟩ := Prod.mk.inj (Except.ok.inj made)
    exact ⟨checked, rfl, rfl⟩
  · rintro ⟨checked, rfl, rfl⟩
    refine ⟨[.insertClassification (toRow id now c)], ?_, rfl⟩
    exact bind_ok.mpr ⟨(), checked, rfl⟩

theorem Admissible.of_tables {d other : Database} {row : ClassificationRow}
    (fits : Admissible d row) (transactions : other.transactions = d.transactions)
    (categories : other.categories = d.categories) : Admissible other row where
  layer := fits.layer
  confidence := fits.confidence
  decider := fits.decider
  transaction := transactions ▸ fits.transaction
  category := categories ▸ fits.category
  target := categories ▸ fits.target

/-- Rows the schema admits together, under identifiers that are new. -/
structure Storable (d : Database) (rows : List ClassificationRow) : Prop where
  fits : ∀ row ∈ rows, Admissible d row
  new : ∀ row ∈ rows, ∀ c ∈ d.classifications, c.id ≠ row.id
  apart : (rows.map (·.id)).Nodup

theorem Storable.of_tables {d other : Database} {rows : List ClassificationRow}
    (storable : Storable d rows) (classifications : other.classifications = d.classifications)
    (transactions : other.transactions = d.transactions)
    (categories : other.categories = d.categories) : Storable other rows where
  fits row member := (storable.fits row member).of_tables transactions categories
  new row member c known := storable.new row member c (classifications ▸ known)
  apart := storable.apart

theorem storable_nil (d : Database) : Storable d [] := ⟨nofun, nofun, List.nodup_nil⟩

/-- A first row and the rest beside it. -/
theorem storable_cons {d : Database} {row : ClassificationRow} {rows : List ClassificationRow} :
    Storable d (row :: rows) ↔ checkClassification d row = .ok () ∧
      Storable { d with classifications := d.classifications ++ [row] } rows := by
  rw [checkClassification_ok]
  constructor
  · rintro ⟨fits, new, apart⟩
    rw [List.map_cons, List.nodup_cons] at apart
    refine ⟨⟨fits row (by simp), new row (by simp)⟩, fun other later => ?_, fun other later c known => ?_,
      apart.2⟩
    · exact (fits other (by simp [later])).of_tables rfl rfl
    · rcases List.mem_append.mp known with old | added
      · exact new other (by simp [later]) c old
      · obtain rfl := List.mem_singleton.mp added
        intro same
        exact apart.1 (List.mem_map.mpr ⟨other, later, same.symm⟩)
  · rintro ⟨⟨first, firstNew⟩, rest⟩
    refine ⟨fun other member => ?_, fun other member => ?_, ?_⟩
    · rcases List.mem_cons.mp member with rfl | later
      · exact first
      · exact (rest.fits other later).of_tables rfl rfl
    · rcases List.mem_cons.mp member with rfl | later
      · exact firstNew
      · exact fun c known => rest.new other later c (List.mem_append_left _ known)
    · rw [List.map_cons, List.nodup_cons]
      refine ⟨fun again => ?_, rest.apart⟩
      obtain ⟨other, later, same⟩ := List.mem_map.mp again
      exact rest.new other later row (by simp) same.symm

/-- The inserts, each checked beside the rows before it. -/
theorem run_inserts_ok {α : Type} {f : α → UUID × Timestamp × Classification} {d after : Database}
    {items : List α} :
    (items.forM fun item => do
      let _ ← insertClassification (f item).1 (f item).2.1 (f item).2.2).run Store.apply d =
        .ok ((), after) ↔
    Storable d (items.map fun item => toRow (f item).1 (f item).2.1 (f item).2.2) ∧
    after = { d with classifications :=
      d.classifications ++ items.map fun item => toRow (f item).1 (f item).2.1 (f item).2.2 } := by
  induction items generalizing d with
  | nil =>
      rw [List.map_nil, List.append_nil]
      constructor
      · intro ran
        obtain ⟨-, rfl⟩ := Prod.mk.inj (Except.ok.inj ran)
        exact ⟨storable_nil d, rfl⟩
      · rintro ⟨-, rfl⟩
        rfl
  | cons item items ih =>
      rw [List.map_cons, storable_cons]
      constructor
      · intro ran
        obtain ⟨_, mid, first, rest⟩ := (Prog.run_bind_ok _).mp ran
        obtain ⟨_, stored, inserted, ended⟩ := (Prog.run_bind_ok _).mp first
        obtain ⟨-, rfl⟩ := Prod.mk.inj (Except.ok.inj ended)
        obtain ⟨checked, rfl, rfl⟩ := run_insertClassification_ok.mp inserted
        obtain ⟨storable, rfl⟩ := ih.mp rest
        exact ⟨⟨checked, storable⟩, by simp⟩
      · rintro ⟨⟨checked, storable⟩, rfl⟩
        refine (Prog.run_bind_ok _).mpr ⟨(), _, (Prog.run_bind_ok _).mpr
          ⟨_, _, run_insertClassification_ok.mpr ⟨checked, rfl, rfl⟩, rfl⟩, ?_⟩
        exact ih.mpr ⟨storable, by simp⟩

theorem run_updateRunning_ok {batchID : UUID}
    {change : ClassificationRunRow → ClassificationRunRow} {d after : Database} :
    (updateRunning batchID change).run Store.apply d = .ok ((), after) ↔
      ∃ run, runningRun d batchID = some run ∧
        after = { d with runs := replaceBy (·.id) (change run) d.runs } := by
  rw [updateRunning, Prog.run_exec_ok]
  cases found : runningRun d batchID with
  | none => simp
  | some run =>
      simp only [Except.ok.injEq, Prod.mk.injEq, and_true, exists_eq_left', Option.some.injEq]
      exact eq_comm

theorem run_storeChunk_ok {batchID : UUID} {draws : Draws} {number offered : Nat}
    {rows : List Classification} {d after : Database} :
    (storeChunk batchID draws number rows offered).run Store.apply d = .ok ((), after) ↔
    Storable d (storedClassifications draws number rows) ∧
    ∃ run, runningRun d batchID = some run ∧ after = { d with
      classifications := d.classifications ++ storedClassifications draws number rows
      runs := replaceBy (·.id) { run with
        chunkCount := run.chunkCount + 1
        classifiedCount := run.classifiedCount + rows.length
        reviewCount := run.reviewCount + (offered - rows.length) } d.runs } := by
  have inserts : ∀ mid, (rows.zipIdx.forM fun (c, i) => do
      let _ ← insertClassification (draws.id (pageOrdinal number) i) (draws.now (pageOrdinal number))
        c).run Store.apply d = .ok ((), mid) ↔ _ := fun mid =>
    @run_inserts_ok _ (fun item : Classification × Nat => (draws.id (pageOrdinal number) item.2,
      draws.now (pageOrdinal number), item.1)) d mid rows.zipIdx
  constructor
  · intro ran
    obtain ⟨_, mid, inserted, recorded⟩ := (Prog.run_bind_ok _).mp ran
    obtain ⟨storable, rfl⟩ := (inserts mid).mp inserted
    obtain ⟨run, running, rfl⟩ := run_updateRunning_ok.mp recorded
    exact ⟨storable, run, running, rfl⟩
  · rintro ⟨storable, run, running, rfl⟩
    exact (Prog.run_bind_ok _).mpr ⟨(), _, (inserts _).mpr ⟨storable, rfl⟩,
      run_updateRunning_ok.mpr ⟨run, running, rfl⟩⟩

end Vekst.Classify
