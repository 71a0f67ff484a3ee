import Vekst.Proof.Classify.Chunk
import Vekst.Review.Service

namespace Vekst.Review
open Isolation Ledger Classify

/-! ## The statements of a resolution -/

theorem run_upsertVendor_ok {row : VendorRow} {d after : Database} :
    (upsertVendor row).run Store.apply d = .ok ((), after) ↔
      categoryIsVisible d row.categoryID "vendors_category_is_visible" = .ok () ∧
      after = d.apply (.upsertVendor { row with id := ((d.vendors.find? fun v =>
        v.keyVersion = row.keyVersion && v.key = row.key).map (·.id)).getD row.id }) := by
  rw [upsertVendor, Prog.run_exec_ok]
  constructor
  · rintro ⟨writes, made, rfl⟩
    obtain ⟨_, visible, made⟩ := bind_ok.mp made
    obtain ⟨rfl, -⟩ := Prod.mk.inj (Except.ok.inj made)
    exact ⟨visible, rfl⟩
  · rintro ⟨visible, rfl⟩
    exact ⟨_, bind_ok.mpr ⟨(), visible, rfl⟩, rfl⟩

theorem run_insertReviewDecision_ok {row decision : ReviewDecisionRow} {d after : Database} :
    (insertReviewDecision row).run Store.apply d = .ok (decision, after) ↔
      checkDecision d row = .ok () ∧ decision = row ∧
        after = { d with decisions := d.decisions ++ [row] } := by
  rw [insertReviewDecision, Prog.run_exec_ok]
  constructor
  · rintro ⟨writes, made, rfl⟩
    split at made
    next => cases made
    next => cases made
    next checked =>
      obtain ⟨rfl, rfl⟩ := Prod.mk.inj (Except.ok.inj made)
      exact ⟨checked, rfl, rfl⟩
  · rintro ⟨checked, rfl, rfl⟩
    refine ⟨[.insertDecision decision], ?_, rfl⟩
    rw [checked]

/-- The rows a resolution stores, of the transactions it read. -/
def settledClassifications (site : Site) (draws : Draws) (userID categoryID : UUID) (outcome : String)
    (rows : List TransactionRow) : List ClassificationRow :=
  rows.zipIdx.map fun (r, i) => toRow (draws.id 2 i) (draws.now 1)
    (humanClassification site userID r.id categoryID outcome)

section Resolve

variable {site : Site} {draws : Draws} {userID entityID : UUID} {key outcome categoryCode : String}
  {d after : Database} {decision : ReviewDecisionRow}

/-- The code a resolution looks up. -/
def resolvedCode (outcome categoryCode : String) : String :=
  if outcome ≠ outcomeCategorised then outOfPNLCode else categoryCode

theorem resolvedCode_ne_empty (checked : checkOutcome outcome categoryCode = .ok ()) :
    resolvedCode outcome categoryCode ≠ "" := by
  unfold resolvedCode
  unfold checkOutcome at checked
  split
  next => decide
  next categorised =>
    rw [if_pos (not_not.mp categorised)] at checked
    intro empty
    rw [if_pos empty] at checked
    cases checked

def rememberVendor (draws : Draws) (userID : UUID) (key outcome : String) (category : CategoryRow)
    (rows : List TransactionRow) : Tx Unit :=
  if outcome = outcomeCategorised then
    upsertVendor ⟨draws.id 1 0, key, normalizeVersion, displayName rows, category.id, some userID⟩
  else pure ()

/-- What a resolution writes once its category is found. -/
def settleGroup (site : Site) (draws : Draws) (userID : UUID) (baseCcy key outcome : String)
    (category : CategoryRow) (rows : List TransactionRow) : Tx ReviewDecisionRow := do
  rememberVendor draws userID key outcome category rows
  rows.zipIdx.forM fun (r, i) => do
    let _ ← insertClassification (draws.id 2 i) (draws.now 1)
      (humanClassification site userID r.id category.id outcome)
  writeDecision (draws.id 0 0) userID baseCcy key outcome
    (if outcome = outcomeCategorised then some category.id else none) rows

theorem resolveRows_eq (named : outcome ≠ outcomeSkipped) :
    resolveRows site draws userID entityID key outcome categoryCode = (do
      let baseCcy ← Prog.query fun d => .ok d.baseCurrency
      let rows ← Prog.query fun d => .ok (reviewGroupRows d entityID key)
      if rows = [] then Prog.fail (.coded Code.emptyGroup)
      else
        let category ← Prog.query
          (categoryByCode · site.taxonomyVersion (resolvedCode outcome categoryCode))
        settleGroup site draws userID baseCcy key outcome category rows) := by
  rw [resolveRows]
  apply congrArg (bind _)
  funext baseCcy
  apply congrArg (bind _)
  funext rows
  by_cases covers : rows = []
  · rw [if_pos covers, if_pos covers, Prog.fail_bind]
  · rw [if_neg covers, if_neg covers, if_neg named]
    apply congrArg (bind _)
    funext category
    rw [settleGroup, rememberVendor]
    by_cases categorised : outcome = outcomeCategorised
    · simp only [if_pos categorised]
    · simp only [if_neg categorised]
      rfl

theorem run_resolveRows_iff (named : outcome ≠ outcomeSkipped) :
    (resolveRows site draws userID entityID key outcome categoryCode).run Store.apply d =
      .ok (decision, after) ↔
    reviewGroupRows d entityID key ≠ [] ∧ ∃ category,
      categoryByCode d site.taxonomyVersion (resolvedCode outcome categoryCode) = .ok category ∧
      (settleGroup site draws userID d.baseCurrency key outcome category
        (reviewGroupRows d entityID key)).run Store.apply d = .ok (decision, after) := by
  rw [resolveRows_eq named, Prog.run_bind, Prog.run_query]
  simp only [Except.map, Except.bind]
  rw [Prog.run_bind, Prog.run_query]
  simp only [Except.map, Except.bind]
  by_cases covers : reviewGroupRows d entityID key = []
  · simp [covers]
  · rw [if_neg covers, Prog.run_bind_ok]
    simp only [Prog.run_query_ok]
    constructor
    · rintro ⟨category, _, ⟨found, rfl⟩, ran⟩
      exact ⟨covers, category, found, ran⟩
    · rintro ⟨-, category, found, ran⟩
      exact ⟨category, d, ⟨found, rfl⟩, ran⟩

/-- The decision a resolution records. -/
def settledDecision (draws : Draws) (userID : UUID) (baseCcy key outcome : String)
    (categoryID : Option UUID) (rows : List TransactionRow) : ReviewDecisionRow where
  id := draws.id 0 0
  counterpartyKey := key
  keyVersion := normalizeVersion
  outcome := outcome
  categoryID := categoryID
  decidedBy := userID
  coveredCount := (Int32.ofNat rows.length).toInt
  coveredMinor := (rows.map (·.amount)).sum
  coveredCurrency := baseCcy
  undoneAt := none
  undoneBy := none

def decidedCategory (outcome : String) (category : CategoryRow) : Option UUID :=
  if outcome = outcomeCategorised then some category.id else none

/-- The vendors once a resolution has remembered its category. -/
def rememberedVendors (draws : Draws) (userID : UUID) (key outcome : String) (category : CategoryRow)
    (rows : List TransactionRow) (vendors : List VendorRow) : List VendorRow :=
  if outcome = outcomeCategorised then
    vendors.filter (fun v => !(v.keyVersion = normalizeVersion && v.key = key)) ++
      [⟨((vendors.find? fun v => v.keyVersion = normalizeVersion && v.key = key).map (·.id)).getD
        (draws.id 1 0), key, normalizeVersion, displayName rows, category.id, some userID⟩]
  else vendors

theorem checkDecision_of_tables {other : Database} {row : ReviewDecisionRow}
    (decisions : other.decisions = d.decisions) (categories : other.categories = d.categories) :
    checkDecision other row = checkDecision d row := by
  rw [checkDecision, checkDecision, decisions]
  simp only [categoryIsVisible, categories]

theorem run_rememberVendor_ok {category : CategoryRow} {rows : List TransactionRow} :
    (rememberVendor draws userID key outcome category rows).run Store.apply d = .ok ((), after) ↔
    (outcome = outcomeCategorised → (∃ cat ∈ d.categories, cat.id = category.id) ∧
      ∀ cat ∈ d.categories, cat.id = category.id → cat.isLeaf ∧ !cat.isComputed) ∧
    after = { d with
      vendors := rememberedVendors draws userID key outcome category rows d.vendors } := by
  rw [rememberVendor, rememberedVendors]
  by_cases categorised : outcome = outcomeCategorised
  · rw [if_pos categorised, if_pos categorised, run_upsertVendor_ok, categoryIsVisible_ok,
      imp_iff_right categorised]
    rfl
  · rw [if_neg categorised, if_neg categorised]
    constructor
    · intro ran
      obtain ⟨-, rfl⟩ := Prod.mk.inj (Except.ok.inj ran)
      exact ⟨fun yes => absurd yes categorised, rfl⟩
    · rintro ⟨-, rfl⟩
      rfl

/-- A resolution goes through when the schema admits its vendor, its rows and its decision. -/
theorem run_settleGroup_ok {baseCcy : String} {category : CategoryRow} {rows : List TransactionRow} :
    (settleGroup site draws userID baseCcy key outcome category rows).run Store.apply d =
      .ok (decision, after) ↔
    (outcome = outcomeCategorised → (∃ cat ∈ d.categories, cat.id = category.id) ∧
      ∀ cat ∈ d.categories, cat.id = category.id → cat.isLeaf ∧ !cat.isComputed) ∧
    Storable d (settledClassifications site draws userID category.id outcome rows) ∧
    checkDecision d decision = .ok () ∧
    decision = settledDecision draws userID baseCcy key outcome (decidedCategory outcome category)
      rows ∧
    after = { d with
      vendors := rememberedVendors draws userID key outcome category rows d.vendors
      classifications := d.classifications ++
        settledClassifications site draws userID category.id outcome rows
      decisions := d.decisions ++ [decision] } := by
  have inserts : ∀ before mid, (rows.zipIdx.forM fun (r, i) => do
      let _ ← insertClassification (draws.id 2 i) (draws.now 1)
        (humanClassification site userID r.id category.id outcome)).run Store.apply before =
        .ok ((), mid) ↔ _ := fun before mid =>
    @run_inserts_ok _ (fun item : TransactionRow × Nat => (draws.id 2 item.2, draws.now 1,
      humanClassification site userID item.1.id category.id outcome)) before mid rows.zipIdx
  constructor
  · intro ran
    obtain ⟨_, mid, first, ran⟩ := (Prog.run_bind_ok _).mp ran
    obtain ⟨_, _, inserted, ran⟩ := (Prog.run_bind_ok _).mp ran
    obtain ⟨target, rfl⟩ := run_rememberVendor_ok.mp first
    obtain ⟨storable, rfl⟩ := (inserts _ _).mp inserted
    obtain ⟨checked, rfl, rfl⟩ := run_insertReviewDecision_ok.mp ran
    exact ⟨target, storable.of_tables rfl rfl rfl, (checkDecision_of_tables rfl rfl).symm.trans checked,
      rfl, rfl⟩
  · rintro ⟨target, storable, checked, rfl, rfl⟩
    exact (Prog.run_bind_ok _).mpr ⟨(), _, run_rememberVendor_ok.mpr ⟨target, rfl⟩,
      (Prog.run_bind_ok _).mpr ⟨(), _, (inserts _ _).mpr ⟨storable.of_tables rfl rfl rfl, rfl⟩,
        run_insertReviewDecision_ok.mpr
          ⟨(checkDecision_of_tables rfl rfl).trans checked, rfl, rfl⟩⟩⟩

/-- What a resolution that names a category leaves. -/
structure Resolved (site : Site) (draws : Draws) (userID : UUID) (outcome : String) (d : Database)
    (rows : List TransactionRow) (category : CategoryRow) (after : Database)
    (decision : ReviewDecisionRow) : Prop where
  target : rows ≠ [] → ∀ cat ∈ d.categories, cat.id = category.id → cat.isLeaf ∧ !cat.isComputed
  classified : after.classifications = d.classifications ++
    settledClassifications site draws userID category.id outcome rows
  remembered : ∀ v ∈ after.vendors, v ∉ d.vendors → v.categoryID = category.id
  decided : decision.categoryID = if outcome = outcomeCategorised then some category.id else none

end Resolve

end Vekst.Review
