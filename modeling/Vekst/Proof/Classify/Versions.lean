import Vekst.Proof.Classify.Chunk
import Vekst.Proof.Jobs

namespace Vekst.Classify
open Isolation Ledger Relational Calendar

/-! ## The versions in a request -/

/-- A request of a run: its context was read of one state of the database, its page of another. -/
structure Sends (site : Site) (read now : Database) (batchID : UUID) (cursor : Cursor)
    (page : List TransactionRow) (request : BatchRequest) : Prop where
  paged : unclassifiedTransactions now batchID cursor (pageSize site) = page
  assembled : ∃ context, (requestContext site).run Store.apply read = .ok (context, read) ∧
    ∃ first rest, page = first :: rest ∧ request = chunkRequest site context first rest

/-- The vendor rows a request is filled from. -/
def sentVendors (d : Database) : List (VendorRow × CategoryRow) :=
  (innerJoin (d.vendors.filter (·.keyVersion = normalizeVersion)) d.categories
    fun v cat => cat.id = v.categoryID).insertionSort fun a b => a.1.key ≤ b.1.key

/-- Everything sent was made by the version the request names. -/
structure OneVersion (site : Site) (read : Database) (page : List TransactionRow)
    (request : BatchRequest) : Prop where
  transactions : ∀ t ∈ page, t.normalizeVersion = request.normalizeVersion
  rules : ∀ p ∈ effectiveRules read site.taxonomyVersion site.rulesetVersion,
    ∀ m, p.1.matcher = some m → m.normalizeVersion = request.normalizeVersion
  vendors : ∀ p ∈ sentVendors read, p.1.keyVersion = request.normalizeVersion

/-- The page and the rules in force were stored by this build. -/
def StoredByThisBuild (site : Site) (read : Database) (page : List TransactionRow) : Prop :=
  (∀ t ∈ page, t.normalizeVersion = normalizeVersion) ∧
    ∀ p ∈ effectiveRules read site.taxonomyVersion site.rulesetVersion,
      ∀ m, p.1.matcher = some m → m.normalizeVersion = normalizeVersion

section Versions

variable {site : Site} {read now : Database} {batchID : UUID} {cursor : Cursor}
  {page : List TransactionRow} {request : BatchRequest}

theorem Sends.filled (sends : Sends site read now batchID cursor page request) :
    request.normalizeVersion = normalizeVersion ∧ request.txns = toClassifyBatch page ∧
    (effectiveRules read site.taxonomyVersion site.rulesetVersion).mapM toRule = .ok request.rules ∧
    request.vendors = (sentVendors read).map fun (v, cat) => ⟨v.key, cat.code, v.displayName⟩ := by
  obtain ⟨-, context, ran, first, rest, rfl, rfl⟩ := sends
  obtain ⟨-, sent, translated, rfl⟩ := run_requestContext_ok.mp ran
  exact ⟨rfl, rfl, translated, rfl⟩

/-- Only the vendors are filtered by the version a request names. -/
theorem sentVendors_current {d : Database} {p : VendorRow × CategoryRow}
    (member : p ∈ sentVendors d) : p.1.keyVersion = normalizeVersion := by
  obtain ⟨v, cat⟩ := p
  rw [sentVendors, List.mem_insertionSort, mem_innerJoin, List.mem_filter] at member
  exact of_decide_eq_true member.1.2

theorem request_one_version_iff (sends : Sends site read now batchID cursor page request) :
    OneVersion site read page request ↔ StoredByThisBuild site read page := by
  obtain ⟨version, -, -, -⟩ := sends.filled
  constructor
  · intro one
    rw [StoredByThisBuild, ← version]
    exact ⟨one.transactions, one.rules⟩
  · rintro ⟨transactions, rules⟩
    refine ⟨?_, ?_, fun p member => ?_⟩
    · rw [version]
      exact transactions
    · rw [version]
      exact rules
    · rw [version]
      exact sentVendors_current member

/-! ## A row an earlier build stored -/

def versionedTransaction (stored : String) : TransactionRow :=
  { sampleTransaction 1 .bank (sampleDay 1) 100 with normalizeVersion := stored }

/-- A batch of one transaction, whose text the version given normalised. -/
def versionStage (stored : String) : Database :=
  { Database.empty "BYN" with transactions := [versionedTransaction stored] }

def emptyContext : BatchContext := ⟨[], [], [], []⟩

theorem unclassifiedTransactions_versionStage (stored : String) :
    unclassifiedTransactions (versionStage stored) 1 startCursor (pageSize sampleSite) =
      [versionedTransaction stored] := by
  have waiting : withoutLive (versionStage stored) [versionedTransaction stored] =
      [versionedTransaction stored] := rfl
  have own : (versionStage stored).transactions.filter (·.batchID = 1) =
      [versionedTransaction stored] := rfl
  have later : startCursor.before (versionedTransaction stored) = true := rfl
  rw [unclassifiedTransactions, own, waiting, List.filter_singleton, later, cond_true]
  rfl

theorem sends_versionStage (stored : String) :
    Sends sampleSite (versionStage stored) (versionStage stored) 1 startCursor
      [versionedTransaction stored]
      (chunkRequest sampleSite emptyContext (versionedTransaction stored) []) where
  paged := unclassifiedTransactions_versionStage stored
  assembled := ⟨emptyContext, run_requestContext_ok.mpr ⟨rfl, [], rfl, rfl⟩, _, _, rfl, rfl⟩

theorem request_one_version_fresh :
    OneVersion sampleSite (versionStage normalizeVersion) [versionedTransaction normalizeVersion]
      (chunkRequest sampleSite emptyContext (versionedTransaction normalizeVersion) []) :=
  (request_one_version_iff (sends_versionStage normalizeVersion)).mpr
    ⟨fun t member => by rw [List.mem_singleton.mp member]; rfl, nofun⟩

/-- One row left from an earlier build goes out under this build's version. -/
theorem request_mixes_versions :
    ¬ ∀ (site : Site) (read now : Database) (batchID : UUID) (cursor : Cursor)
      (page : List TransactionRow) (request : BatchRequest),
      Sends site read now batchID cursor page request → OneVersion site read page request := by
  intro always
  have one := always _ _ _ _ _ _ _ (sends_versionStage "0")
  have same : "0" = normalizeVersion := one.transactions _ (List.mem_singleton_self _)
  exact absurd same (by decide)

end Versions

end Vekst.Classify
