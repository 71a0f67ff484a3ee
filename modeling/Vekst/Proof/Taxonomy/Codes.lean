import Vekst.Proof.Classify.Chunk
import Vekst.Proof.Jobs
import Vekst.Proof.Ledger.Tables
import Vekst.Proof.Review.Resolve
import Vekst.Relational.Ordering
import Vekst.Review.Picker

namespace Vekst.Taxonomy
open Isolation Ledger Relational Classify

/-! ## Codes on the wire -/

/-- The rows as an organisation's statements may find them: none asks for an order among the rows
of one code. -/
structure Shows (org : UUID) (table : Table) (rules : List RuleRow) (vendors : List VendorRow)
    (d : Database) : Prop where
  categories : d.categories.Perm (visibleRows org table)
  rules : d.rules = rules
  vendors : d.vendors = vendors

def InForce (site : Site) (r : RuleRow) : Prop :=
  r.taxonomyVersion = site.taxonomyVersion ∧ r.rulesetVersion = site.rulesetVersion ∧ r.active

/-- A rule or a vendor in force names the category; the code is what the engine is sent. -/
inductive Named (site : Site) (rows : List CategoryRow) (rules : List RuleRow)
    (vendors : List VendorRow) (categoryID : UUID) (code : String) : Prop
  | rule {r : RuleRow} {cat : CategoryRow} (stored : r ∈ rules) (inForce : InForce site r)
      (names : r.categoryID = categoryID) (visible : cat ∈ rows) (same : cat.id = r.categoryID)
      (sent : cat.code = code)
  | vendor {v : VendorRow} {cat : CategoryRow} (stored : v ∈ vendors)
      (current : v.keyVersion = normalizeVersion) (names : v.categoryID = categoryID)
      (visible : cat ∈ rows) (same : cat.id = v.categoryID) (sent : cat.code = code)

/-- Every category that a resolution writes. -/
structure Stores (d after : Database) (decision : ReviewDecisionRow) (categoryID : UUID) : Prop where
  classified : ∀ c ∈ after.classifications, c ∉ d.classifications → c.categoryID = categoryID
  remembered : ∀ v ∈ after.vendors, v ∉ d.vendors → v.categoryID = categoryID
  decided : ∀ stored, decision.categoryID = some stored → stored = categoryID

def Classifiable (site : Site) (cat : CategoryRow) : Prop :=
  cat.taxonomyVersion = site.taxonomyVersion ∧ cat.isLeaf ∧ !cat.isComputed

/-- Every rule in force can be sent. -/
def Readable (site : Site) (rows : List CategoryRow) (rules : List RuleRow) : Prop :=
  ∀ r ∈ rules, InForce site r → ∀ cat ∈ rows, cat.id = r.categoryID →
    ∃ rule, toRule (r, cat) = .ok rule

/-- A map filled from a list has the last row of a code. -/
theorem lookup_reverse_codes (cats : List CategoryRow) (code : String) :
    (cats.map fun c => (c.code, c.id)).reverse.lookup code =
      ((cats.filter (·.code = code)).getLast?).map (·.id) := by
  induction cats using List.reverseRecOn with
  | nil => rfl
  | append_singleton cats cat ih =>
      rw [List.map_append, List.reverse_append, List.filter_append]
      by_cases same : cat.code = code
      · simp [same]
      · have other : ¬ code = cat.code := fun h => same h.symm
        simp [same, ih, List.lookup_cons, beq_eq_false_iff_ne.mpr other]

theorem mem_classifiableCategories {site : Site} {d : Database} {cat : CategoryRow} :
    cat ∈ classifiableCategories d site.taxonomyVersion ↔
      cat ∈ d.categories ∧ Classifiable site cat := by
  rw [classifiableCategories, List.mem_insertionSort, List.mem_filter]
  simp [Classifiable, and_assoc]

theorem category_eq_some {site : Site} {d mid : Database} {context : BatchContext} {code : String}
    {categoryID : UUID} (ran : (requestContext site).run Store.apply d = .ok (context, mid))
    (named : context.category code = some categoryID) :
    ∃ x ∈ d.categories, Classifiable site x ∧ x.code = code ∧ x.id = categoryID := by
  obtain ⟨-, sent, -, rfl⟩ := run_requestContext_ok.mp ran
  rw [BatchContext.category, lookup_reverse_codes] at named
  obtain ⟨x, last, same⟩ := Option.map_eq_some_iff.mp named
  obtain ⟨member, code_⟩ := List.mem_filter.mp (List.mem_of_getLast? last)
  obtain ⟨stored, classifiable⟩ := mem_classifiableCategories.mp member
  exact ⟨x, stored, classifiable, of_decide_eq_true code_, same⟩

section Codes

variable {site : Site} {org : UUID} {table : Table} {rules : List RuleRow} {vendors : List VendorRow}
  {d : Database}

theorem mem_effectiveRules (shows_ : Shows org table rules vendors d) {r : RuleRow}
    {cat : CategoryRow} :
    (r, cat) ∈ effectiveRules d site.taxonomyVersion site.rulesetVersion ↔
      r ∈ rules ∧ InForce site r ∧ cat ∈ visibleRows org table ∧ cat.id = r.categoryID := by
  rw [effectiveRules, List.mem_insertionSort, mem_innerJoin, List.mem_filter, shows_.rules,
    shows_.categories.mem_iff]
  simp [InForce, and_assoc]

/-- The request is refused only for a rule that cannot be read. -/
theorem readable_iff (shows_ : Shows org table rules vendors d) :
    Readable site (visibleRows org table) rules ↔
      ∃ context, (requestContext site).run Store.apply d = .ok (context, d) := by
  constructor
  · intro readable
    obtain ⟨sent, read⟩ : ∃ sent, (effectiveRules d site.taxonomyVersion
        site.rulesetVersion).mapM toRule = .ok sent := by
      apply exists_mapM
      intro (r, cat) member
      obtain ⟨stored, inForce, visible, same⟩ := (mem_effectiveRules shows_).mp member
      exact readable r stored inForce cat visible same
    exact ⟨_, run_requestContext_ok.mpr ⟨rfl, sent, read, rfl⟩⟩
  · rintro ⟨context, ran⟩ r stored inForce cat visible same
    obtain ⟨-, sent, read, -⟩ := run_requestContext_ok.mp ran
    obtain ⟨rule, -, found⟩ := exists_of_mapM read
      ((mem_effectiveRules shows_).mpr ⟨stored, inForce, visible, same⟩)
    exact ⟨rule, found⟩

/-! ## Runs -/

end Codes

/-! ## A leaf that repeats a shared code -/

end Vekst.Taxonomy
