import Vekst.Normalize.Description
import Vekst.Proof.Classify.ReadWhole
import Vekst.Proof.Normalize.Description
import Vekst.Text.Infix

namespace Vekst.Classify
open Ledger Normalize Relational Infix

variable {lower : String → String} {u : Tables} {txn : Txn} {rule rule' : Rule} {c : Condition}

/-! ## Values in normal form -/

/-- A value with each part between semicolons in normal form. -/
def normalValue (u : Tables) (value : String) : String :=
  String.ofList ([';'].intercalate ((value.toList.splitOn ';').map (description u)))

/-- A stored condition, with a description's value in normal form. -/
def normalCondition (u : Tables) (c : MatcherCondition) : MatcherCondition :=
  if c.field = "description" then { c with value := normalValue u c.value } else c

def normalMatcher (u : Tables) (m : Matcher) : Matcher := { m with all := m.all.map (normalCondition u) }

/-- A stored rule with its description values in normal form. -/
def normalRow (u : Tables) (row : RuleRow × CategoryRow) : RuleRow × CategoryRow :=
  ({ row.1 with matcher := row.1.matcher.map (normalMatcher u) }, row.2)

/-- What the rule asks of a row beside its description. -/
structure Elsewhere (lower : String → String) (txn : Txn) (rule : Rule) : Prop where
  kind : rule.sourceKind = "" ∨ rule.sourceKind = txn.sourceKind
  some_ : rule.all ≠ []
  operators : ∀ c ∈ rule.all, c.field = "description" → c.op = "contains_all"
  holds : ∀ c ∈ rule.all, c.field ≠ "description" → conditionHolds lower txn c = .ok true

/-- All that the rule's description conditions look for. -/
def Rule.parts (rule : Rule) : List (List Char) :=
  (rule.all.filter (·.field = "description")).flatMap fun c => Classify.parts c.value

/-- A rule matches by its parts, and by what it asks elsewhere. -/
theorem matches_iff_parts : ruleMatches lower txn rule = .ok true ↔
    Elsewhere lower txn rule ∧ ∀ part ∈ rule.parts, part <:+: txn.descriptionNorm.toList := by
  have all : (∀ part ∈ rule.parts, part <:+: txn.descriptionNorm.toList) ↔
      ∀ c ∈ rule.all, c.field = "description" →
        ∀ part ∈ parts c.value, part <:+: txn.descriptionNorm.toList := by
    simp only [Rule.parts, List.mem_flatMap, List.mem_filter, decide_eq_true_eq]
    constructor
    · exact fun every c member field part listed => every part ⟨c, ⟨member, field⟩, listed⟩
    · rintro every part ⟨c, ⟨member, field⟩, listed⟩
      exact every c member field part listed
  rw [ruleMatches_true_iff, all]
  constructor
  · rintro ⟨kind, some_, holds⟩
    refine ⟨⟨kind, some_, fun c member field => ?_, fun c member _ => holds c member⟩, ?_⟩
    · exact ((description_true_iff field).mp (holds c member)).1
    · exact fun c member field => ((description_true_iff field).mp (holds c member)).2
  · rintro ⟨⟨kind, some_, operators, holds⟩, occurs⟩
    refine ⟨kind, some_, fun c member => ?_⟩
    by_cases field : c.field = "description"
    · exact (description_true_iff field).mpr ⟨operators c member field, occurs c member field⟩
    · exact holds c member field

/-- What is asked elsewhere does not read the description. -/
theorem Elsewhere.of_description {text : String} (asked : Elsewhere lower txn rule) :
    Elsewhere lower { txn with descriptionNorm := text } rule where
  kind := asked.kind
  some_ := asked.some_
  operators := asked.operators
  holds c member field := by
    have holds := asked.holds c member field
    simp only [conditionHolds, field, if_false] at holds ⊢
    exact holds

/-! ## The rule of a matcher in normal form -/

/-- A condition as it is sent, with a description's value in normal form. -/
def Condition.normal (u : Tables) (c : Condition) : Condition :=
  if c.field = "description" then { c with value := normalValue u c.value } else c

def asStored (c : Condition) : MatcherCondition := ⟨c.field, c.op, c.value, c.amountValue⟩

theorem asStored_injective : Function.Injective asStored := by
  rintro ⟨field, op, value, amount⟩ ⟨field', op', value', amount'⟩ same
  simpa [asStored] using same

theorem normalCondition_asStored : normalCondition u (asStored c) = asStored (c.normal u) := by
  by_cases field : c.field = "description" <;>
    simp [normalCondition, Condition.normal, asStored, field]

theorem toRule_normalRow {row : RuleRow × CategoryRow} (read : toRule row = .ok rule)
    (read' : toRule (normalRow u row) = .ok rule') :
    rule'.sourceKind = rule.sourceKind ∧ rule'.all = rule.all.map (Condition.normal u) := by
  obtain ⟨m, stored, same⟩ := toRule_ok read
  obtain ⟨m', stored', same'⟩ := toRule_ok read'
  obtain rfl : normalMatcher u m = m' := by
    rw [stored] at stored'
    exact Option.some.inj stored'
  obtain ⟨kind, -, all⟩ := Matcher.mk.inj same
  obtain ⟨kind', -, all'⟩ := Matcher.mk.inj same'
  refine ⟨kind'.trans kind.symm, List.map_injective_iff.mpr asStored_injective ?_⟩
  have listed : rule.all.map asStored = m.all := all
  have listed' : rule'.all.map asStored = m.all.map (normalCondition u) := all'
  rw [listed', ← listed, List.map_map, List.map_map]
  exact List.map_congr_left fun c _ => normalCondition_asStored

theorem Condition.normal_field : (c.normal u).field = c.field ∧ (c.normal u).op = c.op := by
  unfold Condition.normal
  split <;> exact ⟨rfl, rfl⟩

theorem Condition.normal_of_ne (field : c.field ≠ "description") : c.normal u = c := if_neg field

theorem elsewhere_normal (kind : rule'.sourceKind = rule.sourceKind)
    (all : rule'.all = rule.all.map (Condition.normal u)) :
    Elsewhere lower txn rule' ↔ Elsewhere lower txn rule := by
  constructor
  · rintro ⟨admitted, some_, operators, holds⟩
    rw [all, List.forall_mem_map] at operators holds
    refine ⟨kind ▸ admitted, fun empty => some_ (by simp [all, empty]), ?_, ?_⟩
    · intro c member field
      exact Condition.normal_field.2 ▸ operators c member (Condition.normal_field.1.trans field)
    · intro c member field
      have held := holds c member (Condition.normal_field.1.trans_ne field)
      rwa [Condition.normal_of_ne field] at held
  · rintro ⟨admitted, some_, operators, holds⟩
    refine ⟨kind.symm ▸ admitted, fun empty => some_ (by simpa [all] using empty), ?_, ?_⟩
    · rw [all, List.forall_mem_map]
      intro c member field
      exact Condition.normal_field.2.trans (operators c member (Condition.normal_field.1 ▸ field))
    · rw [all, List.forall_mem_map]
      intro c member field
      rw [Condition.normal_field.1] at field
      rw [Condition.normal_of_ne field]
      exact holds c member field

/-! ## Rules that match alike -/

theorem exists_other_char (a b : Char) : ∃ x : Char, x ≠ a ∧ x ≠ b := by
  by_contra! two
  by_cases same : a = 'a'
  · have second : 'b' = b := two 'b' (by rw [same]; decide)
    have third : 'c' = b := two 'c' (by rw [same]; decide)
    exact absurd (second.trans third.symm) (by decide)
  · have first : 'a' = b := two 'a' (Ne.symm same)
    have second : a = 'b' := by
      by_contra other
      exact absurd (first.trans (two 'b' (Ne.symm other)).symm) (by decide)
    have third : 'c' = b := two 'c' (by rw [second]; decide)
    exact absurd (first.trans third.symm) (by decide)

/-- A stored rule and the one in normal form match the same rows exactly when no row meets what they
ask beside the description, or each part of either is in a part of the other. -/
theorem normalRow_matches_iff (lower : String → String) (u : Tables) (row : RuleRow × CategoryRow)
    (rule rule' : Rule) (read : toRule row = .ok rule) (read' : toRule (normalRow u row) = .ok rule') :
    (∀ txn, ruleMatches lower txn rule = .ok true ↔ ruleMatches lower txn rule' = .ok true) ↔
      (∀ txn, ¬ Elsewhere lower txn rule) ∨
        Covered rule.parts rule'.parts ∧ Covered rule'.parts rule.parts := by
  obtain ⟨kind, all⟩ := toRule_normalRow read read'
  have some_ {rule : Rule} : ∀ part ∈ rule.parts, part ≠ [] := by
    intro part member
    obtain ⟨c, -, listed⟩ := List.mem_flatMap.mp member
    exact ne_nil_of_mem_parts listed
  simp only [matches_iff_parts, elsewhere_normal kind all]
  constructor
  · intro alike
    by_cases met : ∃ txn, Elsewhere lower txn rule
    · obtain ⟨txn, asked⟩ := met
      have described (text : List Char) := alike { txn with descriptionNorm := String.ofList text }
      simp only [String.toList_ofList, asked.of_description, true_and] at described
      refine .inr ⟨(holds_of_holds_iff exists_other_char some_).mp fun text => ?_,
        (holds_of_holds_iff exists_other_char some_).mp fun text => ?_⟩
      · exact (described text).mpr
      · exact (described text).mp
    · exact .inl fun txn asked => met ⟨txn, asked⟩
  · rintro (unmet | ⟨covered, covers⟩) txn
    · exact iff_of_false (fun both => unmet txn both.1) fun both => unmet txn both.1
    · have there := (holds_of_holds_iff exists_other_char some_).mpr covered txn.descriptionNorm.toList
      have back := (holds_of_holds_iff exists_other_char some_).mpr covers txn.descriptionNorm.toList
      exact ⟨fun ⟨asked, holds⟩ => ⟨asked, back holds⟩, fun ⟨asked, holds⟩ => ⟨asked, there holds⟩⟩

/-! ## A rule in lower case -/

theorem normalRow_matches_sample : ∃ rule rule', toRule (ruleOn "RENT; MAY") = .ok rule ∧
    toRule (normalRow asciiTables (ruleOn "RENT; MAY")) = .ok rule' ∧
    ∀ txn, ruleMatches id txn rule = .ok true ↔ ruleMatches id txn rule' = .ok true := by
  let rule : Rule := ⟨1, "0101", "org", "", [⟨"description", "contains_all", "RENT; MAY", none⟩]⟩
  let rule' : Rule := ⟨1, "0101", "org", "", [⟨"description", "contains_all",
    normalValue asciiTables "RENT; MAY", none⟩]⟩
  have read : toRule (ruleOn "RENT; MAY") = .ok rule := rfl
  have read' : toRule (normalRow asciiTables (ruleOn "RENT; MAY")) = .ok rule' := rfl
  refine ⟨rule, rule', read, read', (normalRow_matches_iff id asciiTables _ rule rule' read read').mpr ?_⟩
  have same : rule'.parts = rule.parts := by decide +kernel
  rw [same]
  exact .inr ⟨fun part member => ⟨part, member, List.infix_rfl⟩,
    fun part member => ⟨part, member, List.infix_rfl⟩⟩

/-- A rule on "rent" matches no payment of "RENT", and one on its normal form does. -/
theorem lower_case_never_matches :
    ¬ ∀ (lower : String → String) (u : Tables) (row : RuleRow × CategoryRow) (rule rule' : Rule),
      toRule row = .ok rule → toRule (normalRow u row) = .ok rule' →
      ∀ txn, ruleMatches lower txn rule = .ok true ↔ ruleMatches lower txn rule' = .ok true := by
  intro claimed
  let rule : Rule := ⟨1, "0101", "org", "", [⟨"description", "contains_all", "rent", none⟩]⟩
  let rule' : Rule := ⟨1, "0101", "org", "", [⟨"description", "contains_all",
    normalValue asciiTables "rent", none⟩]⟩
  have alike := claimed id asciiTables (ruleOn "rent") rule rule' rfl rfl (paymentTxn "1" "RENT" "" "")
  have asked : Elsewhere id (paymentTxn "1" "RENT" "" "") rule' := by
    refine ⟨.inl rfl, nofun, fun c member _ => ?_, fun c member other => absurd ?_ other⟩
    · rw [List.mem_singleton.mp member]
    · rw [List.mem_singleton.mp member]
  have found : ∀ part ∈ rule'.parts, part <:+: "RENT".toList := by decide +kernel
  have missed : ¬ ∀ part ∈ rule.parts, part <:+: "RENT".toList := by decide +kernel
  exact missed (matches_iff_parts.mp (alike.mpr (matches_iff_parts.mpr ⟨asked, found⟩))).2

end Vekst.Classify
