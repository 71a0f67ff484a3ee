import Vekst.Classify.Engine
import Vekst.Eval.Engine
import Vekst.Proof.Normalize.Description

namespace Vekst.Eval
open Regex Normalize

/-! ## One rule list before both engines -/

/-- The rule as the evaluation is given it. -/
def ofRule (r : Classify.Rule) : Rule :=
  ⟨r.priority, r.scope, r.categoryCode, r.all.map fun c => ⟨c.field, c.op, c.value⟩⟩

/-- The vendor memory as the evaluation is given it: a repeated key keeps its last row. -/
def ofVendors (vendors : List Classify.VendorMemory) : List (String × String) :=
  vendors.reverse.map fun v => (v.key, v.categoryCode)

/-- The conditions both engines have a matcher for. -/
def Covered (c : Classify.Condition) : Prop :=
  c.field = "description" ∧ c.op = "contains_all" ∨
    (c.field = "direction" ∨ c.field = "regulated_code" ∨ c.field = "counterparty_key") ∧ c.op = "eq"

instance : DecidablePred Covered := fun c =>
  inferInstanceAs (Decidable (c.field = "description" ∧ c.op = "contains_all" ∨ _))

/-- The fields of a request are the row's own, normalised. -/
structure Prepared (u : Tables) (row : Txn) (txn : Classify.Txn) : Prop where
  description : txn.descriptionNorm = String.ofList (normalizeDescription u (got row.purp).toList)
  counterparty : txn.counterpartyKey = (key u row).1
  regulated : txn.regulatedCode = orElse row.knp (orElse row.typ "")
  direction : txn.direction = got row.dir

section Engines

variable {u : Tables} {lower : String → String} {row : Txn} {txn : Classify.Txn}

theorem conditionHolds_eq (prepared : Prepared u row txn) {c : Classify.Condition}
    (covered : Covered c) : Classify.conditionHolds lower txn c =
      .ok (conditionHolds u lower row ⟨c.field, c.op, c.value⟩) := by
  obtain ⟨description, counterparty, regulated, direction⟩ := prepared
  have equal : Classify.requireEq "eq" = .ok () := rfl
  rcases covered with ⟨field, op⟩ | ⟨field | field | field, op⟩
  · simp [Classify.conditionHolds, conditionHolds, field, op, description, Classify.parts, parts]
  · simp [Classify.conditionHolds, conditionHolds, field, op, direction, equal, bind, Except.bind,
      pure, Except.pure]
  · simp [Classify.conditionHolds, conditionHolds, field, op, regulated, equal, bind, Except.bind,
      pure, Except.pure, Classify.fieldRegulatedCode]
  · simp [Classify.conditionHolds, conditionHolds, field, op, counterparty, equal, bind,
      Except.bind, pure, Except.pure, Classify.fieldRegulatedCode]

theorem allHold_eq (prepared : Prepared u row txn) {conditions : List Classify.Condition}
    (covered : ∀ c ∈ conditions, Covered c) : Classify.allHold lower txn conditions =
      .ok ((conditions.map fun c => ⟨c.field, c.op, c.value⟩).all (conditionHolds u lower row)) := by
  induction conditions with
  | nil => rfl
  | cons c rest ih =>
      have first := @conditionHolds_eq _ lower _ _ prepared c (covered c List.mem_cons_self)
      have later := ih fun other member => covered other (List.mem_cons_of_mem c member)
      rw [Classify.allHold, first, List.map_cons, List.all_cons]
      cases conditionHolds u lower row ⟨c.field, c.op, c.value⟩ with
      | true => exact later
      | false => rfl

/-- A rule of the claim: it names conditions both engines have, and admits the row's source. -/
structure Applies (txn : Classify.Txn) (r : Classify.Rule) : Prop where
  some_ : r.all ≠ []
  covered : ∀ c ∈ r.all, Covered c
  admits : r.sourceKind = "" ∨ r.sourceKind = txn.sourceKind

theorem ruleMatches_eq (prepared : Prepared u row txn) {r : Classify.Rule}
    (applies : Applies txn r) : Classify.ruleMatches lower txn r =
      .ok ((ofRule r).all.all (conditionHolds u lower row)) := by
  have admitted : ¬ (r.sourceKind ≠ "" ∧ r.sourceKind ≠ txn.sourceKind) := by
    rintro ⟨named, other⟩
    exact applies.admits.elim named other
  rw [Classify.ruleMatches, if_neg admitted, if_neg applies.some_,
    allHold_eq prepared applies.covered]
  rfl

/-- What is compared of the answers of the two. -/
def ofAnswer (a : Classify.Answer) : String × String × ℚ := (a.categoryCode, a.layer, a.confidence)

def Answer.compared (a : Answer) : String × String × ℚ := (a.category, a.layer, a.confidence)

theorem firstMatch_eq (prepared : Prepared u row txn) {layer : String}
    (ruled : layer ≠ Classify.Layer.vendor) {rules : List Classify.Rule}
    (applies : ∀ r ∈ rules, Applies txn r) :
    (Classify.firstMatch lower txn layer rules).map (Option.map ofAnswer) =
      .ok ((answerOf u lower row layer (rules.map ofRule)).map Answer.compared) := by
  induction rules with
  | nil => rfl
  | cons r rest ih =>
      have first := @ruleMatches_eq _ lower _ _ prepared r (applies r List.mem_cons_self)
      have later := ih fun other member => applies other (List.mem_cons_of_mem r member)
      rw [Classify.firstMatch, first, answerOf, List.map_cons, List.find?_cons]
      cases (ofRule r).all.all (conditionHolds u lower row) with
      | true =>
          have confidence : Classify.confidenceOf layer =
              if layer = "L0.5" then 99 / 100 else 95 / 100 := if_neg ruled
          change Except.ok (some (_, _, Classify.confidenceOf layer)) = Except.ok (some (_, _, _))
          rw [confidence]
          rfl
      | false => exact later

theorem byCode_ofRule (r : Classify.Rule) : byCode (ofRule r) = Classify.isRegulated r := by
  rw [byCode, ofRule, List.any_map]
  rfl

theorem lookup_ofVendors (vendors : List Classify.VendorMemory) (key : String) :
    (ofVendors vendors).lookup key = (Classify.remembered vendors key).map (·.categoryCode) := by
  rw [ofVendors, Classify.remembered]
  induction vendors.reverse with
  | nil => rfl
  | cons v rest ih =>
      rw [List.map_cons, List.lookup_cons, List.find?_cons]
      by_cases same : v.key = key
      · simp [same]
      · have other : (key == v.key) = false := beq_false_of_ne fun h => same h.symm
        simp [same, other, ih]

/-- Both look the same key up, and neither finds an empty one. -/
theorem remembered_eq (prepared : Prepared u row txn) {vendors : List Classify.VendorMemory}
    (keyed : ∀ v ∈ vendors, v.key ≠ "") :
    (if ofVendors vendors = [] then none else (ofVendors vendors).lookup (key u row).1) =
      (if txn.counterpartyKey = "" then none
        else Classify.remembered vendors txn.counterpartyKey).map (·.categoryCode) := by
  rw [← prepared.counterparty, lookup_ofVendors]
  split
  next empty =>
    rw [ofVendors, List.map_eq_nil_iff, List.reverse_eq_nil_iff] at empty
    simp [empty, Classify.remembered]
  next =>
    split
    next unkeyed =>
      rw [unkeyed]
      cases found : Classify.remembered vendors "" with
      | none => rfl
      | some v =>
          have known := List.mem_reverse.mp (List.mem_of_find?_eq_some found)
          have empty : v.key = "" := by simpa using List.find?_some found
          exact absurd empty (keyed v known)
    next => rfl

/-- On the rules both engines can read, the service answers as the evaluation does. -/
theorem classifyOne_eq_classify (prepared : Prepared u row txn) (rules : List Classify.Rule)
    (vendors : List Classify.VendorMemory) (applies : ∀ r ∈ rules, Applies txn r)
    (keyed : ∀ v ∈ vendors, v.key ≠ "") :
    (Classify.classifyOne lower txn (rules.filter Classify.isRegulated)
        (rules.filter (!Classify.isRegulated ·)) vendors).map (Option.map ofAnswer) =
      .ok ((classify u lower row (rules.map ofRule) (ofVendors vendors)).map Answer.compared) := by
  have regulated : (rules.map ofRule).filter byCode =
      (rules.filter Classify.isRegulated).map ofRule := by
    rw [List.filter_map]
    congr 2
    exact funext byCode_ofRule
  have textual : (rules.map ofRule).filter (!byCode ·) =
      (rules.filter (!Classify.isRegulated ·)).map ofRule := by
    rw [List.filter_map]
    congr 2
    exact funext fun r => congrArg not (byCode_ofRule r)
  have among (p : Classify.Rule → Bool) : ∀ r ∈ rules.filter p, Applies txn r :=
    fun r member => applies r (List.mem_of_mem_filter member)
  have first := @firstMatch_eq u lower _ _ prepared Classify.Layer.regulated (by decide) _
    (among Classify.isRegulated)
  have second := @firstMatch_eq u lower _ _ prepared Classify.Layer.rule (by decide) _
    (among (!Classify.isRegulated ·))
  simp only [Classify.classifyOne, classify, regulated, textual, remembered_eq prepared keyed]
  cases (if txn.counterpartyKey = "" then none
    else Classify.remembered vendors txn.counterpartyKey) with
  | some v => rfl
  | none =>
      change (Classify.firstMatch _ _ _ _ >>= _).map _ = Except.ok (Option.map _ (Option.or _ _))
      cases found : Classify.firstMatch lower txn Classify.Layer.regulated
          (rules.filter Classify.isRegulated) with
      | error e =>
          rw [found] at first
          cases first
      | ok answer =>
          rw [found] at first
          have same := Except.ok.inj first
          cases answer with
          | none =>
              have missed := Option.map_eq_none_iff.mp same.symm
              change answerOf u lower row "L0.5" _ = none at missed
              rw [missed, Option.none_or]
              exact second
          | some answer =>
              obtain ⟨other, known, agree⟩ := Option.map_eq_some_iff.mp same.symm
              change answerOf u lower row "L0.5" _ = some other at known
              rw [known, Option.some_or, Option.map_some, agree]
              rfl

end Engines

/-! ## A row of a statement -/

def sampleTxn : Txn where
  purp := some "PAYMENT 1"
  dir := some "expense"
  knp := none
  typ := some "223"
  cp := some "SHOP"
  tax := none
  acct := none

def samplePrepared : Classify.Txn where
  transactionID := "1"
  sourceKind := "bank"
  descriptionNorm := String.ofList (normalizeDescription asciiTables "PAYMENT 1".toList)
  counterpartyKey := (key asciiTables sampleTxn).1
  direction := "expense"
  amount := ⟨"BYN", -100⟩
  regulatedCode := "223"
  accountID := "1"

def sampleRules : List Classify.Rule := [
  ⟨1, "0101", "country:PL", "", [⟨"description", "contains_all", "PAYMENT; 1", none⟩]⟩,
  ⟨2, "0501", "bank:pko", "bank", [⟨"regulated_code", "eq", "223", none⟩]⟩]

theorem classifyOne_eq_classify_sample :
    (Classify.classifyOne id samplePrepared (sampleRules.filter Classify.isRegulated)
        (sampleRules.filter (!Classify.isRegulated ·)) [⟨"tax:123456789", "0201", ""⟩]).map
        (Option.map ofAnswer) = .ok (some ("0501", "L0.5", 99 / 100)) := by
  have prepared : Prepared asciiTables sampleTxn samplePrepared := ⟨rfl, rfl, rfl, rfl⟩
  have applies : ∀ r ∈ sampleRules, Applies samplePrepared r := by
    intro r member
    simp only [sampleRules, List.mem_cons, List.not_mem_nil, or_false] at member
    rcases member with rfl | rfl
    · exact ⟨List.cons_ne_nil _ _, by decide, .inl rfl⟩
    · exact ⟨List.cons_ne_nil _ _, by decide, .inr rfl⟩
  rw [classifyOne_eq_classify prepared sampleRules _ applies (by simp)]
  decide +kernel

end Vekst.Eval
