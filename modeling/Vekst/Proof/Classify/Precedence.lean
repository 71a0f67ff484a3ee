import Mathlib.Data.List.ReduceOption
import Vekst.Classify.Engine
import Vekst.Proof.Ledger.Emitted
import Vekst.Relational.Grouping

namespace Vekst.Classify
open Ledger

/-! ## The answer by layers -/

def matching (lower : String → String) (txn : Txn) (r : Rule) : Bool :=
  (ruleMatches lower txn r).toOption = some true

def ofRule (layer : String) (r : Rule) : Answer := ⟨r.categoryCode, layer, r.scope, r.priority⟩

def ofMemory (v : VendorMemory) : Answer :=
  let tier := String.ofList (v.key.toList.takeWhile (· ≠ ':'))
  ⟨v.categoryCode, Layer.vendor, (tierByPrefix.lookup tier).getD tier, 0⟩

/-- What the organisation remembers of the counterparty, else the first rule of the regulator that
matches, else the first rule over text that does, in the order of the request. -/
def layered (lower : String → String) (rules : List Rule) (vendors : List VendorMemory) (txn : Txn) :
    Option Answer :=
  ((vendors.find? fun v => txn.counterpartyKey ≠ "" && v.key = txn.counterpartyKey).map ofMemory).or
    (((rules.find? fun r => isRegulated r && matching lower txn r).map (ofRule Layer.regulated)).or
      ((rules.find? fun r => !isRegulated r && matching lower txn r).map (ofRule Layer.rule)))

/-- The least confidence that is posted; zero is none at all. -/
def BatchRequest.least (request : BatchRequest) : ℚ :=
  if request.threshold = 0 then 80 / 100 else request.threshold

def proposalOf (request : BatchRequest) (txn : Txn) (a : Answer) : Option Proposal :=
  if request.least ≤ a.confidence then
    some ⟨txn.transactionID, a.categoryCode, a.layer, a.confidence, a.evidence⟩
  else none

variable {lower : String → String} {txn : Txn} {rules regulated textual : List Rule}
  {vendors : List VendorMemory} {answer : Option Answer}

/-- A group that is read without a refusal is answered by its first rule that matches. -/
theorem firstMatch_ok {layer : String} (answered : firstMatch lower txn layer rules = .ok answer) :
    answer = (rules.find? (matching lower txn)).map (ofRule layer) := by
  induction rules with
  | nil =>
      cases answered
      rfl
  | cons r rest ih =>
      rw [firstMatch, bind_ok] at answered
      obtain ⟨found, matched, answered⟩ := answered
      rw [List.find?_cons, matching, matched]
      cases found with
      | true =>
          cases answered
          rfl
      | false => exact ih answered

theorem remembered_eq (unique : (vendors.map (·.key)).Nodup) (key : String) :
    remembered vendors key = vendors.find? (·.key = key) := by
  unfold remembered
  cases found : vendors.find? (·.key = key) with
  | none =>
      rw [List.find?_eq_none] at found ⊢
      exact fun v member => found v (List.mem_reverse.mp member)
  | some v =>
      have member := List.mem_of_find?_eq_some found
      have named : v.key = key := by simpa using List.find?_some found
      cases last : vendors.reverse.find? (·.key = key) with
      | none =>
          have absent := List.find?_eq_none.mp last v (List.mem_reverse.mpr member)
          exact absurd (decide_eq_true named) absent
      | some w =>
          have member' := List.mem_reverse.mp (List.mem_of_find?_eq_some last)
          have named' : w.key = key := by simpa using List.find?_some last
          rw [List.inj_on_of_nodup_map unique member' member (named'.trans named.symm)]

theorem find?_filter_and (p q : Rule → Bool) :
    (rules.filter p).find? q = rules.find? fun r => p r && q r := by
  rw [List.find?_filter]
  simp only [Bool.decide_and, Bool.decide_eq_true]

theorem memory_eq (unique : (vendors.map (·.key)).Nodup) :
    (if txn.counterpartyKey = "" then none else remembered vendors txn.counterpartyKey) =
      vendors.find? fun v => txn.counterpartyKey ≠ "" && v.key = txn.counterpartyKey := by
  split
  case isTrue empty =>
    rw [eq_comm, List.find?_eq_none]
    simp [empty]
  case isFalse keyed => simp [keyed, remembered_eq unique]

/-- A row that is answered at all is answered by the layers in their order. -/
theorem classifyOne_ok (unique : (vendors.map (·.key)).Nodup)
    (answered : classifyOne lower txn (rules.filter isRegulated) (rules.filter (!isRegulated ·))
      vendors = .ok answer) : answer = layered lower rules vendors txn := by
  unfold classifyOne at answered
  rw [memory_eq unique] at answered
  unfold layered
  cases found : vendors.find? fun v => txn.counterpartyKey ≠ "" && v.key = txn.counterpartyKey with
  | some v =>
      have keyed : v.key = txn.counterpartyKey := by
        have both := List.find?_some found
        simp only [Bool.and_eq_true, decide_eq_true_eq] at both
        exact both.2
      rw [found] at answered
      cases answered
      rw [Option.map_some, Option.some_or, ofMemory, keyed]
  | none =>
      rw [found] at answered
      obtain ⟨first, regulated, answered⟩ := bind_ok.mp answered
      have known := firstMatch_ok regulated
      rw [find?_filter_and] at known
      rw [Option.map_none, Option.none_or, ← known]
      cases first with
      | some a =>
          cases answered
          rfl
      | none =>
          rw [Option.none_or, ← find?_filter_and]
          exact firstMatch_ok answered

/-! ## The batch -/

theorem propose_ok {request : BatchRequest} {proposal : Option Proposal}
    (unique : (request.vendors.map (·.key)).Nodup)
    (proposed : propose lower (if request.threshold = 0 then defaultThreshold else request.threshold)
      (request.rules.filter isRegulated) (request.rules.filter (!isRegulated ·)) request.vendors txn =
        .ok proposal) :
    proposal = (layered lower request.rules request.vendors txn).bind (proposalOf request txn) := by
  obtain ⟨answer, answered, proposed⟩ := bind_ok.mp proposed
  rw [← classifyOne_ok unique answered]
  cases answer with
  | none =>
      cases proposed
      rfl
  | some a =>
      have least : request.least = if request.threshold = 0 then defaultThreshold
        else request.threshold := rfl
      dsimp only at proposed
      rw [← least] at proposed
      rw [Option.bind_some, proposalOf]
      split at proposed
      case isTrue low =>
        cases proposed
        rw [if_neg (not_le.mpr low)]
      case isFalse high =>
        cases proposed
        rw [if_pos (not_lt.mp high)]

/-- What a request is held to before a row of it is read. -/
structure Admitted (request : BatchRequest) : Prop where
  version : request.normalizeVersion ∈ supportedNormalizeVersions
  rules : ∀ r ∈ request.rules, r.categoryCode ∈ request.categories.map (·.code)
  vendors : ∀ v ∈ request.vendors, v.categoryCode ∈ request.categories.map (·.code)

/-- The proposals of some rows, or the refusal of one. -/
def proposed (lower : String → String) (request : BatchRequest) (txns : List Txn) :
    Except Rejected (List (Option Proposal)) :=
  txns.mapM (propose lower (if request.threshold = 0 then defaultThreshold else request.threshold)
    (request.rules.filter isRegulated) (request.rules.filter (!isRegulated ·)) request.vendors)

theorem rejectUnknownCodes_ok {known used : List String} :
    rejectUnknownCodes known used = .ok () ↔ ∀ code ∈ used, code ∈ known := by
  simp [rejectUnknownCodes]

theorem engineBatch_ok {engineVersion : String} {request : BatchRequest} {response : BatchResponse} :
    engineBatch lower engineVersion request = .ok response ↔ Admitted request ∧
      ∃ proposals, proposed lower request request.txns = .ok proposals ∧
        response = ⟨engineVersion, request.rulesetVersion, proposals.reduceOption⟩ := by
  have codes {items : List String} : rejectUnknownCodes (request.categories.map (·.code)) items = .ok () ↔
      ∀ code ∈ items, code ∈ request.categories.map (·.code) := rejectUnknownCodes_ok
  by_cases version : request.normalizeVersion ∈ supportedNormalizeVersions
  · simp only [engineBatch, version, not_true_eq_false, if_false, bind_ok, codes,
      List.forall_mem_map]
    constructor
    · rintro ⟨_, rules, _, vendors, proposals, made, answered⟩
      cases answered
      exact ⟨⟨version, rules, vendors⟩, proposals, made, rfl⟩
    · rintro ⟨⟨_, rules, vendors⟩, proposals, made, rfl⟩
      exact ⟨(), rules, (), vendors, proposals, made, rfl⟩
  · constructor
    · intro answered
      simp only [engineBatch, version, not_false_eq_true, if_true, bind_ok] at answered
      obtain ⟨_, refused, _⟩ := answered
      cases refused
    · rintro ⟨admitted, _⟩
      exact absurd admitted.version version

/-! ## Precedence -/

/-- Rules that only those below the layer tell apart. -/
def SameAbove (layer : String) (rules rules' : List Rule) : Prop :=
  (layer = Layer.regulated → rules'.filter isRegulated = rules.filter isRegulated) ∧
    (layer = Layer.rule → rules' = rules)

/-- What an accepted request is answered. -/
structure Precedence (lower : String → String) (engineVersion : String) (request : BatchRequest)
    (response : BatchResponse) : Prop where
  answers : ∀ txn ∈ request.txns, classifyOne lower txn (request.rules.filter isRegulated)
    (request.rules.filter (!isRegulated ·)) request.vendors =
      .ok (layered lower request.rules request.vendors txn)
  proposals : response.proposals = request.txns.filterMap fun txn =>
    (layered lower request.rules request.vendors txn).bind (proposalOf request txn)
  known : ∀ p ∈ response.proposals, p.categoryCode ∈ request.categories.map (·.code)
  below : ∀ txn ∈ request.txns, ∀ a, layered lower request.rules request.vendors txn = some a →
    ∀ rules', SameAbove a.layer request.rules rules' →
      classifyOne lower txn (rules'.filter isRegulated) (rules'.filter (!isRegulated ·))
        request.vendors = .ok (some a)
  parted : ∀ left right, request.txns = left ++ right → ∃ l r,
    engineBatch lower engineVersion { request with txns := left } = .ok l ∧
    engineBatch lower engineVersion { request with txns := right } = .ok r ∧
    response.proposals = l.proposals ++ r.proposals
  joined : ∀ more other, engineBatch lower engineVersion { request with txns := more } = .ok other →
    engineBatch lower engineVersion { request with txns := request.txns ++ more } =
      .ok ⟨engineVersion, request.rulesetVersion, response.proposals ++ other.proposals⟩

theorem layered_code {request : BatchRequest} (admitted : Admitted request) {a : Answer}
    (answered : layered lower request.rules request.vendors txn = some a) :
    a.categoryCode ∈ request.categories.map (·.code) := by
  rcases Option.or_eq_some_iff.mp answered with memory | ⟨_, ruled⟩
  · obtain ⟨v, found, rfl⟩ := Option.map_eq_some_iff.mp memory
    exact admitted.vendors v (List.mem_of_find?_eq_some found)
  · rcases Option.or_eq_some_iff.mp ruled with regulated | ⟨_, textual⟩
    · obtain ⟨r, found, rfl⟩ := Option.map_eq_some_iff.mp regulated
      exact admitted.rules r (List.mem_of_find?_eq_some found)
    · obtain ⟨r, found, rfl⟩ := Option.map_eq_some_iff.mp textual
      exact admitted.rules r (List.mem_of_find?_eq_some found)

/-- What lies below the layer that answered is not read. -/
theorem classifyOne_below {a : Answer} {rules' : List Rule}
    (answered : classifyOne lower txn (rules.filter isRegulated) (rules.filter (!isRegulated ·))
      vendors = .ok (some a)) (same : SameAbove a.layer rules rules') :
    classifyOne lower txn (rules'.filter isRegulated) (rules'.filter (!isRegulated ·)) vendors =
      .ok (some a) := by
  unfold classifyOne at answered ⊢
  cases found : if txn.counterpartyKey = "" then none else remembered vendors txn.counterpartyKey with
  | some v =>
      rw [found] at answered
      exact answered
  | none =>
      rw [found] at answered
      obtain ⟨first, regulated, answered⟩ := bind_ok.mp answered
      cases first with
      | some b =>
          cases answered
          obtain ⟨r, _, made⟩ := Option.map_eq_some_iff.mp (firstMatch_ok regulated).symm
          have layer : a.layer = Layer.regulated := by
            rw [← made]
            rfl
          rw [same.1 layer]
          exact bind_ok.mpr ⟨_, regulated, rfl⟩
      | none =>
          obtain ⟨r, _, made⟩ := Option.map_eq_some_iff.mp (firstMatch_ok answered).symm
          have layer : a.layer = Layer.rule := by
            rw [← made]
            rfl
          rw [same.2 layer]
          exact bind_ok.mpr ⟨_, regulated, answered⟩

theorem proposed_ok {request : BatchRequest} {txns : List Txn} {proposals : List (Option Proposal)}
    (unique : (request.vendors.map (·.key)).Nodup)
    (made : proposed lower request txns = .ok proposals) : proposals = txns.map fun txn =>
      (layered lower request.rules request.vendors txn).bind (proposalOf request txn) := by
  rw [← List.map_id proposals]
  exact Relational.map_mapM made id _ fun _ _ proposed => propose_ok unique proposed

theorem reduceOption_append {α : Type} (l r : List (Option α)) :
    (l ++ r).reduceOption = l.reduceOption ++ r.reduceOption := List.filterMap_append

/-- Layers before priorities, the first rule within a layer, and every row by itself. -/
theorem engineBatch_precedence (lower : String → String) (engineVersion : String)
    (request : BatchRequest) (response : BatchResponse)
    (unique : (request.vendors.map (·.key)).Nodup)
    (accepted : engineBatch lower engineVersion request = .ok response) :
    Precedence lower engineVersion request response := by
  obtain ⟨admitted, proposals, made, rfl⟩ := engineBatch_ok.mp accepted
  have answers : ∀ txn ∈ request.txns, classifyOne lower txn (request.rules.filter isRegulated)
      (request.rules.filter (!isRegulated ·)) request.vendors =
        .ok (layered lower request.rules request.vendors txn) := by
    intro txn member
    obtain ⟨proposal, _, proposed⟩ := Relational.exists_of_mapM made member
    obtain ⟨answer, answered, _⟩ := bind_ok.mp proposed
    rw [answered, classifyOne_ok unique answered]
  have listed : proposals.reduceOption = request.txns.filterMap fun txn =>
      (layered lower request.rules request.vendors txn).bind (proposalOf request txn) := by
    rw [proposed_ok unique made, List.reduceOption, List.filterMap_map]
    rfl
  refine ⟨answers, listed, ?_, ?_, ?_, ?_⟩
  · intro p member
    rw [listed, List.mem_filterMap] at member
    obtain ⟨txn, _, made⟩ := member
    obtain ⟨a, answered, made⟩ := Option.bind_eq_some_iff.mp made
    unfold proposalOf at made
    split at made
    case isTrue =>
      cases made
      exact layered_code admitted answered
    case isFalse => cases made
  · intro txn member a answered rules' same
    have before := answers txn member
    rw [answered] at before
    exact classifyOne_below before same
  · intro left right parts
    rw [parts, proposed, List.mapM_append] at made
    obtain ⟨l, first, made⟩ := bind_ok.mp made
    obtain ⟨r, second, made⟩ := bind_ok.mp made
    cases made
    refine ⟨_, _, engineBatch_ok.mpr ⟨⟨admitted.version, admitted.rules, admitted.vendors⟩, l, first, rfl⟩,
      engineBatch_ok.mpr ⟨⟨admitted.version, admitted.rules, admitted.vendors⟩, r, second, rfl⟩, ?_⟩
    exact reduceOption_append l r
  · intro more other answered
    obtain ⟨_, others, later, rfl⟩ := engineBatch_ok.mp answered
    refine engineBatch_ok.mpr ⟨⟨admitted.version, admitted.rules, admitted.vendors⟩,
      proposals ++ others, ?_, ?_⟩
    · rw [proposed, List.mapM_append]
      exact bind_ok.mpr ⟨_, made, bind_ok.mpr ⟨_, later, rfl⟩⟩
    · rw [reduceOption_append]

/-! ## A request -/

def paymentTxn (id description key code : String) : Txn :=
  ⟨id, "bank", description, key, "expense", ⟨"BYN", -100⟩, code, "1"⟩

/-- A textual rule in front of one of the regulator, and a name that is remembered. -/
def threeLayers : BatchRequest where
  requestID := "1"
  taxonomyVersion := "v1"
  rulesetVersion := "v1"
  normalizeVersion := "v1"
  categories := [⟨"0101", "", false⟩, ⟨"0201", "", false⟩, ⟨"0301", "", false⟩]
  rules := [⟨1, "0301", "country:BY", "", [⟨"description", "contains_all", "RENT", none⟩]⟩,
    ⟨2, "0201", "country:KZ", "bank", [⟨"regulated_code", "eq", "223", none⟩]⟩]
  vendors := [⟨"name:SHOP", "0101", ""⟩]
  txns := [paymentTxn "1" "RENT" "name:SHOP" "223", paymentTxn "2" "RENT" "" "223",
    paymentTxn "3" "RENT 5" "name:BANK" "", paymentTxn "4" "" "" ""]
  threshold := 0

theorem engineBatch_precedence_sample : ∃ response, engineBatch id "v1" threeLayers = .ok response ∧
    response.proposals.map (fun p => (p.transactionID, p.categoryCode)) =
      [("1", "0101"), ("2", "0201"), ("3", "0301")] ∧ Precedence id "v1" threeLayers response := by
  have evaluated : (engineBatch id "v1" threeLayers).toOption.map (fun response =>
      response.proposals.map fun p => (p.transactionID, p.categoryCode)) =
        some [("1", "0101"), ("2", "0201"), ("3", "0301")] := by decide +kernel
  cases accepted : engineBatch id "v1" threeLayers with
  | error e =>
      rw [accepted] at evaluated
      cases evaluated
  | ok response =>
      rw [accepted] at evaluated
      exact ⟨response, rfl, Option.some.inj evaluated,
        engineBatch_precedence id "v1" threeLayers response (by decide) accepted⟩

end Vekst.Classify
