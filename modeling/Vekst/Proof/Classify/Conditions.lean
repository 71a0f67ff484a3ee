import Vekst.Proof.Classify.Precedence
import Vekst.Relational.Search

namespace Vekst.Classify
open Ledger Relational

variable {lower : String → String} {engineVersion : String} {txn : Txn} {c : Condition} {rule : Rule}
  {rules : List Rule} {all : List Condition} {vendors : List VendorMemory} {layer : String}

/-! ## Conditions that the engine knows -/

/-- The operators the engine knows of a field. -/
def operators (field : String) : List String :=
  if field = "description" then ["contains_all"]
  else if field ∈ ["direction", fieldRegulatedCode, "counterparty_key", "account"] then ["eq"]
  else if field = "amount" then ["gte", "lte"]
  else []

def Supported (c : Condition) : Prop := c.op ∈ operators c.field

instance (c : Condition) : Decidable (Supported c) := inferInstanceAs (Decidable (_ ∈ _))

/-- The rule has conditions, and the engine knows them all. -/
def Understood (rule : Rule) : Prop := rule.all ≠ [] ∧ ∀ c ∈ rule.all, Supported c

instance (rule : Rule) : Decidable (Understood rule) := inferInstanceAs (Decidable (_ ∧ _))

theorem requireEq_bind_error {op : String} {b : Bool} :
    (∃ e, (requireEq op >>= fun _ => (pure b : Except Rejected Bool)) = .error e) ↔ op ≠ "eq" := by
  unfold requireEq
  split
  case isTrue same => simp [same, bind, Except.bind, pure, Except.pure]
  case isFalse other => simp [other, bind, Except.bind]

/-- A condition is refused for its field and operator only. -/
theorem conditionHolds_error_iff :
    (∃ e, conditionHolds lower txn c = .error e) ↔ ¬ Supported c := by
  by_cases description : c.field = "description"
  · by_cases known : c.op = "contains_all" <;>
      simp [conditionHolds, Supported, operators, description, known]
  by_cases equal : c.field ∈ ["direction", fieldRegulatedCode, "counterparty_key", "account"]
  · have supported : Supported c ↔ c.op = "eq" := by
      simp [Supported, operators, description, equal]
    rw [supported]
    simp only [List.mem_cons, List.not_mem_nil, or_false] at equal
    rcases equal with named | named | named | named <;>
      simpa [conditionHolds, named, fieldRegulatedCode] using requireEq_bind_error
  by_cases amount : c.field = "amount"
  · have supported : Supported c ↔ c.op = "gte" ∨ c.op = "lte" := by
      simp [Supported, operators, amount, fieldRegulatedCode]
    rw [supported]
    by_cases known : c.op ≠ "gte" ∧ c.op ≠ "lte"
    · simp [conditionHolds, amount, fieldRegulatedCode, known]
    · have answered : ∃ b, conditionHolds lower txn c = .ok b := by
        simp only [conditionHolds, amount, fieldRegulatedCode, known]
        simp only [String.reduceEq, if_false, if_true]
        split
        · exact ⟨_, rfl⟩
        · split <;> exact ⟨_, rfl⟩
      obtain ⟨b, answered⟩ := answered
      simp only [answered, reduceCtorEq, exists_false, false_iff, not_not]
      tauto
  · have unknown : ¬ Supported c := by
      simp [Supported, operators, description, equal, amount]
    simp only [List.mem_cons, List.not_mem_nil, or_false, not_or] at equal
    simp [conditionHolds, unknown, description, equal, amount]

/-! ## What a rule is refused for -/

/-- Conditions are read up to the first that does not hold. -/
theorem allHold_error_iff : (∃ e, allHold lower txn all = .error e) ↔
    Reaches (fun c => conditionHolds lower txn c = .ok true) (¬ Supported ·) all := by
  induction all with
  | nil => simp [allHold]
  | cons c rest ih =>
      rw [reaches_cons, ← ih, ← conditionHolds_error_iff, allHold]
      cases answered : conditionHolds lower txn c with
      | error e => simp [bind, Except.bind]
      | ok b => cases b <;> simp [bind, Except.bind, pure, Except.pure]

/-- A rule that the row comes to and that is refused: it says nothing, or a condition that the engine
does not know stands behind conditions that hold. -/
def Stuck (lower : String → String) (txn : Txn) (rule : Rule) : Prop :=
  (rule.sourceKind = "" ∨ rule.sourceKind = txn.sourceKind) ∧ (rule.all = [] ∨
    Reaches (fun c => conditionHolds lower txn c = .ok true) (¬ Supported ·) rule.all)

theorem ruleMatches_error_iff : (∃ e, ruleMatches lower txn rule = .error e) ↔ Stuck lower txn rule := by
  unfold ruleMatches Stuck
  by_cases aside : rule.sourceKind ≠ "" ∧ rule.sourceKind ≠ txn.sourceKind
  · rw [if_pos aside]
    simp [aside]
  · have admitted : rule.sourceKind = "" ∨ rule.sourceKind = txn.sourceKind := by tauto
    rw [if_neg aside]
    by_cases empty : rule.all = []
    · simp [empty, admitted]
    · rw [if_neg empty, allHold_error_iff]
      simp [empty, admitted]

/-- Rules are tried up to the first that matches. -/
theorem firstMatch_error_iff : (∃ e, firstMatch lower txn layer rules = .error e) ↔
    Reaches (fun r => ruleMatches lower txn r = .ok false) (Stuck lower txn) rules := by
  induction rules with
  | nil => simp [firstMatch]
  | cons r rest ih =>
      rw [reaches_cons, ← ih, ← ruleMatches_error_iff, firstMatch]
      cases answered : ruleMatches lower txn r with
      | error e => simp [bind, Except.bind]
      | ok b => cases b <;> simp [bind, Except.bind, pure, Except.pure]

theorem firstMatch_none_iff : firstMatch lower txn layer rules = .ok none ↔
    ∀ r ∈ rules, ruleMatches lower txn r = .ok false := by
  induction rules with
  | nil => simp [firstMatch]
  | cons r rest ih =>
      rw [List.forall_mem_cons, ← ih, firstMatch]
      cases answered : ruleMatches lower txn r with
      | error e => simp [bind, Except.bind]
      | ok b => cases b <;> simp [bind, Except.bind, pure, Except.pure]

/-- No vendor memory answers the row. -/
def Unremembered (vendors : List VendorMemory) (txn : Txn) : Prop :=
  txn.counterpartyKey = "" ∨ ∀ v ∈ vendors, v.key ≠ txn.counterpartyKey

theorem unremembered_iff :
    (if txn.counterpartyKey = "" then none else remembered vendors txn.counterpartyKey) = none ↔
      Unremembered vendors txn := by
  unfold Unremembered remembered
  by_cases blank : txn.counterpartyKey = ""
  · simp [blank]
  · simp [blank, List.find?_eq_none]

/-- A row is refused at the first rule, of the regulator's and then of the others, that does not pass
and cannot be read. -/
theorem classifyOne_error_iff {regulated textual : List Rule} :
    (∃ e, classifyOne lower txn regulated textual vendors = .error e) ↔ Unremembered vendors txn ∧
      Reaches (fun r => ruleMatches lower txn r = .ok false) (Stuck lower txn)
        (regulated ++ textual) := by
  rw [← unremembered_iff, reaches_append, ← @firstMatch_error_iff _ _ _ Layer.regulated,
    ← @firstMatch_error_iff _ _ _ Layer.rule, ← @firstMatch_none_iff _ _ _ Layer.regulated]
  unfold classifyOne
  cases found : if txn.counterpartyKey = "" then none else remembered vendors txn.counterpartyKey with
  | some row => simp
  | none =>
      cases first : firstMatch lower txn Layer.regulated regulated with
      | error e => simp [bind, Except.bind]
      | ok answer => cases answer <;> simp [bind, Except.bind, pure, Except.pure]

theorem propose_error_iff {threshold : ℚ} {regulated textual : List Rule} :
    (∃ e, propose lower threshold regulated textual vendors txn = .error e) ↔
      ∃ e, classifyOne lower txn regulated textual vendors = .error e := by
  unfold propose
  cases answered : classifyOne lower txn regulated textual vendors with
  | error e => simp [bind, Except.bind]
  | ok answer =>
      cases answer with
      | none => simp [bind, Except.bind, pure, Except.pure]
      | some a =>
          simp only [bind, Except.bind]
          split <;> simp [pure, Except.pure]

/-! ## A rule that nothing understands -/

/-- The rules in the order in which they are tried. -/
def BatchRequest.tried (request : BatchRequest) : List Rule :=
  request.rules.filter isRegulated ++ request.rules.filter (!isRegulated ·)

/-- A request with a rule that the engine does not understand is rejected exactly when it is not
consistent, or a row that is not remembered comes to such a rule, past rules that do not match it and
conditions that hold. -/
theorem engineBatch_rejects_iff (lower : String → String) (engineVersion : String)
    (request : BatchRequest) (_ : ∃ rule ∈ request.rules, ¬ Understood rule) :
    (∃ e, engineBatch lower engineVersion request = .error e) ↔ ¬ Admitted request ∨
      ∃ txn ∈ request.txns, Unremembered request.vendors txn ∧
        Reaches (fun r => ruleMatches lower txn r = .ok false) (Stuck lower txn) request.tried := by
  have refused : (∃ e, engineBatch lower engineVersion request = .error e) ↔
      ¬ ∃ response, engineBatch lower engineVersion request = .ok response := by
    cases engineBatch lower engineVersion request <;> simp
  rw [refused]
  simp only [engineBatch_ok, BatchRequest.tried, ← classifyOne_error_iff]
  constructor
  · intro unanswered
    by_contra! consistent
    obtain ⟨admitted, answered⟩ := consistent
    refine unanswered ?_
    cases made : proposed lower request request.txns with
    | ok proposals => exact ⟨_, admitted, proposals, rfl, rfl⟩
    | error e =>
        obtain ⟨txn, member, failed⟩ := exists_error_of_mapM made
        obtain ⟨e', failed'⟩ := propose_error_iff.mp ⟨e, failed⟩
        exact absurd failed' (answered txn member e')
  · rintro inconsistent ⟨response, admitted, proposals, made, -⟩
    rcases inconsistent with unadmitted | ⟨txn, member, failed⟩
    · exact unadmitted admitted
    · obtain ⟨proposal, -, proposed_⟩ := exists_of_mapM made member
      obtain ⟨e, failed⟩ := propose_error_iff.mpr failed
      cases proposed_.symm.trans failed

/-- Some rows, and one rule, on a field that the engine does not know. -/
def unknownField (txns : List Txn) : BatchRequest where
  requestID := "1"
  taxonomyVersion := "v1"
  rulesetVersion := "v1"
  normalizeVersion := "v1"
  categories := [⟨"0101", "", false⟩]
  rules := [⟨1, "0101", "org", "bank", [⟨"colour", "eq", "x", none⟩]⟩]
  vendors := []
  txns := txns
  threshold := 0

theorem engineBatch_rejects_sample :
    ∃ e, engineBatch id "v1" (unknownField [paymentTxn "1" "RENT" "" ""]) = .error e := by
  refine (engineBatch_rejects_iff id "v1" _ ⟨_, List.mem_singleton_self _, by decide⟩).mpr (.inr ?_)
  refine ⟨_, List.mem_singleton_self _, .inl rfl, ?_⟩
  have tried : (unknownField [paymentTxn "1" "RENT" "" ""]).tried =
      [⟨1, "0101", "org", "bank", [⟨"colour", "eq", "x", none⟩]⟩] := by decide
  rw [tried, reaches_cons]
  exact .inl ⟨.inr rfl, .inr (reaches_cons.mpr (.inl (by decide)))⟩

/-- A request without rows is answered whatever its rules say. -/
theorem unknown_field_accepted :
    ¬ ∀ (lower : String → String) (engineVersion : String) (request : BatchRequest),
      (∃ rule ∈ request.rules, ¬ Understood rule) →
      ∃ e, engineBatch lower engineVersion request = .error e := by
  intro claimed
  obtain ⟨e, refused⟩ := claimed id "v1" (unknownField []) ⟨_, List.mem_singleton_self _, by decide⟩
  have answered : (engineBatch id "v1" (unknownField [])).toOption.isSome = true := by decide +kernel
  rw [refused] at answered
  cases answered

/-! ## What a rule matches by -/

theorem allHold_true_iff : allHold lower txn all = .ok true ↔
    ∀ c ∈ all, conditionHolds lower txn c = .ok true := by
  induction all with
  | nil => simp [allHold]
  | cons c rest ih =>
      rw [List.forall_mem_cons, ← ih, allHold]
      cases answered : conditionHolds lower txn c with
      | error e => simp [bind, Except.bind]
      | ok b => cases b <;> simp [bind, Except.bind, pure, Except.pure]

theorem ruleMatches_true_iff : ruleMatches lower txn rule = .ok true ↔
    (rule.sourceKind = "" ∨ rule.sourceKind = txn.sourceKind) ∧ rule.all ≠ [] ∧
      ∀ c ∈ rule.all, conditionHolds lower txn c = .ok true := by
  unfold ruleMatches
  by_cases aside : rule.sourceKind ≠ "" ∧ rule.sourceKind ≠ txn.sourceKind
  · rw [if_pos aside]
    simp [aside]
  · have admitted : rule.sourceKind = "" ∨ rule.sourceKind = txn.sourceKind := by tauto
    rw [if_neg aside]
    by_cases empty : rule.all = []
    · simp [empty]
    · rw [if_neg empty, allHold_true_iff]
      simp [empty, admitted]

/-- A value without a part that says anything. -/
def Blank (c : Condition) : Prop := c.field = "description" ∧ parts c.value = []

instance (c : Condition) : Decidable (Blank c) := inferInstanceAs (Decidable (_ ∧ _))

/-- A part of the condition's value occurs in the description. -/
def Evidenced (txn : Txn) (c : Condition) : Prop :=
  ∃ part ∈ parts c.value, part ≠ [] ∧ part <:+: txn.descriptionNorm.toList

theorem description_true_iff (description : c.field = "description") :
    conditionHolds lower txn c = .ok true ↔ c.op = "contains_all" ∧
      ∀ part ∈ parts c.value, part <:+: txn.descriptionNorm.toList := by
  by_cases known : c.op = "contains_all" <;> simp [conditionHolds, description, known]

theorem ne_nil_of_mem_parts {part : List Char} {value : String} (member : part ∈ parts value) :
    part ≠ [] := by
  simpa using (List.mem_filter.mp member).2

/-- A description condition that holds is evidenced unless it is blank. -/
theorem evidenced_iff (description : c.field = "description")
    (holds : conditionHolds lower txn c = .ok true) : Evidenced txn c ↔ ¬ Blank c := by
  obtain ⟨-, occurs⟩ := (description_true_iff description).mp holds
  constructor
  · rintro ⟨part, member, -⟩ ⟨-, blank⟩
    rw [blank] at member
    cases member
  · intro filled
    obtain ⟨part, member⟩ := List.exists_mem_of_ne_nil _ fun blank => filled ⟨description, blank⟩
    exact ⟨part, member, ne_nil_of_mem_parts member, occurs part member⟩

theorem requireEq_bind_true {op : String} {b : Bool} :
    (requireEq op >>= fun _ => (pure b : Except Rejected Bool)) = .ok true ↔ op = "eq" ∧ b = true := by
  unfold requireEq
  split
  case isTrue same => simp [same, bind, Except.bind, pure, Except.pure]
  case isFalse other => simp [other, bind, Except.bind]

theorem append_ne_self (value : String) : value ++ "0" ≠ value := by
  intro same
  have longer := congrArg String.length same
  simp at longer

/-- A row of a source kind that says nothing. -/
def plainTxn (kind : String) : Txn := ⟨"1", kind, "", "", "expense", ⟨"BYN", 0⟩, "", "1"⟩

/-- Every condition but a blank one is met by some rows only. -/
theorem exists_unmet (income : lower "income" = "income") (expense : lower "expense" = "expense")
    (kind : String) (filled : ¬ (c.op = "contains_all" ∧ Blank c)) :
    ∃ txn, txn.sourceKind = kind ∧ conditionHolds lower txn c ≠ .ok true := by
  by_cases supported : Supported c
  · by_cases description : c.field = "description"
    · refine ⟨plainTxn kind, rfl, fun holds => ?_⟩
      obtain ⟨known, occurs⟩ := (description_true_iff description).mp holds
      obtain ⟨part, member⟩ := List.exists_mem_of_ne_nil _ fun blank =>
        filled ⟨known, description, blank⟩
      exact ne_nil_of_mem_parts member (List.infix_nil.mp (occurs part member))
    by_cases direction : c.field = "direction"
    · let other := if lower c.value = "income" then "expense" else "income"
      refine ⟨{ plainTxn kind with direction := other }, rfl, fun holds => ?_⟩
      simp only [conditionHolds, direction, String.reduceEq, if_false, if_true] at holds
      have same := of_decide_eq_true (requireEq_bind_true.mp holds).2
      by_cases earned : lower c.value = "income"
      · simp only [other, earned, if_true, expense] at same
        exact absurd same (by decide)
      · simp only [other, earned, if_false, income] at same
        exact earned same.symm
    by_cases code : c.field = fieldRegulatedCode
    · refine ⟨{ plainTxn kind with regulatedCode := c.value ++ "0" }, rfl, fun holds => ?_⟩
      rw [conditionHolds, if_neg description, if_neg direction, if_pos code] at holds
      exact append_ne_self _ (of_decide_eq_true (requireEq_bind_true.mp holds).2)
    by_cases key : c.field = "counterparty_key"
    · refine ⟨{ plainTxn kind with counterpartyKey := c.value ++ "0" }, rfl, fun holds => ?_⟩
      rw [conditionHolds, if_neg description, if_neg direction, if_neg code, if_pos key] at holds
      exact append_ne_self _ (of_decide_eq_true (requireEq_bind_true.mp holds).2)
    by_cases account : c.field = "account"
    · refine ⟨{ plainTxn kind with accountID := c.value ++ "0" }, rfl, fun holds => ?_⟩
      rw [conditionHolds, if_neg description, if_neg direction, if_neg code, if_neg key,
        if_pos account] at holds
      exact append_ne_self _ (of_decide_eq_true (requireEq_bind_true.mp holds).2)
    · let want := c.amountValue.getD ⟨"", 0⟩
      let other := if want.currencyCode = "BYN" then "EUR" else "BYN"
      have apart : moneyComparable want ⟨other, 0⟩ = false := by
        by_cases home : want.currencyCode = "BYN" <;> simp [moneyComparable, other, home]
      refine ⟨{ plainTxn kind with amount := ⟨other, 0⟩ }, rfl, ?_⟩
      rw [conditionHolds, if_neg description, if_neg direction, if_neg code, if_neg key,
        if_neg account]
      split
      · split
        · nofun
        · dsimp only
          rw [if_pos (by simpa using apart)]
          nofun
      · nofun
  · obtain ⟨e, refused⟩ := @conditionHolds_error_iff lower (plainTxn kind) c |>.mpr supported
    exact ⟨plainTxn kind, rfl, by rw [refused]; nofun⟩

theorem all_ne_nil_of_toRule {row : RuleRow × CategoryRow} (read : toRule row = .ok rule) :
    rule.all ≠ [] := by
  unfold toRule at read
  split at read
  next => cases read
  next m _ =>
    by_cases empty : m.all = []
    · rw [if_pos empty] at read
      cases read
    · rw [if_neg empty] at read
      obtain ⟨all, converted, made⟩ := bind_ok.mp read
      cases made
      rintro rfl
      have same := (mapM_eq_ok_iff.mp converted).length_eq
      exact empty (List.length_eq_zero_iff.mp same)

/-- Of a rule that is read: what it matches is evidenced unless a description condition is blank, and
it leaves some rows aside unless all its conditions are blank. -/
theorem match_evidenced_iff (lower : String → String) (income : lower "income" = "income")
    (expense : lower "expense" = "expense") (row : RuleRow × CategoryRow) (rule : Rule)
    (read : toRule row = .ok rule) :
    (∀ txn, ruleMatches lower txn rule = .ok true →
      ((∀ c ∈ rule.all, c.field = "description" → Evidenced txn c) ↔ ∀ c ∈ rule.all, ¬ Blank c)) ∧
    ((∃ txn, (rule.sourceKind = "" ∨ rule.sourceKind = txn.sourceKind) ∧
        ruleMatches lower txn rule ≠ .ok true) ↔
      ∃ c ∈ rule.all, ¬ (c.op = "contains_all" ∧ Blank c)) := by
  constructor
  · intro txn matched
    obtain ⟨-, -, holds⟩ := ruleMatches_true_iff.mp matched
    constructor
    · intro evidenced c member blank
      exact (evidenced_iff blank.1 (holds c member)).mp (evidenced c member blank.1) blank
    · intro filled c member description
      exact (evidenced_iff description (holds c member)).mpr (filled c member)
  · constructor
    · rintro ⟨txn, admitted, unmatched⟩
      by_contra! blank
      refine unmatched (ruleMatches_true_iff.mpr ⟨admitted, all_ne_nil_of_toRule read, ?_⟩)
      intro c member
      obtain ⟨known, description, nothing⟩ := blank c member
      exact (description_true_iff description).mpr ⟨known, by simp [nothing]⟩
    · rintro ⟨c, member, filled⟩
      obtain ⟨txn, kind, unmet⟩ := exists_unmet income expense rule.sourceKind filled
      exact ⟨txn, .inr kind.symm, fun matched => unmet ((ruleMatches_true_iff.mp matched).2.2 c member)⟩

/-! ## A rule that matches everything -/

/-- A stored rule of the organisation on descriptions that contain the parts of a value. -/
def ruleOn (value : String) : RuleRow × CategoryRow :=
  (⟨1, "v1", "v1", true, "org", 1, some ⟨"", "v1", [⟨"description", "contains_all", value, none⟩]⟩, 1,
    true⟩, sampleCategory 1 "0101" "income")

theorem match_evidenced_sample : ∃ rule, toRule (ruleOn "RENT; MAY") = .ok rule ∧
    (∃ txn, ruleMatches id txn rule ≠ .ok true) ∧
    ∀ txn, ruleMatches id txn rule = .ok true → ∀ c ∈ rule.all, Evidenced txn c := by
  let rule : Rule := ⟨1, "0101", "org", "", [⟨"description", "contains_all", "RENT; MAY", none⟩]⟩
  have read : toRule (ruleOn "RENT; MAY") = .ok rule := rfl
  obtain ⟨evidenced, excludes⟩ := match_evidenced_iff id rfl rfl _ rule read
  have filled : ∀ c ∈ rule.all, ¬ Blank c := by decide
  refine ⟨rule, read, ?_, fun txn matched c member => ?_⟩
  · obtain ⟨txn, -, unmatched⟩ := excludes.mpr ⟨_, List.mem_singleton_self _, by decide⟩
    exact ⟨txn, unmatched⟩
  · have description : c.field = "description" := by
      rw [List.mem_singleton.mp member]
    exact (evidenced txn matched).mpr filled c member description

/-- A value of separators and spaces is read, accepted, and matches every payment. -/
theorem blank_rule_matches_everything :
    ¬ ∀ (lower : String → String) (engineVersion : String) (row : RuleRow × CategoryRow) (rule : Rule)
      (request : BatchRequest) (response : BatchResponse), toRule row = .ok rule →
      rule ∈ request.rules → engineBatch lower engineVersion request = .ok response →
      (∀ txn, ruleMatches lower txn rule = .ok true →
        ∀ c ∈ rule.all, c.field = "description" → Evidenced txn c) ∧
      ∃ txn, ruleMatches lower txn rule ≠ .ok true := by
  intro claimed
  let rule : Rule := ⟨1, "0101", "org", "", [⟨"description", "contains_all", " ; ;", none⟩]⟩
  let request := { unknownField [paymentTxn "1" "RENT" "" ""] with rules := [rule] }
  have answered : (engineBatch id "v1" request).toOption.isSome = true := by decide +kernel
  cases made : engineBatch id "v1" request with
  | error e =>
      rw [made] at answered
      cases answered
  | ok response =>
      obtain ⟨-, txn, unmatched⟩ := claimed id "v1" (ruleOn " ; ;") rule request response rfl
        (List.mem_singleton_self _) made
      refine unmatched (ruleMatches_true_iff.mpr ⟨.inl rfl, nofun, fun c member => ?_⟩)
      rw [List.mem_singleton.mp member]
      have blank : parts " ; ;" = [] := by decide
      exact (description_true_iff rfl).mpr ⟨rfl, by simp [blank]⟩

end Vekst.Classify
