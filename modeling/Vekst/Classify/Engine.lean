import Vekst.Classify.Request
import Vekst.Normalize.Unicode

namespace Vekst.Classify
open Regex Normalize

/-! ## engine.py -/

def supportedNormalizeVersions : List String := ["v1"]

def defaultThreshold : ℚ := 80 / 100

namespace Layer

def vendor : String := "L0"

def regulated : String := "L0.5"

def rule : String := "L1"

end Layer

def confidenceOf (layer : String) : ℚ :=
  if layer = Layer.vendor then 1 else if layer = Layer.regulated then 99 / 100 else 95 / 100

def fieldRegulatedCode : String := "regulated_code"

/-- The key's tier as core names it. -/
def tierByPrefix : List (String × String) :=
  [("tax", "tax_id"), ("name", "name"), ("acct", "account")]

/-- What a layer concluded, before the threshold is applied. -/
structure Answer where
  categoryCode : String
  layer : String
  evidence : String
  matchedRulePriority : Int
deriving DecidableEq, Repr

def Answer.confidence (a : Answer) : ℚ := confidenceOf a.layer

/-- Two amounts compare only when they are the same currency; a condition without one has none. -/
def moneyComparable (a b : Money) : Bool := a.currencyCode ≠ "" && a.currencyCode = b.currencyCode

/-- `[p.strip() for p in want.split(";") if p.strip()]`. -/
def parts (want : String) : List Text :=
  ((want.toList.splitOn ';').map (strip isPythonSpace)).filter (· ≠ [])

/-- A request the engine will not answer, by its code. -/
abbrev Rejected := String

def requireEq (op : String) : Except Rejected Unit :=
  if op = "eq" then .ok () else .error "unsupported_operator"

def conditionHolds (lower : String → String) (txn : Txn) (c : Condition) : Except Rejected Bool :=
  if c.field = "description" then
    if c.op ≠ "contains_all" then .error "unsupported_operator"
    else .ok ((parts c.value).all (· <:+: txn.descriptionNorm.toList))
  else if c.field = "direction" then do
    requireEq c.op
    return lower txn.direction = lower c.value
  else if c.field = fieldRegulatedCode then do
    requireEq c.op
    return txn.regulatedCode = c.value
  else if c.field = "counterparty_key" then do
    requireEq c.op
    return txn.counterpartyKey = c.value
  else if c.field = "account" then do
    requireEq c.op
    return txn.accountID = c.value
  else if c.field = "amount" then
    if c.op ≠ "gte" ∧ c.op ≠ "lte" then .error "unsupported_operator"
    else
      let want := c.amountValue.getD ⟨"", 0⟩
      if !moneyComparable want txn.amount then .ok false
      else if c.op = "gte" then .ok (want.minorUnits.toInt ≤ txn.amount.minorUnits.toInt)
      else .ok (txn.amount.minorUnits.toInt ≤ want.minorUnits.toInt)
  else .error "unsupported_field"

/-- `all`, which stops at the first that does not hold. -/
def allHold (lower : String → String) (txn : Txn) : List Condition → Except Rejected Bool
  | [] => .ok true
  | c :: rest => do
      if ← conditionHolds lower txn c then allHold lower txn rest else return false

def ruleMatches (lower : String → String) (txn : Txn) (rule : Rule) : Except Rejected Bool :=
  if rule.sourceKind ≠ "" ∧ rule.sourceKind ≠ txn.sourceKind then .ok false
  else if rule.all = [] then .error "empty_matcher"
  else allHold lower txn rule.all

/-- Any condition on the regulated code puts a rule in L0.5. -/
def isRegulated (rule : Rule) : Bool := rule.all.any (·.field = fieldRegulatedCode)

/-- The first rule of a layer that matches. -/
def firstMatch (lower : String → String) (txn : Txn) (layer : String) :
    List Rule → Except Rejected (Option Answer)
  | [] => .ok none
  | rule :: rest => do
      if ← ruleMatches lower txn rule then
        return some ⟨rule.categoryCode, layer, rule.scope, rule.priority⟩
      else firstMatch lower txn layer rest

/-- `{v.key: v for v in vendors}`: a repeated key keeps its last row. -/
def remembered (vendors : List VendorMemory) (key : String) : Option VendorMemory :=
  vendors.reverse.find? (·.key = key)

/-- The first layer that answers, or none to send the row to review. -/
def classifyOne (lower : String → String) (txn : Txn) (regulated textual : List Rule)
    (vendors : List VendorMemory) : Except Rejected (Option Answer) :=
  match if txn.counterpartyKey = "" then none else remembered vendors txn.counterpartyKey with
  | some row =>
      let tier := String.ofList (txn.counterpartyKey.toList.takeWhile (· ≠ ':'))
      .ok (some ⟨row.categoryCode, Layer.vendor, (tierByPrefix.lookup tier).getD tier, 0⟩)
  | none => do
      match ← firstMatch lower txn Layer.regulated regulated with
      | some answer => return some answer
      | none => firstMatch lower txn Layer.rule textual

/-- Every code a proposal could name must be in the request. -/
def rejectUnknownCodes (known used : List String) : Except Rejected Unit :=
  if used.all (· ∈ known) then .ok () else .error "category_not_in_request"

/-- The proposal of one row, unless its answer is below the threshold. -/
def propose (lower : String → String) (threshold : ℚ) (regulated textual : List Rule)
    (vendors : List VendorMemory) (txn : Txn) : Except Rejected (Option Proposal) := do
  match ← classifyOne lower txn regulated textual vendors with
  | none => return none
  | some answer =>
      if answer.confidence < threshold then return none
      else return some {
        transactionID := txn.transactionID
        categoryCode := answer.categoryCode
        engineLayer := answer.layer
        confidence := answer.confidence
        evidence := answer.evidence }

/-- `classify_batch`: a batch is answered whole or refused. -/
def engineBatch (lower : String → String) (engineVersion : String) (request : BatchRequest) :
    Except Rejected BatchResponse := do
  if request.normalizeVersion ∉ supportedNormalizeVersions then
    .error "unsupported_normalize_version"
  let known := request.categories.map (·.code)
  rejectUnknownCodes known (request.rules.map (·.categoryCode))
  rejectUnknownCodes known (request.vendors.map (·.categoryCode))
  let regulated := request.rules.filter isRegulated
  let textual := request.rules.filter (!isRegulated ·)
  let threshold := if request.threshold = 0 then defaultThreshold else request.threshold
  let proposals ← request.txns.mapM (propose lower threshold regulated textual request.vendors)
  return ⟨engineVersion, request.rulesetVersion, proposals.reduceOption⟩

end Vekst.Classify
