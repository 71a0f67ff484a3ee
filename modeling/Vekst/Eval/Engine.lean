import Vekst.Eval.Norm
import Mathlib.Algebra.Field.Rat

namespace Vekst.Eval
open Regex Normalize

/-! ## engine.py -/

/-- A row of a statement; a key the dictionary lacks is absent. -/
structure Txn where
  purp : Option String
  dir : Option String
  knp : Option String
  typ : Option String
  cp : Option String
  tax : Option String
  acct : Option String
deriving DecidableEq, Repr

structure Condition where
  field : String
  op : String
  value : String
deriving DecidableEq, Repr

structure Rule where
  priority : Int
  scope : String
  categoryCode : String
  all : List Condition
deriving DecidableEq, Repr

/-- `txn.get(key, "")`. -/
def got (value : Option String) : String := value.getD ""

/-- Python's `a or b` of strings. -/
def orElse (value : Option String) (other : String) : String :=
  if got value = "" then other else got value

/-- `[p.strip() for p in want.split(";") if p.strip()]`. -/
def parts (want : String) : List Text :=
  ((want.toList.splitOn ';').map (strip isPythonSpace)).filter (· ≠ [])

def key (u : Tables) (txn : Txn) : String × Tier :=
  let found := counterpartyKey u (got txn.cp).toList (got txn.tax).toList (got txn.acct).toList
  (String.ofList found.1, found.2)

def conditionHolds (u : Tables) (lower : String → String) (txn : Txn) (c : Condition) : Bool :=
  if c.field = "description" then
    let haystack := normalizeDescription u (got txn.purp).toList
    if c.op = "contains_all" then (parts c.value).all (· <:+: haystack)
    else c.value.toList <:+: haystack
  else if c.field = "direction" then lower (got txn.dir) = lower c.value
  else if c.field = "regulated_code" then orElse txn.knp (orElse txn.typ "") = c.value
  else if c.field = "counterparty_account" then
    normalizeDescription u c.value.toList <:+: normalizeDescription u (got txn.acct).toList
  else if c.field = "counterparty_key" then (key u txn).1 = c.value
  else false

/-- Any condition on the regulated code puts a rule in L0.5. -/
def byCode (r : Rule) : Bool := r.all.any (·.field = "regulated_code")

structure Answer where
  category : String
  layer : String
  /-- The key that was remembered, or the priority of the rule. -/
  rule : String ⊕ Int
  confidence : ℚ
  evidence : String
deriving DecidableEq, Repr

/-- The first rule of a layer whose conditions all hold. -/
def answerOf (u : Tables) (lower : String → String) (txn : Txn) (layer : String) (group : List Rule) :
    Option Answer :=
  (group.find? fun r => r.all.all (conditionHolds u lower txn)).map fun r =>
    ⟨r.categoryCode, layer, .inr r.priority, if layer = "L0.5" then 99 / 100 else 95 / 100, r.scope⟩

/-- The first layer that answers; the memory maps a counterparty key to a category code. -/
def classify (u : Tables) (lower : String → String) (txn : Txn) (rules : List Rule)
    (memory : List (String × String)) : Option Answer :=
  let (key, tier) := key u txn
  let remembered := if memory = [] then none else memory.lookup key
  match remembered with
  | some category => some ⟨category, "L0", .inl key, 1, tier.text⟩
  | none =>
      let regulated := rules.filter byCode
      let textual := rules.filter (!byCode ·)
      (answerOf u lower txn "L0.5" regulated).or (answerOf u lower txn "L1" textual)

end Vekst.Eval
