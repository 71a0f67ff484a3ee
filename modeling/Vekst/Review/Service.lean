import Vekst.Job
import Vekst.Relational.Grouping

namespace Vekst.Review
open Calendar Isolation Ledger Relational

abbrev outcomeCategorised : String := "categorised"
abbrev outcomeInternalTransfer : String := "internal_transfer"
abbrev outcomeNonPNL : String := "non_pnl"
abbrev outcomeSkipped : String := "skipped"

def outcomes : List String :=
  [outcomeCategorised, outcomeInternalTransfer, outcomeNonPNL, outcomeSkipped]

/-- The seeded leaf a transfer or a non-P&L marking lands on. -/
def outOfPNLCode : String := "09"

namespace Code
def forbidden : String := "review_forbidden"
def outcomeRequired : String := "review_outcome_required"
def categoryRequired : String := "review_category_required"
def categoryRefused : String := "review_category_not_allowed"
def unknownCategory : String := "review_unknown_category"
def emptyGroup : String := "review_group_is_empty"
def alreadyUndone : String := "review_decision_already_undone"
def alreadyDecided : String := "review_already_decided"
end Code

/-! ## review.sql -/

def waiting (d : Database) (entityID : UUID) : List TransactionRow :=
  d.transactions.filter fun t => t.entityID = entityID && unanswered d t

/-- The transactions behind one group. -/
def reviewGroupRows (d : Database) (entityID : UUID) (key : String) : List TransactionRow :=
  ((waiting d entityID).filter (·.counterpartyKey = key)).insertionSort earlier

structure GroupRow where
  counterpartyKey : String
  rows : List TransactionRow
deriving DecidableEq, Repr

def GroupRow.total (g : GroupRow) : ℤ := (g.rows.map (·.amount.toInt)).sum

def GroupRow.before (a b : GroupRow) : Prop :=
  b.total.natAbs < a.total.natAbs ∨ a.total.natAbs = b.total.natAbs ∧
    (b.rows.length < a.rows.length ∨ a.rows.length = b.rows.length ∧
      a.counterpartyKey ≤ b.counterpartyKey)

instance (a b : GroupRow) : Decidable (a.before b) := inferInstanceAs (Decidable (_ ∨ _))

/-- The groups of the queue with their rows, the largest amount first. -/
def reviewGroups (d : Database) (entityID : UUID) (limit offset : Nat) : List GroupRow :=
  ((((groups (·.counterpartyKey) (waiting d entityID)).map fun g => ⟨g.1, g.2⟩).insertionSort
    GroupRow.before).drop offset).take limit

def categoryByCode (d : Database) (taxonomyVersion code : String) : Except Failure CategoryRow :=
  match d.categories.find? fun cat => cat.taxonomyVersion = taxonomyVersion && cat.code = code with
  | some cat => .ok cat
  | none => .error (.coded Code.unknownCategory)

/-- A vendor row in the place of the one of its key, whose identifier stays. -/
def upsertVendor (row : VendorRow) : Tx Unit :=
  Prog.exec fun d => do
    categoryIsVisible d row.categoryID "vendors_category_is_visible"
    let kept := d.vendors.find? fun v => v.keyVersion = row.keyVersion && v.key = row.key
    return ([.upsertVendor { row with id := (kept.map (·.id)).getD row.id }], ())

def checkDecision (d : Database) (row : ReviewDecisionRow) : Except Failure Unit := do
  require (row.outcome ∈ outcomes) "review_decisions_outcome_check"
  require (0 ≤ row.coveredCount) "review_decisions_covered_count_check"
  require (isCurrencyShape row.coveredCurrency) "review_decisions_covered_currency_check"
  require ((row.outcome = outcomeCategorised && row.categoryID.isSome) ||
    (row.outcome ≠ outcomeCategorised && row.categoryID.isNone)) "decision_category_matches_outcome"
  require (row.keyVersion ≠ "") "decision_key_is_not_blank"
  require (d.decisions.all (·.id ≠ row.id)) "review_decisions_pkey"
  -- Exactly one live decision a counterparty: the name the service knows.
  require (d.decisions.all fun old => !(old.keyVersion = row.keyVersion &&
    old.counterpartyKey = row.counterpartyKey && old.undoneAt.isNone)) "review_decisions_one_live_idx"
  match row.categoryID with
  | none => return
  | some categoryID => categoryIsVisible d categoryID "review_decision_category_is_visible"

def insertReviewDecision (row : ReviewDecisionRow) : Tx ReviewDecisionRow :=
  Prog.exec fun d =>
    match checkDecision d row with
    | .error (.constraint "review_decisions_one_live_idx") => .error (.coded Code.alreadyDecided)
    | .error e => .error e
    | .ok () => .ok ([.insertDecision row], row)

/-- The classifications a decision wrote, found by its counterparty. -/
def liveClassificationsForCounterparty (d : Database) (key : String) : List ClassificationRow :=
  d.classifications.filter fun c => c.live && c.engineLayer = "human" &&
    d.transactions.any fun t => t.id = c.transactionID && t.counterpartyKey = key

def retractClassificationsOfTransactions (now : Timestamp) (userID : UUID) (txnIDs : List UUID) :
    Tx Nat :=
  Prog.exec fun d =>
    let rows := (d.classifications.filter fun c => c.transactionID ∈ txnIDs && c.live).map
      fun c => { c with retractedAt := some now, retractedBy := some userID }
    .ok (rows.map .updateClassification, rows.length)

def undoReviewDecision (now : Timestamp) (userID decisionID : UUID) : Tx Unit :=
  Prog.exec fun d =>
    match d.decisions.find? fun row => row.id = decisionID && row.undoneAt.isNone with
    | none => .error (.coded Code.alreadyUndone)
    | some row =>
        .ok ([.updateDecision { row with undoneAt := some now, undoneBy := some userID }], ())

/-! ## review.go -/

def canResolve (role : Role) : Bool := role = .owner || role = .admin || role = .approver

/-- The member's role, or the refusal that does not say whether the organisation exists. -/
def memberRole (userID : UUID) : Tx Role :=
  Prog.query fun d => match d.members.find? (·.userID = userID) with
    | some m => .ok m.role
    | none => .error (.coded Code.forbidden)

/-- The most recent spelling that is not empty. -/
def displayName (rows : List TransactionRow) : String :=
  rows.foldl (fun name r => if r.counterpartyRaw ≠ "" then r.counterpartyRaw else name) ""

def writeDecision (id : UUID) (userID : UUID) (baseCcy key outcome : String)
    (categoryID : Option UUID) (rows : List TransactionRow) : Tx ReviewDecisionRow :=
  insertReviewDecision {
    id
    counterpartyKey := key
    keyVersion := normalizeVersion
    outcome
    categoryID
    decidedBy := userID
    -- The Go conversion of a length keeps its low 32 bits.
    coveredCount := (Int32.ofNat rows.length).toInt
    coveredMinor := (rows.map (·.amount)).sum
    coveredCurrency := baseCcy
    undoneAt := none
    undoneBy := none }

/-- What the arguments alone decide: an outcome that is known, with a category just when it is a
categorisation. -/
def checkOutcome (outcome categoryCode : String) : Except Failure Unit :=
  if outcome = outcomeCategorised then
    if categoryCode = "" then .error (.coded Code.categoryRequired) else .ok ()
  else if outcome ∈ outcomes then
    if categoryCode ≠ "" then .error (.coded Code.categoryRefused) else .ok ()
  else .error (.coded Code.outcomeRequired)

def humanClassification (site : Site) (userID txnID categoryID : UUID) (outcome : String) :
    Classification where
  transactionID := txnID
  categoryID := categoryID
  engineLayer := "human"
  confidence := 1
  evidence := outcome
  taxonomyVersion := site.taxonomyVersion
  rulesetVersion := site.rulesetVersion
  engineVersion := "human"
  normalizeVersion := normalizeVersion
  decidedBy := userID

/-- The transaction of `Resolve`: what the read covers is what the decision records. -/
def resolveRows (site : Site) (draws : Draws) (userID entityID : UUID)
    (key outcome categoryCode : String) : Tx ReviewDecisionRow := do
  let baseCcy ← Prog.query fun d => .ok d.baseCurrency
  let rows ← Prog.query fun d => .ok (reviewGroupRows d entityID key)
  if rows = [] then Prog.fail (.coded Code.emptyGroup)
  if outcome = outcomeSkipped then
    writeDecision (draws.id 0 0) userID baseCcy key outcome none rows
  else
    let code := if outcome ≠ outcomeCategorised then outOfPNLCode else categoryCode
    let category ← Prog.query (categoryByCode · site.taxonomyVersion code)
    if outcome = outcomeCategorised then
      upsertVendor ⟨draws.id 1 0, key, normalizeVersion, displayName rows, category.id, some userID⟩
    rows.zipIdx.forM fun (r, i) => do
      let _ ← insertClassification (draws.id 2 i) (draws.now 1)
        (humanClassification site userID r.id category.id outcome)
    let decided := if outcome = outcomeCategorised then some category.id else none
    writeDecision (draws.id 0 0) userID baseCcy key outcome decided rows

def answer {α : Type} : Except Failure α → Job
  | .ok _ => .done (.ok .done)
  | .error e => .done (.error e)

def resolve (site : Site) (userID entityID : UUID) (key outcome categoryCode : String)
    (draws : Draws) : Job :=
  inTx (fun
      | .error e => .done (.error e)
      | .ok role =>
          if !canResolve role then .done (.error (.coded Code.forbidden))
          else match checkOutcome outcome categoryCode with
            | .error e => .done (.error e)
            | .ok () =>
                inTx answer (resolveRows site draws userID entityID key outcome categoryCode))
    (memberRole userID)

/-- The transaction of `Undo`: a retraction, since nothing replaces what is taken back. -/
def undoDecision (draws : Draws) (userID decisionID : UUID) : Tx Nat := do
  let decision ← Prog.query fun d => match d.decisions.find? (·.id = decisionID) with
    | some decision => .ok decision
    | none => .error .noRowsAffected
  let live ← Prog.query fun d =>
    .ok (liveClassificationsForCounterparty d decision.counterpartyKey)
  let ids := live.map (·.transactionID)
  let retracted ←
    if ids = [] then pure 0
    else retractClassificationsOfTransactions (draws.now 1) userID ids
  if decision.outcome = outcomeCategorised then
    Prog.exec fun _ => .ok ([.deleteVendor decision.keyVersion decision.counterpartyKey], ())
  undoReviewDecision (draws.now 1) userID decisionID
  return retracted

def undo (userID decisionID : UUID) (draws : Draws) : Job :=
  inTx (fun
      | .error e => .done (.error e)
      | .ok role =>
          if !canResolve role then .done (.error (.coded Code.forbidden))
          else inTx answer (undoDecision draws userID decisionID))
    (memberRole userID)

end Vekst.Review
