import Vekst.Job

namespace Vekst.Classify
open Isolation Ledger Relational

def chunkSize : Nat := 5000

def failureUnknownCategory : String := "classify_unknown_category"

def failureBadMatcher : String := "classify_unreadable_rule"

def failureRejected : String := "classify_request_rejected"

/-! ## The request -/

def classifiableCategories (d : Database) (taxonomyVersion : String) : List CategoryRow :=
  (d.categories.filter fun cat =>
    cat.taxonomyVersion = taxonomyVersion && cat.isLeaf && !cat.isComputed).insertionSort
    fun a b => a.code ≤ b.code

/-- The order the engine tries rules in: the organisation's own first. -/
def beforeRule (a b : RuleRow × CategoryRow) : Prop :=
  (a.1.ownedByOrg ∧ ¬ b.1.ownedByOrg) ∨ (a.1.ownedByOrg = b.1.ownedByOrg ∧
    (a.1.priority < b.1.priority ∨ a.1.priority = b.1.priority ∧ a.1.id ≤ b.1.id))

instance (a b : RuleRow × CategoryRow) : Decidable (beforeRule a b) :=
  inferInstanceAs (Decidable (_ ∨ _))

def effectiveRules (d : Database) (taxonomyVersion rulesetVersion : String) :
    List (RuleRow × CategoryRow) :=
  (innerJoin (d.rules.filter fun r => r.taxonomyVersion = taxonomyVersion &&
      r.rulesetVersion = rulesetVersion && r.active) d.categories
    fun r cat => cat.id = r.categoryID).insertionSort beforeRule

def vendorMemory (d : Database) (keyVersion : String) : List VendorMemory :=
  ((innerJoin (d.vendors.filter (·.keyVersion = keyVersion)) d.categories
    fun v cat => cat.id = v.categoryID).insertionSort fun a b => a.1.key ≤ b.1.key).map
    fun (v, cat) => ⟨v.key, cat.code, v.displayName⟩

def toCondition (c : MatcherCondition) : Except Failure Condition := do
  if c.field = "" ∨ c.op = "" then .error (.fatal failureBadMatcher)
  match c.amount with
  | none => return ⟨c.field, c.op, c.value, none⟩
  | some amount =>
      match Money.make amount.currencyCode amount.minorUnits with
      | .error _ => .error (.fatal failureBadMatcher)
      | .ok amount => return ⟨c.field, c.op, c.value, some amount⟩

/-- A rule this process cannot read is refused, never narrowed. -/
def toRule (row : RuleRow × CategoryRow) : Except Failure Rule := do
  match row.1.matcher with
  | none => .error (.fatal failureBadMatcher)
  | some m =>
      if m.all = [] then .error (.fatal failureBadMatcher)
      let all ← m.all.mapM toCondition
      return {
        priority := row.1.priority
        categoryCode := row.2.code
        scope := row.1.scope
        sourceKind := m.sourceKind
        all }

def requestContext (site : Site) : Tx BatchContext := do
  let cats ← Prog.query fun d => .ok (classifiableCategories d site.taxonomyVersion)
  let rules ← Prog.query fun d => .ok (effectiveRules d site.taxonomyVersion site.rulesetVersion)
  let rules ← Prog.ofExcept (rules.mapM toRule)
  let vendors ← Prog.query fun d => .ok (vendorMemory d normalizeVersion)
  return {
    categories := cats.map fun c => ⟨c.code, c.name, c.requiresAllocation⟩
    rules
    vendors
    codes := cats.map fun c => (c.code, c.id) }

def chunkRequest (site : Site) (context : BatchContext) (first : TransactionRow)
    (rest : List TransactionRow) : BatchRequest where
  requestID := first.id.text
  taxonomyVersion := site.taxonomyVersion
  rulesetVersion := site.rulesetVersion
  normalizeVersion := normalizeVersion
  categories := context.categories
  rules := context.rules
  vendors := context.vendors
  txns := toClassifyBatch (first :: rest)
  threshold := 0

/-! ## The answer -/

/-- The row of the page a proposal names; a repeated identifier names the last. -/
def inPage (page : List TransactionRow) (transactionID : String) : Option UUID :=
  (page.reverse.find? (·.id.text = transactionID)).map (·.id)

/-- One proposal, refused with the whole response if it names what was not sent, or a row twice. -/
def chunkClassification (site : Site) (context : BatchContext) (page : List TransactionRow)
    (resp : BatchResponse) (out : List Classification) (p : Proposal) :
    Except Failure (List Classification) :=
  match inPage page p.transactionID with
  | none => .error (.fatal failureUnknownCategory)
  | some txnID =>
      if out.any (·.transactionID = txnID) then .error (.fatal failureUnknownCategory)
      else match context.category p.categoryCode with
        | none => .error (.fatal failureUnknownCategory)
        | some categoryID => .ok (out ++ [{
            transactionID := txnID
            categoryID
            engineLayer := p.engineLayer
            confidence := p.confidence
            evidence := p.evidence
            taxonomyVersion := site.taxonomyVersion
            rulesetVersion := resp.rulesetVersion
            engineVersion := resp.engineVersion
            normalizeVersion
            decidedBy := UUID.zero }])

def chunkClassifications (site : Site) (context : BatchContext) (page : List TransactionRow)
    (resp : BatchResponse) : Except Failure (List Classification) :=
  resp.proposals.foldlM (chunkClassification site context page resp) []

/-! ## The run -/

def checkRun (d : Database) (row : ClassificationRunRow) : Except Failure Unit := do
  require (d.runs.all (·.id ≠ row.id)) "classification_runs_pkey"
  require (d.runs.all (·.batchID ≠ row.batchID)) "classification_runs_org_id_batch_id_key"
  require (d.batches.any (·.id = row.batchID)) "classification_runs_org_id_batch_id_fkey"

def insertClassificationRun (id : UUID) (now : Timestamp) (batchID : UUID) : Tx Unit :=
  Prog.exec fun d => do
    let row : ClassificationRunRow := {
      id
      batchID
      status := .running
      failureCode := none
      chunkCount := 0
      classifiedCount := 0
      reviewCount := 0
      startedAt := now
      finishedAt := none }
    checkRun d row
    return ([.insertRun row], ())

def runningRun (d : Database) (batchID : UUID) : Option ClassificationRunRow :=
  d.runs.find? fun r => r.batchID = batchID && r.status = .running

/-- An update of the batch's run, which finds no row unless the run is running. -/
def updateRunning (batchID : UUID) (change : ClassificationRunRow → ClassificationRunRow) :
    Tx Unit :=
  Prog.exec fun d => match runningRun d batchID with
    | none => .error .noRows
    | some run => .ok ([.updateRun (change run)], ())

def recordChunkResult (batchID : UUID) (classified review : Nat) : Tx Unit :=
  updateRunning batchID fun run => { run with
    chunkCount := run.chunkCount + 1
    classifiedCount := run.classifiedCount + classified
    reviewCount := run.reviewCount + review }

def finishClassificationRun (batchID : UUID) (now : Timestamp) (status : RunStatus)
    (failureCode : Option String) : Tx Unit :=
  updateRunning batchID fun run => { run with status, failureCode, finishedAt := some now }

/-! ## classifyrun.go -/

/-- The transactions of an attempt, in the order its draws are numbered. -/
def openOrdinal : Nat := 0

def closeOrdinal : Nat := 1

def pageOrdinal (page : Nat) : Nat := page + 2

def settle (outcome : Except Failure Unit) : Job :=
  match outcome with
  | .ok () => .done (.ok .done)
  | .error e => .done (.error e)

def finish (batchID : UUID) (draws : Draws) : Job :=
  inTx settle (finishClassificationRun batchID (draws.now closeOrdinal) .classified none)

/-- Records why the run stopped, and stops without an error. -/
def fail (batchID : UUID) (draws : Draws) (code : String) : Job :=
  inTx settle (finishClassificationRun batchID (draws.now closeOrdinal) .failed (some code))

def pageSize (site : Site) : Nat := if site.chunkSize = 0 then chunkSize else site.chunkSize

def storeChunk (batchID : UUID) (draws : Draws) (page : Nat) (rows : List Classification)
    (offered : Nat) : Tx Unit := do
  rows.zipIdx.forM fun (c, i) => do
    let _ ← insertClassification (draws.id (pageOrdinal page) i) (draws.now (pageOrdinal page)) c
  recordChunkResult batchID rows.length (offered - rows.length)

def writeChunk (site : Site) (batchID : UUID) (draws : Draws) (context : BatchContext)
    (page : Nat) (txns : List TransactionRow) (resp : BatchResponse) (next : Job) : Job :=
  match chunkClassifications site context txns resp with
  | .error (.fatal code) => fail batchID draws code
  | .error e => .done (.error e)
  | .ok rows =>
      inTx (fun
          | .ok () => next
          | .error (.fatal code) => fail batchID draws code
          | .error e => .done (.error e))
        (storeChunk batchID draws page rows txns.length)

/-- One turn of the loop over pages. -/
def classifyPage (site : Site) (batchID : UUID) (draws : Draws) (context : BatchContext)
    (cursor : Cursor) (page : Nat) : Job :=
  inTx (fun
      | .error e => .done (.error e)
      | .ok [] => finish batchID draws
      | .ok (first :: rest) =>
          .ask (.classify (chunkRequest site context first rest)) fun
            | .error .classifierRejected => fail batchID draws failureRejected
            | .error e => .done (.error e)
            | .ok (.statement _) => .done (.error .transient)
            | .ok (.proposals resp) =>
                let last := rest.getLast?.getD first
                writeChunk site batchID draws context page (first :: rest) resp
                  (.jump (.classifyPage batchID draws context ⟨last.bookedOn, last.id⟩ (page + 1))))
    (Prog.query fun d => .ok (unclassifiedTransactions d batchID cursor (pageSize site)))

/-- A position before every row. -/
def startCursor : Cursor where
  bookedOn := Calendar.Month.firstDay ⟨1, 1, Calendar.Month.january_valid⟩
  id := UUID.zero

def classifyRows (site : Site) (batchID : UUID) (draws : Draws) : Job :=
  inTx (fun
      | .error (.fatal code) => fail batchID draws code
      | .error e => .done (.error e)
      | .ok context => .jump (.classifyPage batchID draws context startCursor 0))
    (requestContext site)

def classifyBatch (site : Site) (batchID : UUID) (draws : Draws) : Job :=
  inTx (fun
      | .ok () => classifyRows site batchID draws
      | .error e =>
          -- Another job opened this batch's run: the attempt has nothing to do.
          if e = .constraint "classification_runs_org_id_batch_id_key" then .done (.ok .done)
          else .done (.error e))
    (insertClassificationRun (draws.id openOrdinal 0) (draws.now openOrdinal) batchID)

end Vekst.Classify
