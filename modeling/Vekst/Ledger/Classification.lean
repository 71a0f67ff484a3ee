import Mathlib.Data.List.Sort
import Mathlib.Data.Rat.Floor
import Vekst.Ledger.Transaction
import Vekst.Relational.Join

namespace Vekst.Ledger
open Calendar Isolation Relational

/-- A classification before it is stored. It is always born live. -/
structure Classification where
  transactionID : UUID
  categoryID : UUID
  engineLayer : String
  /-- A `float64` in the source, whose decimal text the statement carries. -/
  confidence : ℚ
  evidence : String
  taxonomyVersion : String
  rulesetVersion : String
  engineVersion : String
  normalizeVersion : String
  /-- `uuid.Nil` when a machine decided. -/
  decidedBy : UUID
deriving DecidableEq, Repr

/-- `numeric(4, 3)`: three decimal places, halves away from zero. -/
def roundConfidence (x : ℚ) : ℚ :=
  if x < 0 then -(⌊-x * 1000 + 1 / 2⌋ : ℚ) / 1000 else (⌊x * 1000 + 1 / 2⌋ : ℚ) / 1000

def toRow (id : UUID) (now : Timestamp) (c : Classification) : ClassificationRow where
  id := id
  transactionID := c.transactionID
  categoryID := c.categoryID
  engineLayer := c.engineLayer
  confidence := roundConfidence c.confidence
  evidence := c.evidence
  taxonomyVersion := c.taxonomyVersion
  rulesetVersion := c.rulesetVersion
  engineVersion := c.engineVersion
  normalizeVersion := c.normalizeVersion
  decidedBy := if c.decidedBy = UUID.zero then none else some c.decidedBy
  decidedAt := now
  supersededBy := none
  retractedAt := none
  retractedBy := none

def engineLayers : List String := ["L0", "L0.5", "L1", "L2", "human"]

/-- `rules_category_is_visible`: only a leaf that is not computed may be named. -/
def categoryIsVisible (d : Database) (categoryID : UUID) (name : String) : Except Failure Unit := do
  require (d.categories.any (·.id = categoryID)) name
  require (d.categories.all fun cat => cat.id ≠ categoryID || (cat.isLeaf && !cat.isComputed)) name

def checkClassification (d : Database) (row : ClassificationRow) : Except Failure Unit := do
  require (row.engineLayer ∈ engineLayers) "classifications_engine_layer_check"
  require (0 ≤ row.confidence && row.confidence ≤ 1) "classifications_confidence_check"
  require (row.engineLayer ≠ "human" || row.decidedBy.isSome) "cls_human_has_a_decider"
  require (d.classifications.all (·.id ≠ row.id)) "classifications_pkey"
  require (d.transactions.any (·.id = row.transactionID))
    "classifications_org_id_transaction_id_fkey"
  categoryIsVisible d row.categoryID "classifications_category_is_visible"

def insertClassification (id : UUID) (now : Timestamp) (c : Classification) :
    Tx ClassificationRow :=
  Prog.exec fun d => do
    let row := toRow id now c
    checkClassification d row
    return ([.insertClassification row], row)

/-- `UPDATE classifications SET superseded_by`, of whatever row has the id. -/
def pointAt (oldID liveID : UUID) : Tx Nat :=
  Prog.exec fun d => do
    let old := d.classifications.filter (·.id = oldID)
    let new := old.map fun c => { c with supersededBy := some liveID }
    require (new.all (·.id ≠ liveID)) "cls_does_not_supersede_itself"
    require (new.all (·.retractedAt.isNone)) "cls_is_not_both"
    require (new = [] || d.classifications.any (·.id = liveID))
      "classifications_org_id_superseded_by_fkey"
    return (new.map .updateClassification, new.length)

def exactlyOneRow (affected : Nat) : Except Failure Unit :=
  if affected = 1 then .ok () else .error .noRowsAffected

def supersedeClassification (id : UUID) (now : Timestamp) (oldID : UUID) (c : Classification) :
    Tx ClassificationRow := do
  let live ← insertClassification id now c
  let affected ← pointAt oldID live.id
  Prog.ofExcept (exactlyOneRow affected)
  return live

/-! ## The readers -/

/-- The row `CurrentClassification` reads; the statement asks only that nothing superseded it. -/
def currentClassification (d : Database) (txnID : UUID) : Except Failure ClassificationRow :=
  match d.classifications.find? fun c => c.transactionID = txnID && c.supersededBy.isNone with
  | some c => .ok c
  | none => .error .noRows

/-- A position in a batch's rows; the nil identifier is the start. -/
structure Cursor where
  bookedOn : Date
  id : UUID
deriving DecidableEq, Repr

def Cursor.before (cursor : Cursor) (t : TransactionRow) : Bool :=
  cursor.id = UUID.zero ||
    (cursor.bookedOn < t.bookedOn || (t.bookedOn = cursor.bookedOn && cursor.id < t.id))

def earlier (a b : TransactionRow) : Prop :=
  a.bookedOn < b.bookedOn ∨ a.bookedOn = b.bookedOn ∧ a.id ≤ b.id

instance (a b : TransactionRow) : Decidable (earlier a b) := inferInstanceAs (Decidable (_ ∨ _))

instance : Std.Total earlier where
  total a b := by
    unfold earlier
    rcases lt_trichotomy a.bookedOn b.bookedOn with less | same | more
    · exact .inl (.inl less)
    · exact (le_total a.id b.id).imp (fun le => .inr ⟨same, le⟩) fun le => .inr ⟨same.symm, le⟩
    · exact .inr (.inl more)

instance : IsTrans TransactionRow earlier where
  trans a b c first second := by
    rcases first with less | ⟨same, le⟩
    · rcases second with less' | ⟨same', -⟩
      · exact .inl (less.trans less')
      · exact .inl (same' ▸ less)
    · rcases second with less' | ⟨same', le'⟩
      · exact .inl (same ▸ less')
      · exact .inr ⟨same.trans same', le.trans le'⟩

def liveFor (t : TransactionRow) (c : ClassificationRow) : Bool :=
  c.transactionID = t.id && c.live

/-- `NOT EXISTS` a live classification. -/
def unanswered (d : Database) (t : TransactionRow) : Bool :=
  !d.classifications.any (liveFor t)

/-- The left join of `UnclassifiedTransactions`, kept where it found no partner. -/
def withoutLive (d : Database) (rows : List TransactionRow) : List TransactionRow :=
  ((leftJoin rows d.classifications liveFor).filter fun row => row.2.isNone).map (·.1)

def unclassifiedTransactions (d : Database) (batchID : UUID) (cursor : Cursor) (limit : Nat) :
    List TransactionRow :=
  (((withoutLive d (d.transactions.filter (·.batchID = batchID))).filter cursor.before).insertionSort
    earlier).take limit

end Vekst.Ledger
