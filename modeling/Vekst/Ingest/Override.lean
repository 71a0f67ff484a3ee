import Vekst.Ingest.Landing

namespace Vekst.Ingest
open Isolation Ledger

/-! ## The override of a validation -/

/-- One organisation's validations, and who may act in it. -/
structure Validations where
  members : List Membership
  validations : List ValidationRow
deriving DecidableEq, Repr

/-- A write is the new version of the validation of its batch, whose row it locks. -/
instance : Store Validations ValidationRow Failure UUID where
  apply d row := { d with validations := replaceBy (·.batchID) row d.validations }
  locks row := [row.batchID]
  check _ _ := .ok ()

abbrev ValidationTx (α : Type) := Prog Validations ValidationRow Failure α

structure ValidationReport where
  batchID : UUID
  outcome : ValidationOutcome
  rowCount : Nat
  errorCount : Nat
  warningCount : Nat
  balanceCheckPassed : Option Bool
  errors : List ValidationError
  warnings : List ValidationWarning
  /-- `uuid.Nil` when the batch has never been overridden. -/
  overriddenBy : UUID
  overrideReason : String
  overriddenAt : Option Timestamp
deriving DecidableEq, Repr

namespace Code
def notAMember : String := "not_a_member"
def validationNotFound : String := "validation_not_found"
def overrideReasonTooShort : String := "override_reason_too_short"
def overrideRequiresApproverRole : String := "override_requires_approver_role"
def alreadyOverridden : String := "already_overridden"
def overrideOnlyOverWarnings : String := "override_only_over_warnings"
end Code

/-! ## validation.sql, and the constraints of its table -/

/-- `btrim`, which takes off spaces and nothing else. -/
def btrim (text : List Char) : List Char :=
  ((text.dropWhile (· = ' ')).reverse.dropWhile (· = ' ')).reverse

def countsMatchOutcome (result : ValidationResult) : Bool :=
  match result.outcome with
  | .rejected => result.errors ≠ []
  | .validWithWarnings => result.errors = [] && result.warnings ≠ []
  | .valid => result.errors = [] && result.warnings = []

/-- What the table asks of a row, whatever the row was before. -/
def checkOverride (row : ValidationRow) : Except Failure Unit := do
  require (row.overrideReason.all fun reason => 10 ≤ (btrim reason.toList).length)
    "import_validations_override_reason_check"
  require ((row.overriddenBy.isNone && row.overrideReason.isNone && row.overriddenAt.isNone) ||
    (row.result.outcome = .validWithWarnings && row.overriddenBy.isSome &&
      row.overrideReason.isSome && row.overriddenAt.isSome))
    "import_validations_override_only_over_warnings"
  require (countsMatchOutcome row.result) "import_validations_counts_match_outcome"

def getValidationForBatch (d : Validations) (batchID : UUID) : Except Failure ValidationRow :=
  match d.validations.find? (·.batchID = batchID) with
  | some row => .ok row
  | none => .error .noRows

/-- The update of the three override columns, of whatever row the batch has. A `text` value holds no
zero character. -/
def recordOverride (batchID userID : UUID) (reason : String) (now : Timestamp) : ValidationTx Nat :=
  Prog.exec fun d => do
    if '\x00' ∈ reason.toList then throw characterNotInRepertoire
    let rows := (d.validations.filter (·.batchID = batchID)).map fun row => { row with
      overriddenBy := some userID, overrideReason := some reason, overriddenAt := some now }
    rows.forM checkOverride
    return (rows, rows.length)

/-! ## validationreport.go -/

def overrideReasonMinLength : Nat := 10

def canOverride : Role → Bool
  | .owner => true
  | .admin => true
  | .approver => true
  | .viewer => false

def reportFromRow (row : ValidationRow) : ValidationReport where
  batchID := row.batchID
  outcome := row.result.outcome
  rowCount := row.result.rowCount
  errorCount := row.result.errors.length
  warningCount := row.result.warnings.length
  balanceCheckPassed := row.result.balanceCheckPassed
  errors := row.result.errors
  warnings := row.result.warnings
  overriddenBy := row.overriddenBy.getD UUID.zero
  overrideReason := row.overrideReason.getD ""
  overriddenAt := row.overriddenAt

/-- The caller's role in the organisation. -/
def resolveOrg (userID : UUID) : ValidationTx Role :=
  Prog.query fun d => match d.members.find? (·.userID = userID) with
    | some m => .ok m.role
    | none => .error (.coded Code.notAMember)

/-- A call, at the clock reading of its transaction. -/
structure OverrideCall where
  userID : UUID
  batchID : UUID
  reason : String
  now : Timestamp
deriving DecidableEq, Repr

/-- The transaction of `OverrideValidation`: a read, the update, and what the update left. -/
def override (call : OverrideCall) : ValidationTx ValidationRow := do
  let current ← Prog.query (getValidationForBatch · call.batchID)
  if current.overriddenAt.isSome then Prog.fail (.coded Code.alreadyOverridden)
  if current.result.outcome ≠ .validWithWarnings then
    Prog.fail (.coded Code.overrideOnlyOverWarnings)
  let affected ← recordOverride call.batchID call.userID call.reason call.now
  Prog.ofExcept (exactlyOneRow affected)
  Prog.query (getValidationForBatch · call.batchID)

abbrev OverrideOutcome := Except Failure ValidationReport

abbrev OverrideJob :=
  Isolation.Job Validations ValidationRow Failure Empty Empty OverrideCall OverrideOutcome

abbrev OverrideSystem :=
  Isolation.System Validations ValidationRow Failure Empty Empty OverrideCall OverrideOutcome

abbrev OverrideEvent := Isolation.Event Failure Empty OverrideCall

def reportOf : Except Failure ValidationRow → OverrideJob
  | .ok row => .done (.ok (reportFromRow row))
  | .error .noRows => .done (.error (.coded Code.validationNotFound))
  | .error e => .done (.error e)

def overrideValidation (call : OverrideCall) : OverrideJob :=
  inTx (fun
      | .error e => .done (.error e)
      | .ok role =>
          if !canOverride role then .done (.error (.coded Code.overrideRequiresApproverRole))
          -- The length is that of the bytes, as the CHECK's is that of the characters.
          else if (String.ofList (trimSpace call.reason.toList)).utf8ByteSize <
              overrideReasonMinLength then
            .done (.error (.coded Code.overrideReasonTooShort))
          else inTx reportOf (override call))
    (resolveOrg call.userID)

/-- Committed validations nobody is connected to. -/
def Validations.idle (d : Validations) : OverrideSystem := ⟨d, []⟩

end Vekst.Ingest
