import Vekst.Classify.Request
import Vekst.Ingest.Statement
import Vekst.Reports.Service

namespace Vekst
open Isolation Ledger

/-- What the database draws for a job: identifiers and clock readings, a transaction at a time. -/
structure Draws where
  id : Nat → Nat → UUID
  now : Nat → Timestamp

/-- What a job asks of the services outside the database. -/
inductive Question where
  /-- The stored object of a batch, read and parsed under the batch's profile. -/
  | object (batchID : UUID)
  | classify (request : Classify.BatchRequest)
deriving DecidableEq, Repr

inductive Reply where
  /-- Absent when the object no longer parses. -/
  | statement (parsed : Option Ingest.Statement)
  | proposals (response : Classify.BatchResponse)
deriving DecidableEq, Repr

/-- The entry points, and the place the loop of a classification run returns to. -/
inductive Label where
  | persistImport (batchID : UUID) (draws : Draws)
  | classifyBatch (batchID : UUID) (draws : Draws)
  | classifyPage (batchID : UUID) (draws : Draws) (context : Classify.BatchContext)
      (cursor : Cursor) (page : Nat)
  | resolve (userID entityID : UUID) (key outcome categoryCode : String) (draws : Draws)
  | undo (userID decisionID : UUID) (draws : Draws)
  | dismissTransfer (userID transferID : UUID) (draws : Draws)
  | insertClassification (c : Classification) (draws : Draws)
  | supersedeClassification (oldID : UUID) (c : Classification) (draws : Draws)
  | managementPNL (userID : UUID) (req : Reports.Request)

/-- What a call or an attempt of a job returns. -/
inductive Answer where
  | done
  | report (report : Reports.Report)

abbrev Outcome := Except Failure Answer

abbrev Job := Isolation.Job Database Write Failure Question Reply Label Outcome

/-- What the deployment fixes and the model takes as given. -/
structure Site where
  /-- SHA-256 in hexadecimal. -/
  sha256 : String → String
  /-- The key of a counterparty's name, tax identifier and account. -/
  counterpartyKey : String → String → String → String
  normalizeDescription : String → String
  taxonomyVersion : String
  rulesetVersion : String
  chunkSize : Nat

/-- `normalize.Version`. -/
def normalizeVersion : String := "v1"

end Vekst
