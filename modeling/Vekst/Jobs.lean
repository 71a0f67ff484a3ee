import Vekst.Classify.Run
import Vekst.Ingest.Persist
import Vekst.Review.Service

namespace Vekst
open Isolation Ledger

/-- The transaction that dismisses a pair, after the caller's membership is proved. -/
def dismissTransfer (userID transferID : UUID) (draws : Draws) : Job :=
  inTx (fun
      | .error e => .done (.error e)
      | .ok _ => inTx Review.answer (Dedup.dismiss (draws.now 1) transferID userID))
    (Review.memberRole userID)

def reportOutcome : Except Failure Reports.Read → Job
  | .error e => .done (.error e)
  | .ok read => .done ((Reports.finishReport read).map .report)

/-- `ManagementPNL` among other jobs: membership and report are two transactions. -/
def managementPNL (userID : UUID) (req : Reports.Request) : Job :=
  match Reports.prepare req with
  | .error e => .done (.error e)
  | .ok prep =>
      inTx (fun
          | .error e => .done (.error e)
          | .ok () => inTx reportOutcome (Reports.readReport req prep))
        (Reports.bindMember userID)

/-- The body of every entry point. -/
def body (site : Site) : Label → Job
  | .persistImport batchID draws => Ingest.persistImport site batchID draws
  | .classifyBatch batchID draws => Classify.classifyBatch site batchID draws
  | .classifyPage batchID draws context cursor page =>
      Classify.classifyPage site batchID draws context cursor page
  | .resolve userID entityID key outcome categoryCode draws =>
      Review.resolve site userID entityID key outcome categoryCode draws
  | .undo userID decisionID draws => Review.undo userID decisionID draws
  | .dismissTransfer userID transferID draws => dismissTransfer userID transferID draws
  | .insertClassification c draws =>
      inTx Review.answer (insertClassification (draws.id 0 0) (draws.now 0) c)
  | .supersedeClassification oldID c draws =>
      inTx Review.answer (supersedeClassification (draws.id 0 0) (draws.now 0) oldID c)
  | .managementPNL userID req => managementPNL userID req

abbrev System := Isolation.System Database Write Failure Question Reply Label Outcome

abbrev Event := Isolation.Event Failure Reply Label

/-- A committed database nobody is connected to. -/
def System.idle (d : Database) : System := ⟨d, []⟩

end Vekst
