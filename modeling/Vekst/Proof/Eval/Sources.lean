import Vekst.Eval.Sources
import Vekst.Proof.Ingest.Rows
import Vekst.Proof.Normalize.Marks
import Vekst.Text.Quoted

namespace Vekst.Eval
open Regex Normalize

/-! ## Lines as both readers have them -/

/-- A line as the evaluation's reader takes it apart. -/
def rowOf (line : Text) : List Text := Csv.fieldsOf ';' (Csv.dropReturn line)

section Lines

variable {u : Tables} {line piece s : Text}

end Lines

/-! ## Rows behind the header -/

section Files

variable {u : Tables} {float : Text → Option ℚ} {text headerLine : Text} {before after : List Text}

end Files

/-! ## The lines of a statement -/

section Statements

open Ingest.Priorbank (OrderOf RowOf openStatement charsetOf parsePriorbankWithParams)

variable {layout : Ingest.Priorbank.Layout} {order : Ingest.Priorbank.Order} {text : Text}

end Statements

/-! ## A quoted purpose -/

end Vekst.Eval
