import Vekst.Classify.Run
import Vekst.Text.Jsonb

namespace Vekst.Classify
open Ledger Jsonb

/-! ## The stored JSON of `classification_rules.matcher` -/

end Vekst.Classify
