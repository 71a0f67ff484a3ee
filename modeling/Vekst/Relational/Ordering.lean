import Mathlib.Data.List.Sort

namespace Relational

variable {α : Type*} {r : α → α → Prop} [DecidableRel r]

/-! ## `ORDER BY` -/

end Relational
