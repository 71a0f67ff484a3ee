import Vekst.Proof.Classify.Chunk
import Vekst.Proof.Eval.Build
import Vekst.Relational.Ordering

namespace Vekst.Classify
open Isolation Ledger Relational

/-! ## What the migrations leave in the tables -/

section Migrations

variable {shared : List CategoryRow} {ids : Nat → UUID} {seed : List Eval.SeedRule}
  {table rows : List RuleRow}

end Migrations

/-! ## The order the engine tries the rules in -/

section Order

instance : Std.Total beforeRule where
  total a b := by
    unfold beforeRule
    grind

instance : IsTrans (RuleRow × CategoryRow) beforeRule where
  trans a b c first second := by
    unfold beforeRule at *
    grind

variable {shared : List CategoryRow} {templates rows : List RuleRow} {seed : List Eval.SeedRule}
  {version : String} {d : Database}

end Order

/-! ## What the engine is sent of them -/

section Sent

open Eval (ofAnswer Applies Prepared)

variable {rules : List Eval.Rule} {seed : List Eval.SeedRule} {rows : List (RuleRow × CategoryRow)}

/-- What the evaluation would be given of the revenue rules. -/
def revenue : List Eval.Rule :=
  [(72, "РАЗРАБОТК"), (73, "ДОРАБОТК"), (74, "ПОДДЕРЖК")].map fun (priority, stem) =>
    ⟨priority, "country:BY", "0101",
      [⟨"description", "contains_all", stem⟩, ⟨"direction", "eq", "income"⟩]⟩

end Sent

/-! ## The service answers as it was measured -/

section Measured

open Eval (ofAnswer ofVendors Prepared Applies)

variable {u : Normalize.Tables} {lower : String → String} {source by_ : List Eval.SourceRule}
  {cats : List Eval.Node} {kept : List Eval.StoredRule} {version : String}
  {shared : List CategoryRow} {first templates rows : List RuleRow} {seed : List Eval.SeedRule}
  {ids ruleIDs nextIDs laterIDs : Nat → UUID} {site : Site} {d mid : Database}
  {context : BatchContext} {extra : List Eval.Rule}

theorem prepare_ok (prepared : Eval.prepare u source by_ = some (cats, kept)) :
    (∀ r ∈ kept, Eval.Built r.toTemplateRule) ∧
      kept.map (·.priority) = List.range' 1 kept.length := by
  obtain ⟨cats', taxonomy, prepared⟩ := Option.bind_eq_some_iff.mp prepared
  obtain ⟨rules, made, prepared⟩ := Option.bind_eq_some_iff.mp prepared
  dsimp only at prepared
  split at prepared
  · obtain ⟨rfl, rfl⟩ := Prod.mk.inj (Option.some.inj prepared)
    constructor
    · intro r member
      exact Eval.built_templates made _
        ((Eval.collapse_sublist []).subset (Eval.mem_numbered member).1)
    · rw [Eval.priorities_numbered, Eval.numbered, List.length_map, List.length_zipIdx]
  · cases prepared

/-- The rules of the two rulesets: those of the evaluation, and behind them those of 00019. -/
def InForce (version : String) (extra : List Eval.Rule) : Prop :=
  version = "v1" ∧ extra = [] ∨ version = "v2" ∧ extra = revenue

end Measured

/-! ## A deployment of few rules -/

end Vekst.Classify
