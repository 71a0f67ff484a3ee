import Vekst.Classify.Matcher
import Vekst.Proof.Classify.Conditions

namespace Vekst.Classify
open Ledger Jsonb Relational

variable {rule : Rule} {stored : Jsonb} {m : Matcher}

/-! ## What a rule states -/

/-- A rule as it is sent, in a request of this version, in the words of a matcher. -/
def Rule.asMatcher (rule : Rule) : Matcher where
  sourceKind := rule.sourceKind
  normalizeVersion := normalizeVersion
  all := rule.all.map fun c => ⟨c.field, c.op, c.value, c.amountValue⟩

/-- The matcher in a request, which names its own version. -/
def sent (m : Matcher) : Matcher := { m with normalizeVersion := normalizeVersion }

theorem toCondition_ok {c : MatcherCondition} {condition : Condition}
    (read : toCondition c = .ok condition) :
    condition = ⟨c.field, c.op, c.value, c.amount⟩ := by
  by_cases blank : c.field = "" ∨ c.op = ""
  · rw [toCondition, if_pos blank] at read
    cases read
  · rw [toCondition, if_neg blank] at read
    split at read
    next none_ =>
      cases read
      rw [none_]
    next amount some_ =>
      split at read
      next => cases read
      next converted made =>
        cases read
        unfold Money.make at made
        split at made
        · rw [some_, ← Except.ok.inj made]
        · cases made

theorem toRule_ok {row : RuleRow} {cat : CategoryRow} (read : toRule (row, cat) = .ok rule) :
    ∃ m, row.matcher = some m ∧ rule.asMatcher = sent m := by
  unfold toRule at read
  split at read
  next => cases read
  next m stored =>
    refine ⟨m, stored, ?_⟩
    by_cases empty : m.all = []
    · rw [if_pos empty] at read
      cases read
    · rw [if_neg empty] at read
      obtain ⟨all, converted, made⟩ := bind_ok.mp read
      cases made
      have each : List.Forall₂ (fun c (condition : Condition) =>
          (⟨condition.field, condition.op, condition.value, condition.amountValue⟩ :
            MatcherCondition) = c) m.all all := by
        refine (mapM_eq_ok_iff.mp converted).imp fun c condition one => ?_
        rw [toCondition_ok one]
      have same := map_eq_of_forall₂ each
      rw [List.map_id'] at same
      rw [Rule.asMatcher, sent, same]

end Vekst.Classify
