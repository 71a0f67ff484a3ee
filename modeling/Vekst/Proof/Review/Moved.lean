import Vekst.Proof.Reports.Figures
import Vekst.Proof.Review.Alike
import Vekst.Proof.Review.Decisions

namespace Vekst.Review
open Calendar Isolation Ledger Relational Reports

/-! ## The live answers a resolution adds -/

/-- What a resolution that names a category leaves of the tables a report reads. -/
structure Answered (site : Site) (draws : Draws) (userID : UUID) (outcome : String)
    (category : CategoryRow) (rows : List TransactionRow) (d e : Database) : Prop where
  frame : Framed d e
  known : category ∈ d.categories
  classified : e.classifications = d.classifications ++
    settledClassifications site draws userID category.id outcome rows

section Answered

variable {site : Site} {draws : Draws} {userID entityID : UUID} {key outcome categoryCode : String}
  {category : CategoryRow} {d e : Database} {t : TransactionRow}

/-- A resolution that succeeds committed its transaction. -/
theorem resolved_of_solo {around : Surroundings Failure Question Reply} {asked : List Question}
    (did : Solo (body site) around
      (body site (.resolve userID entityID key outcome categoryCode draws)) d [] asked
      (some (.ok .done)) e) :
    checkOutcome outcome categoryCode = .ok () ∧ ∃ decision,
      (resolveRows site draws userID entityID key outcome categoryCode).run Store.apply d =
        .ok (decision, e) := by
  have unsuccessful : ¬ Unsuccessful (some (.ok .done)) := by
    rintro (same | ⟨e, same⟩) <;> cases same
  rcases solo_resolve did with ⟨-, checked, returned⟩ | ⟨-, failed⟩
  · cases returned with
    | unchanged _ failed => exact absurd failed unsuccessful
    | committed ran _ left _ =>
        rw [left]
        exact ⟨checked, _, Prog.run_of_attempt ran⟩
  · exact absurd failed unsuccessful

theorem answered_of_run {decision : ReviewDecisionRow} (named : outcome ≠ outcomeSkipped)
    (checked : checkOutcome outcome categoryCode = .ok ())
    (ran : (resolveRows site draws userID entityID key outcome categoryCode).run Store.apply d =
      .ok (decision, e)) :
    ∃ category, category.code = resolvedCode outcome categoryCode ∧ category.code ≠ "" ∧
      Answered site draws userID outcome category (reviewGroupRows d entityID key) d e := by
  obtain ⟨-, category, read, settled⟩ := (run_resolveRows_iff named).mp ran
  obtain ⟨-, -, -, -, after⟩ := run_settleGroup_ok.mp settled
  rw [categoryByCode] at read
  split at read
  next cat found =>
    obtain rfl := Except.ok.inj read
    have matching := List.find?_some found
    simp only [Bool.and_eq_true, decide_eq_true_eq] at matching
    exact ⟨cat, matching.2, matching.2 ▸ resolvedCode_ne_empty checked, ⟨_, _, _, after⟩,
      List.mem_of_find?_eq_some found, congrArg Database.classifications after⟩
  next => cases read

/-- The decision counts the amounts the resolution read. -/
theorem recorded_of_run {decision : ReviewDecisionRow}
    (ran : (resolveRows site draws userID entityID key outcome categoryCode).run Store.apply d =
      .ok (decision, e)) :
    decision ∈ e.decisions ∧ decision ∉ d.decisions ∧ decision.counterpartyKey = key ∧
      decision.coveredMinor = ((reviewGroupRows d entityID key).map (·.amount)).sum := by
  have settled : checkDecision d decision = .ok () ∧ decision.counterpartyKey = key ∧
      decision.coveredMinor = ((reviewGroupRows d entityID key).map (·.amount)).sum ∧
      e.decisions = d.decisions ++ [decision] := by
    by_cases skipped : outcome = outcomeSkipped
    · subst skipped
      obtain ⟨checked, rfl, rfl⟩ := run_resolveRows_skipped ran
      exact ⟨checked, rfl, rfl, rfl⟩
    · obtain ⟨-, category, -, made⟩ := (run_resolveRows_iff skipped).mp ran
      obtain ⟨-, -, checked, rfl, rfl⟩ := run_settleGroup_ok.mp made
      exact ⟨checked, rfl, rfl, rfl⟩
  obtain ⟨checked, named, amount, decided⟩ := settled
  refine ⟨?_, fun known => (checkDecision_new checked).1 decision known rfl, named, amount⟩
  rw [decided]
  exact List.mem_append_right _ (List.mem_singleton_self _)

theorem covered_of_settled (keyed : (d.transactions.map (·.id)).Nodup) (stored : t ∈ d.transactions)
    {c : ClassificationRow} (member : c ∈ settledClassifications site draws userID category.id outcome
      (reviewGroupRows d entityID key)) (own : c.transactionID = t.id) :
    t ∈ reviewGroupRows d entityID key := by
  have named : c.transactionID ∈ (reviewGroupRows d entityID key).map (·.id) := by
    rw [← @settled_transactions site draws userID outcome category.id]
    exact List.mem_map_of_mem member
  obtain ⟨t', covered, same⟩ := List.mem_map.mp named
  rw [List.inj_on_of_nodup_map keyed stored (mem_groupRows.mp covered).1 (same.trans own).symm]
  exact covered

/-- A resolution answers a transaction once. -/
theorem few_settled (keyed : (d.transactions.map (·.id)).Nodup) (txnID : UUID) :
    ((settledClassifications site draws userID category.id outcome
      (reviewGroupRows d entityID key)).filter (·.transactionID = txnID)).length ≤ 1 := by
  have ids : ((reviewGroupRows d entityID key).map (·.id)).Nodup :=
    (nodup_groupRows keyed).map_on fun a first b second same =>
      List.inj_on_of_nodup_map keyed (mem_groupRows.mp first).1 (mem_groupRows.mp second).1 same
  rw [← @settled_transactions site draws userID outcome category.id] at ids
  have few := List.nodup_iff_count_le_one.mp ids txnID
  rw [List.count_eq_countP, List.countP_map] at few
  rw [← List.countP_eq_length_filter]
  exact few

variable (answered : Answered site draws userID outcome category (reviewGroupRows d entityID key) d e)

include answered

theorem Answered.transactions : e.transactions = d.transactions := by
  obtain ⟨_, _, _, rfl⟩ := answered.frame
  rfl

theorem Answered.categories : e.categories = d.categories := by
  obtain ⟨_, _, _, rfl⟩ := answered.frame
  rfl

theorem Answered.liveClassification_eq (t : TransactionRow) :
    liveClassification e t = (liveClassification d t).or
      ((settledClassifications site draws userID category.id outcome
        (reviewGroupRows d entityID key)).find? (liveFor t)) := by
  rw [liveClassification, answered.classified, List.find?_append]
  rfl

/-- A transaction outside the group keeps its answer. -/
theorem Answered.elsewhere (keyed : (d.transactions.map (·.id)).Nodup) (stored : t ∈ d.transactions)
    (other : t ∉ reviewGroupRows d entityID key) : liveClassification e t = liveClassification d t := by
  rw [answered.liveClassification_eq, List.find?_eq_none.mpr, Option.or_none]
  intro c member own
  simp only [liveFor, Bool.and_eq_true, decide_eq_true_eq] at own
  exact other (covered_of_settled keyed stored member own.1)

/-- A transaction of the group had no answer, and has the category now. -/
theorem Answered.here (covered : t ∈ reviewGroupRows d entityID key) :
    liveClassification d t = none ∧ ∃ c, liveClassification e t = some c ∧
      c.categoryID = category.id := by
  have waits : liveClassification d t = none := by
    rw [← unanswered_iff, unanswered_iff_unclassified]
    exact (mem_groupRows.mp covered).2.2.1
  refine ⟨waits, ?_⟩
  rw [answered.liveClassification_eq, waits, Option.none_or]
  have named : t.id ∈ (settledClassifications site draws userID category.id outcome
      (reviewGroupRows d entityID key)).map (·.transactionID) := by
    rw [settled_transactions]
    exact List.mem_map_of_mem covered
  obtain ⟨c, member, same⟩ := List.mem_map.mp named
  have live : liveFor t c = true := by
    obtain ⟨_, _, rfl⟩ := List.mem_map.mp member
    rw [liveFor, Bool.and_eq_true, decide_eq_true_eq]
    exact ⟨same, rfl⟩
  obtain ⟨c', found⟩ := Option.isSome_iff_exists.mp (List.find?_isSome.mpr ⟨c, member, live⟩)
  refine ⟨c', found, ?_⟩
  obtain ⟨_, _, rfl⟩ := List.mem_map.mp (List.mem_of_find?_eq_some found)
  rfl

theorem Answered.liveCategory_elsewhere (keyed : (d.transactions.map (·.id)).Nodup)
    (stored : t ∈ d.transactions) (other : t ∉ reviewGroupRows d entityID key) :
    liveCategory e t = liveCategory d t := by
  rw [liveCategory, answered.elsewhere keyed stored other, answered.categories]
  rfl

theorem Answered.liveCategory_here (classified : Classified d)
    (covered : t ∈ reviewGroupRows d entityID key) : liveCategory e t = some category := by
  obtain ⟨-, c, answer, names⟩ := answered.here covered
  rw [liveCategory, answer, answered.categories, Option.bind_some, names]
  have some_ : (d.categories.find? fun cat => cat.id = category.id).isSome :=
    List.find?_isSome.mpr ⟨category, answered.known, by simp⟩
  obtain ⟨cat, found⟩ := Option.isSome_iff_exists.mp some_
  have same : cat.id = category.id := by simpa using List.find?_some found
  rw [found, List.inj_on_of_nodup_map classified.keyed (List.mem_of_find?_eq_some found)
    answered.known same]

theorem Answered.classified_after (classified : Classified d)
    (keyed : (d.transactions.map (·.id)).Nodup) (coded : category.code ≠ "") : Classified e := by
  have new : ∀ c ∈ settledClassifications site draws userID category.id outcome
      (reviewGroupRows d entityID key), c.categoryID = category.id := by
    intro c member
    obtain ⟨_, _, rfl⟩ := List.mem_map.mp member
    rfl
  constructor
  · intro t stored
    rw [answered.transactions] at stored
    rw [liveOf_settled answered.classified]
    by_cases covered : t ∈ reviewGroupRows d entityID key
    · have waits : d.liveOf t.id = [] := (mem_groupRows.mp covered).2.2.1
      rw [waits, List.nil_append]
      exact few_settled keyed t.id
    · have none_ : (settledClassifications site draws userID category.id outcome
          (reviewGroupRows d entityID key)).filter (·.transactionID = t.id) = [] := by
        rw [List.filter_eq_nil_iff]
        exact fun c member own =>
          covered (covered_of_settled keyed stored member (of_decide_eq_true own))
      rw [none_, List.append_nil]
      exact classified.oneLive t stored
  · intro c member live
    rw [answered.categories]
    rw [answered.classified] at member
    rcases List.mem_append.mp member with old | added
    · exact classified.named c old live
    · exact ⟨category, answered.known, (new c added).symm⟩
  · rw [answered.categories]
    exact classified.keyed
  · intro c member live cat known same
    rw [answered.categories] at known
    rw [answered.classified] at member
    rcases List.mem_append.mp member with old | added
    · exact classified.coded c old live cat known same
    · rw [List.inj_on_of_nodup_map classified.keyed known answered.known (same.trans (new c added))]
      exact coded

end Answered

/-! ## What a resolution moves in a report -/

/-- Where the switch puts an answer of the category. -/
def landing (category : CategoryRow) : Except Reports.Failure LineRef :=
  if !category.isPNL then .ok (.bucketLine .nonPNL)
  else if category.requiresAllocation then .ok (.bucketLine .unallocated)
  else if category.pnlSection ∈ sections then .ok (.sectionLine category.pnlSection)
  else if category.pnlSection ∈ nonPNLSections then .ok (.bucketLine .nonPNL)
  else .error (.notASection category.code category.pnlSection)

/-- A transaction of the report's own basis that is booked in the column. -/
def inColumn (req : Request) (first last : Month) (period : String) (t : TransactionRow) : Bool :=
  decide (t.sourceKind.text = req.basis.name ∧ t.entityID = req.entityID ∧
    (first ≤ t.bookedOn.toMonth ∧ t.bookedOn.toMonth ≤ last) ∧
    req.granularity.column t.bookedOn.toMonth = .ok period)

/-- The amount of a group that one column of the report shows. -/
def shown (d : Database) (entityID : UUID) (key : String) (req : Request) (first last : Month)
    (period : String) : Int64 :=
  (((reviewGroupRows d entityID key).filter (inColumn req first last period)).map (·.amount)).sum

/-- What a transaction adds to a cell, as the word it is summed in. -/
def part (d : Database) (req : Request) (first last : Month) (period : String) (spec : Spec)
    (ref : LineRef) (t : TransactionRow) : Int64 :=
  if belongs d req first last period spec ref t then t.amount else 0

section Figures

variable {site : Site} {draws : Draws} {userID entityID : UUID} {key outcome : String}
  {category : CategoryRow} {d e : Database} {t : TransactionRow} {req : Request} {first last : Month}
  {period : String} {spec spec' : Spec} {ref : LineRef}

theorem ofInt_figure (rows : List TransactionRow) :
    Int64.ofInt (exactSum (rows.filter (belongs d req first last period spec ref))) =
      (rows.map (part d req first last period spec ref)).sum := by
  rw [exactSum, ← Wrapping.sum_map_ofInt_toInt, sum_filter]
  rfl

theorem place_landing (basis : spec.basis = req.basis) (kind : t.sourceKind.text = req.basis.name)
    (coded : category.code ≠ "") (answer : liveCategory d t = some category) :
    place spec (ownRow d t) = landing category := by
  have own : (⟨t.sourceKind.text⟩ : Basis) = spec.basis := by rw [kind, basis]
  simp [place, landing, ownRow, own, answer, coded]

/-- What an answer takes from the unclassified transactions, it gives to the category's line. -/
theorem part_answered (answered : Answered site draws userID outcome category
      (reviewGroupRows d entityID key) d e) (classified : Classified d)
    (keyed : (d.transactions.map (·.id)).Nodup) (coded : category.code ≠ "")
    (basis : spec.basis = req.basis) (basis' : spec'.basis = req.basis) (stored : t ∈ d.transactions) :
    part e req first last period spec' ref t +
        (if t ∈ reviewGroupRows d entityID key ∧ inColumn req first last period t ∧
          ref = .bucketLine .unclassified then t.amount else 0) =
      part d req first last period spec ref t +
        (if t ∈ reviewGroupRows d entityID key ∧ inColumn req first last period t ∧
          landing category = .ok ref then t.amount else 0) := by
  by_cases covered : t ∈ reviewGroupRows d entityID key
  · obtain ⟨waits, -⟩ := answered.here covered
    by_cases kind : t.sourceKind.text = req.basis.name
    · have before := place_unanswered basis kind waits
      have after := place_landing basis' kind coded (answered.liveCategory_here classified covered)
      have unclassified : (Except.ok (.bucketLine .unclassified) : Except Reports.Failure LineRef) =
          .ok ref ↔ ref = .bucketLine .unclassified := by
        rw [Except.ok.injEq, eq_comm]
      simp only [part, belongs, inColumn, before, after, unclassified, kind, covered,
        decide_eq_true_eq, true_and, and_assoc]
      exact add_comm _ _
    · have before := @place_other d req spec basis t kind
      have after := @place_other e req spec' basis' t kind
      simp [part, belongs, inColumn, before, after, kind]
  · have same : place spec' (ownRow e t) = place spec (ownRow d t) := by
      rw [place_basis (basis'.trans basis.symm)]
      have category := answered.liveCategory_elsewhere keyed stored covered
      refine place_congr ?_ ?_ ?_ ?_ ?_
      all_goals simp only [ownRow, category]
    simp [part, belongs, same, covered]

theorem filter_groupRows (keep : TransactionRow → Bool) :
    ((reviewGroupRows d entityID key).filter keep).Perm
      (d.transactions.filter fun t => decide (t ∈ reviewGroupRows d entityID key) && keep t) := by
  have sorted : (reviewGroupRows d entityID key).Perm
      ((waiting d entityID).filter (·.counterpartyKey = key)) := List.perm_insertionSort _ _
  refine (sorted.filter keep).trans (List.Perm.of_eq ?_)
  rw [waiting, List.filter_filter, List.filter_filter]
  apply List.filter_congr
  intro t stored
  have member : t ∈ reviewGroupRows d entityID key ↔
      (t.counterpartyKey = key ∧ t.entityID = entityID ∧ unanswered d t = true) := by
    rw [mem_groupRows, unanswered_iff_unclassified]
    tauto
  rw [Bool.eq_iff_iff]
  simp only [Bool.and_eq_true, decide_eq_true_eq, member]
  tauto

theorem sum_shown (holds : Prop) [Decidable holds] :
    (d.transactions.map fun t => if t ∈ reviewGroupRows d entityID key ∧
      inColumn req first last period t ∧ holds then t.amount else 0).sum =
      if holds then shown d entityID key req first last period else 0 := by
  by_cases yes : holds
  · simp only [yes, and_true, if_true]
    rw [shown, ((filter_groupRows _).map _).sum_eq, sum_filter]
    simp only [Bool.and_eq_true, decide_eq_true_eq]
  · simp [yes]

/-- A figure once the group is answered: its amount leaves the unclassified transactions for the line
of the category. -/
theorem figure_answered (answered : Answered site draws userID outcome category
      (reviewGroupRows d entityID key) d e) (classified : Classified d)
    (keyed : (d.transactions.map (·.id)).Nodup) (coded : category.code ≠ "")
    (basis : spec.basis = req.basis) (basis' : spec'.basis = req.basis) :
    Int64.ofInt (exactSum (e.transactions.filter (belongs e req first last period spec' ref))) +
        (if ref = .bucketLine .unclassified then shown d entityID key req first last period else 0) =
      Int64.ofInt (exactSum (d.transactions.filter (belongs d req first last period spec ref))) +
        if landing category = .ok ref then shown d entityID key req first last period else 0 := by
  rw [ofInt_figure, ofInt_figure, answered.transactions, ← sum_shown, ← sum_shown,
    ← List.sum_map_add, ← List.sum_map_add]
  apply congrArg
  apply List.map_congr_left
  intro t stored
  exact part_answered answered classified keyed coded basis basis' stored

/-- The columns show every transaction of a group the request is about. -/
theorem sum_shown_columns {columns : List String}
    (listed : periods req.fromMonth req.toMonth req.granularity = .ok columns)
    (asks : req.Asks first last)
    (about : ∀ t ∈ reviewGroupRows d entityID key, t.sourceKind.text = req.basis.name ∧
      t.entityID = req.entityID ∧ first ≤ t.bookedOn.toMonth ∧ t.bookedOn.toMonth ≤ last) :
    (columns.map (shown d entityID key req first last)).sum =
      ((reviewGroupRows d entityID key).map (·.amount)).sum := by
  have listed' := listed
  rw [asks.fromText, asks.toText] at listed'
  have each : columns.map (shown d entityID key req first last) =
      (columns.map Except.ok).map (groupSum (fun t : TransactionRow =>
        req.granularity.column t.bookedOn.toMonth) (·.amount) (reviewGroupRows d entityID key)) := by
    rw [List.map_map]
    apply List.map_congr_left
    intro period _
    rw [shown, Function.comp_apply, groupSum]
    apply congrArg
    apply congrArg
    apply List.filter_congr
    intro t covered
    obtain ⟨kind, entity, months⟩ := about t covered
    simp [inColumn, kind, entity, months]
  rw [each]
  refine sum_groupSum _ _ _ ((nodup_periods listed).map fun _ _ => Except.ok.inj) _ fun t covered => ?_
  obtain ⟨-, -, lower, upper⟩ := about t covered
  obtain ⟨period, member, column⟩ := column_of_month asks.firstFits asks.lastFits listed' lower upper
  rw [column]
  exact List.mem_map_of_mem member

end Figures

/-- What the answer of a group changes of a report. -/
structure Moves (d : Database) (entityID : UUID) (key : String) (req : Request) (first last : Month)
    (category : CategoryRow) (report report' : Report) : Prop where
  columns : report'.spec.periods = report.spec.periods
  strip : report'.reconciliation = report.reconciliation
  figures : ∀ (i : Nat) (inside : i < report.spec.periods.length), ∀ ref ∈ cells,
    report'.cellAt ref i = report.cellAt ref i +
        (if landing category = .ok ref then
          shown d entityID key req first last report.spec.periods[i] else 0) -
      if ref = .bucketLine .unclassified then
        shown d entityID key req first last report.spec.periods[i] else 0

section Reported

variable {site : Site} {draws : Draws} {userID entityID reader : UUID} {key outcome categoryCode : String}
  {d e : Database} {req : Request} {first last : Month} {report report' : Report}

theorem strip_of_framed (framed : Framed d e)
    (before : Reports.managementPNL reader req d = .ok report)
    (after : Reports.managementPNL reader req e = .ok report') :
    report'.reconciliation = report.reconciliation := by
  obtain ⟨prep, read, _, computed, prepared, -, body, -, rfl⟩ := managementPNL_read before
  obtain ⟨prep', read', _, computed', prepared', -, body', -, rfl⟩ := managementPNL_read after
  obtain rfl := Except.ok.inj (prepared.symm.trans prepared')
  obtain ⟨_, _, _, -, -, -, -, -, strip⟩ := readReport_ok body
  obtain ⟨_, _, _, -, -, -, -, -, strip'⟩ := readReport_ok body'
  have base : e.baseCurrency = d.baseCurrency := by
    obtain ⟨_, _, _, rfl⟩ := framed
    rfl
  rw [base] at strip'
  obtain ⟨answer, here, there⟩ := framed.reconciliation req prep.periods d.baseCurrency
  have alike := here.symm.trans strip
  have alike' := there.symm.trans strip'
  cases answer with
  | error e => cases alike
  | ok lines =>
      obtain ⟨same, -⟩ := Prod.mk.inj (Except.ok.inj alike)
      obtain ⟨same', -⟩ := Prod.mk.inj (Except.ok.inj alike')
      exact same'.symm.trans same

theorem moves_of_answered {category : CategoryRow} (answered : Answered site draws userID outcome
      category (reviewGroupRows d entityID key) d e) (classified : Classified d)
    (keyed : (d.transactions.map (·.id)).Nodup) (coded : category.code ≠ "")
    (asks : req.Asks first last) (before : Reports.managementPNL reader req d = .ok report)
    (after : Reports.managementPNL reader req e = .ok report') :
    Moves d entityID key req first last category report report' := by
  obtain ⟨basis, listed⟩ := spec_of_success before
  obtain ⟨basis', listed'⟩ := spec_of_success after
  have columns := Except.ok.inj (listed'.symm.trans listed)
  refine ⟨columns, strip_of_framed answered.frame before after, fun i inside ref known => ?_⟩
  have inside' : i < report'.spec.periods.length := by rwa [columns]
  have moved := @figure_answered site draws userID entityID key outcome category d e req first last
    report.spec.periods[i] report.spec report'.spec ref answered classified keyed coded basis basis'
  have figure := figure_of_success classified asks before known inside
  have figure' := figure_of_success (answered.classified_after classified keyed coded) asks after known
    inside'
  simp only [columns] at figure'
  rw [← figure, ← figure'] at moved
  exact eq_sub_of_add_eq moved

/-- A resolution moves the amount of its group from the unclassified transactions to the line of its
category, column by column, and touches nothing else of the report; putting the group off changes
nothing. What it records as covered is the amount shown as moved. -/
theorem resolution_moves_its_amount {around : Surroundings Failure Question Reply}
    {asked : List Question} (classified : Classified d) (keyed : (d.transactions.map (·.id)).Nodup)
    (did : Solo (body site) around
      (body site (.resolve userID entityID key outcome categoryCode draws)) d [] asked
      (some (.ok .done)) e)
    (asks : req.Asks first last) (before : Reports.managementPNL reader req d = .ok report)
    (after : Reports.managementPNL reader req e = .ok report') :
    (outcome = outcomeSkipped → report' = report) ∧
    (outcome ≠ outcomeSkipped → ∃ category ∈ d.categories,
      category.code = resolvedCode outcome categoryCode ∧
        Moves d entityID key req first last category report report') ∧
    ((∀ t ∈ reviewGroupRows d entityID key, t.sourceKind.text = req.basis.name ∧
        t.entityID = req.entityID ∧ first ≤ t.bookedOn.toMonth ∧ t.bookedOn.toMonth ≤ last) →
      ∃ decision ∈ e.decisions, decision ∉ d.decisions ∧ decision.counterpartyKey = key ∧
        decision.coveredMinor =
          (report.spec.periods.map (shown d entityID key req first last)).sum) := by
  obtain ⟨checked, decision, ran⟩ := resolved_of_solo did
  refine ⟨?_, fun named => ?_, fun about => ?_⟩
  · rintro rfl
    obtain ⟨-, -, rfl⟩ := run_resolveRows_skipped ran
    have alike : Alike d { d with decisions := d.decisions ++ [decision] } := ⟨rfl, rfl⟩
    exact Except.ok.inj (after.symm.trans ((alike.managementPNL reader req).trans before))
  · obtain ⟨category, code, coded, answered⟩ := answered_of_run named checked ran
    exact ⟨category, answered.known, code,
      moves_of_answered answered classified keyed coded asks before after⟩
  · obtain ⟨made, new, named, amount⟩ := recorded_of_run ran
    refine ⟨decision, made, new, named, ?_⟩
    rw [amount, sum_shown_columns (spec_of_success before).2 asks about]

end Reported

/-! ## A payment settled as a sale -/

theorem classified_sampleLedger : Classified sampleLedger :=
  ⟨by decide, by decide, by decide, by decide⟩

theorem ok_of_toOption {α : Type} {outcome : Except Vekst.Failure α} {answer : α}
    (some_ : outcome.toOption = some answer) : outcome = .ok answer := by
  cases outcome with
  | error e => cases some_
  | ok a => exact congrArg Except.ok (Option.some.inj some_)

/-- The payment's resolution, with the sales and the unclassified bucket of the quarter before it and
after it. -/
theorem solo_sampleSale : ∃ e report report',
    Solo (body sampleSite) .calm (body sampleSite
      (.resolve 7 1 "" outcomeCategorised "0101" (sampleDraws 200))) sampleLedger [] []
      (some (.ok .done)) e ∧
    Reports.managementPNL 7 sampleRequest sampleLedger = .ok report ∧
    Reports.managementPNL 7 sampleRequest e = .ok report' ∧
    (report.storedAt netSales 0, report.bucketAt .unclassified 0) = (0, 120000) ∧
    (report'.storedAt netSales 0, report'.bucketAt .unclassified 0) = (120000, 0) := by
  have evaluated : (do
      let (_, writes) ← ((resolveRows sampleSite (sampleDraws 200) 7 1 "" outcomeCategorised
        "0101").attempt sampleLedger []).toOption
      let report ← (Reports.managementPNL 7 sampleRequest sampleLedger).toOption
      let report' ← (Reports.managementPNL 7 sampleRequest (visible sampleLedger writes)).toOption
      return decide (Store.check (visible sampleLedger writes) writes = .ok ()) &&
        decide ((report.storedAt netSales 0, report.bucketAt .unclassified 0) = (0, 120000)) &&
        decide ((report'.storedAt netSales 0, report'.bucketAt .unclassified 0) = (120000, 0))) =
      some true := by
    decide +kernel
  obtain ⟨⟨_, writes⟩, ran, rest⟩ := Option.bind_eq_some_iff.mp evaluated
  obtain ⟨report, before, rest⟩ := Option.bind_eq_some_iff.mp rest
  obtain ⟨report', after, held⟩ := Option.bind_eq_some_iff.mp rest
  have facts := Option.some.inj held
  simp only [Bool.and_eq_true, decide_eq_true_eq] at facts
  obtain ⟨⟨passes, figures⟩, figures'⟩ := facts
  have checked : checkOutcome outcomeCategorised "0101" = .ok () := rfl
  have did := @solo_resolve_of sampleSite sampleLedger (sampleDraws 200) 7 1 "" "0101" .calm
    outcomeCategorised _ writes mayResolve_sampleLedger checked (Prog.attempt_of_toOption ran) passes
  exact ⟨_, report, report', did, ok_of_toOption before, ok_of_toOption after, figures, figures'⟩

theorem resolution_moves_its_amount_sample : ∃ e report report',
    Reports.managementPNL 7 sampleRequest sampleLedger = .ok report ∧
    Reports.managementPNL 7 sampleRequest e = .ok report' ∧
    (report.storedAt netSales 0, report.bucketAt .unclassified 0) = (0, 120000) ∧
    (report'.storedAt netSales 0, report'.bucketAt .unclassified 0) = (120000, 0) ∧
    ∃ category, Moves sampleLedger 1 "" sampleRequest january february category report report' := by
  obtain ⟨e, report, report', did, before, after, figures, figures'⟩ := solo_sampleSale
  have asks : sampleRequest.Asks january february :=
    ⟨by decide +kernel, by decide +kernel, by decide, by decide, by decide⟩
  have keyed : (sampleLedger.transactions.map (·.id)).Nodup := List.nodup_singleton _
  obtain ⟨-, moves, -⟩ :=
    resolution_moves_its_amount classified_sampleLedger keyed did asks before after
  obtain ⟨category, -, -, moved⟩ := moves (by decide)
  exact ⟨e, report, report', before, after, figures, figures', category, moved⟩

end Vekst.Review
