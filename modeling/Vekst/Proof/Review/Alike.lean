import Vekst.Isolation.Snapshot
import Vekst.Proof.Ledger.Unclassified
import Vekst.Reports.DrillDown

namespace Vekst.Review
open Calendar Isolation Ledger Relational Classify

/-- Only the tables of the review differ. -/
def Framed (d e : Database) : Prop :=
  ∃ classifications decisions vendors, e = { d with classifications, decisions, vendors }

/-! ## What a report reads of the accounts -/

section Framed

variable {d e : Database}

theorem Framed.reconciliationForPeriod (framed : Framed d e) :
    Reports.reconciliationForPeriod e = Reports.reconciliationForPeriod d := by
  obtain ⟨_, _, _, rfl⟩ := framed
  rfl

theorem Framed.openingBalanceBefore (framed : Framed d e) :
    Reports.openingBalanceBefore e = Reports.openingBalanceBefore d := by
  obtain ⟨_, _, _, rfl⟩ := framed
  rfl

theorem Framed.reconcilePeriods (framed : Framed d e) (baseCcy : String)
    (columns : List (String × Reports.Selection)) (balances : List Int64) :
    (Reports.reconcilePeriods baseCcy columns balances).ReadsAlike Database.apply d e := by
  induction columns generalizing balances with
  | nil => exact Prog.readsAlike_ret []
  | cons column columns ih =>
      obtain ⟨period, sel⟩ := column
      match balances with
      | [] => exact Prog.readsAlike_ret []
      | [_] => exact Prog.readsAlike_ret []
      | opening :: closing :: later =>
          refine Prog.readsAlike_bind ?_ fun line =>
            Prog.readsAlike_bind (ih (closing :: later)) fun lines => Prog.readsAlike_ret _
          refine Prog.readsAlike_bind (Prog.readsAlike_query ?_) fun r => Prog.readsAlike_ret _
          rw [framed.reconciliationForPeriod]

/-- The strip does not look at what the review decided. -/
theorem Framed.reconciliation (framed : Framed d e) (req : Reports.Request) (periods : List String)
    (baseCcy : String) : (Reports.reconciliation req periods baseCcy).ReadsAlike Database.apply d e := by
  rw [Reports.reconciliation]
  by_cases none_ : periods = []
  · rw [if_pos none_]
    exact Prog.readsAlike_ret _
  · rw [if_neg none_]
    refine Prog.readsAlike_bind (Prog.readsAlike_ofExcept _) fun selections => ?_
    refine Prog.readsAlike_bind (Prog.readsAlike_mapM fun before => Prog.readsAlike_query ?_)
      fun balances => framed.reconcilePeriods _ _ _
    rw [framed.openingBalanceBefore]

end Framed

/-! ## Databases with the same live classifications -/

/-- They differ in their decisions and in classifications that are not live. -/
structure Alike (d e : Database) : Prop where
  frame : e = { d with classifications := e.classifications, decisions := e.decisions }
  live : e.classifications.filter (·.live) = d.classifications.filter (·.live)

/-- What the services answer from one database, they answer from the other. -/
structure ReadsAlike (d e : Database) : Prop where
  report : ∀ userID req, Reports.managementPNL userID req e = Reports.managementPNL userID req d
  cell : ∀ userID req period line cursor limit,
    Reports.Service.lineTransactions userID req period line cursor limit e =
      Reports.Service.lineTransactions userID req period line cursor limit d
  queue : ∀ entityID limit offset,
    reviewGroups e entityID limit offset = reviewGroups d entityID limit offset
  group : ∀ entityID key, reviewGroupRows e entityID key = reviewGroupRows d entityID key
  page : ∀ batchID cursor limit,
    unclassifiedTransactions e batchID cursor limit = unclassifiedTransactions d batchID cursor limit
  context : ∀ site, ((requestContext site).run Database.apply e).map Prod.fst =
    ((requestContext site).run Database.apply d).map Prod.fst

theorem filter_liveFor (d : Database) (t : TransactionRow) :
    d.classifications.filter (liveFor t) =
      (d.classifications.filter (·.live)).filter (·.transactionID = t.id) := by
  rw [List.filter_filter]
  rfl

section Alike

variable {d e : Database}

theorem Alike.filter_liveFor (alike : Alike d e) (t : TransactionRow) :
    e.classifications.filter (liveFor t) = d.classifications.filter (liveFor t) := by
  rw [Review.filter_liveFor, Review.filter_liveFor, alike.live]

theorem Alike.unanswered (alike : Alike d e) : unanswered e = unanswered d := by
  funext t
  rw [Bool.eq_iff_iff, unanswered_iff_unclassified, unanswered_iff_unclassified]
  exact Eq.congr_left (alike.filter_liveFor t)

/-- Each transaction beside its live classification. -/
theorem Alike.leftJoin (alike : Alike d e) (rows : List TransactionRow) :
    leftJoin rows e.classifications liveFor = leftJoin rows d.classifications liveFor :=
  leftJoin_congr fun t _ => alike.filter_liveFor t

theorem Alike.innerJoin (alike : Alike d e) (rows : List TransactionRow) :
    innerJoin rows e.classifications liveFor = innerJoin rows d.classifications liveFor :=
  innerJoin_congr fun t _ => alike.filter_liveFor t

theorem Alike.framed (alike : Alike d e) : Framed d e := ⟨_, _, _, alike.frame⟩

theorem Alike.transactions (alike : Alike d e) : e.transactions = d.transactions := by
  rw [alike.frame]

theorem Alike.categories (alike : Alike d e) : e.categories = d.categories := by
  rw [alike.frame]

/-! ## The queue and the engine's pages -/

theorem Alike.waiting (alike : Alike d e) (entityID : UUID) : waiting e entityID = waiting d entityID := by
  rw [Review.waiting, Review.waiting, alike.unanswered, alike.transactions]

theorem Alike.unclassifiedTransactions (alike : Alike d e) (batchID : UUID) (cursor : Ledger.Cursor)
    (limit : Nat) :
    unclassifiedTransactions e batchID cursor limit =
      unclassifiedTransactions d batchID cursor limit := by
  rw [Ledger.unclassifiedTransactions, Ledger.unclassifiedTransactions, withoutLive, withoutLive,
    alike.leftJoin, alike.transactions]

/-- The engine is told of the vendors, the rules and the categories alone. -/
theorem Alike.requestContext (alike : Alike d e) (site : Site) :
    (requestContext site).ReadsAlike Database.apply d e := by
  have memory : vendorMemory e = vendorMemory d := by
    rw [alike.frame]
    rfl
  have rules : effectiveRules e = effectiveRules d := by
    rw [alike.frame]
    rfl
  have cats : classifiableCategories e = classifiableCategories d := by
    rw [alike.frame]
    rfl
  refine Prog.readsAlike_bind (Prog.readsAlike_query (by rw [cats])) fun cats => ?_
  refine Prog.readsAlike_bind (Prog.readsAlike_query (by rw [rules])) fun rules => ?_
  refine Prog.readsAlike_bind (Prog.readsAlike_ofExcept _) fun rules => ?_
  exact Prog.readsAlike_bind (Prog.readsAlike_query (by rw [memory])) fun _ => Prog.readsAlike_ret _

/-! ## The report -/

section Report

variable {args : Reports.Args}

theorem Alike.scope (alike : Alike d e) : Reports.scope e args = Reports.scope d args := by
  rw [Reports.scope, Reports.scope, alike.transactions]

theorem Alike.reportLines (alike : Alike d e) : Reports.reportLines e args = Reports.reportLines d args := by
  rw [Reports.reportLines, Reports.reportLines, Reports.classifiedRows, Reports.classifiedRows,
    alike.innerJoin, alike.categories, alike.scope]

theorem Alike.reportUnclassifiedTotals (alike : Alike d e) :
    Reports.reportUnclassifiedTotals e args = Reports.reportUnclassifiedTotals d args := by
  rw [Reports.reportUnclassifiedTotals, Reports.reportUnclassifiedTotals, alike.unanswered, alike.scope]

theorem Alike.reportOtherBasisTotals (alike : Alike d e) :
    Reports.reportOtherBasisTotals e args = Reports.reportOtherBasisTotals d args := by
  rw [Reports.reportOtherBasisTotals, Reports.reportOtherBasisTotals, alike.transactions]

theorem Alike.reportVersions (alike : Alike d e) :
    Reports.reportVersions e args = Reports.reportVersions d args := by
  rw [Reports.reportVersions, Reports.reportVersions, alike.innerJoin, alike.scope]

theorem Alike.readReport (alike : Alike d e) (req : Reports.Request) (prep : Reports.Prepared) :
    (Reports.readReport req prep).ReadsAlike Database.apply d e := by
  rw [Reports.readReport]
  refine Prog.readsAlike_bind (Prog.readsAlike_query (by rw [alike.frame])) fun baseCcy => ?_
  by_cases missing : baseCcy = ""
  · rw [if_pos missing]
    exact Prog.readsAlike_fail _
  rw [if_neg missing]
  refine Prog.readsAlike_bind (Prog.readsAlike_query alike.reportLines) fun lines => ?_
  refine Prog.readsAlike_bind (Prog.readsAlike_ofExcept _) fun classified => ?_
  refine Prog.readsAlike_bind (Prog.readsAlike_query alike.reportUnclassifiedTotals) fun totals => ?_
  refine Prog.readsAlike_bind (Prog.readsAlike_ofExcept _) fun unclassified => ?_
  refine Prog.readsAlike_bind (Prog.readsAlike_query alike.reportOtherBasisTotals) fun others => ?_
  refine Prog.readsAlike_bind (Prog.readsAlike_ofExcept _) fun other => ?_
  refine Prog.readsAlike_bind (alike.framed.reconciliation req prep.periods baseCcy) fun strip => ?_
  exact Prog.readsAlike_bind (Prog.readsAlike_query (by rw [alike.reportVersions])) fun versions =>
    Prog.readsAlike_ret _

end Report

theorem Alike.bindMember (alike : Alike d e) (userID : UUID) :
    (Reports.bindMember userID).ReadsAlike Database.apply d e := by
  apply Prog.readsAlike_query
  rw [alike.frame]

theorem Alike.managementPNL (alike : Alike d e) (userID : UUID) (req : Reports.Request) :
    Reports.managementPNL userID req e = Reports.managementPNL userID req d := by
  rw [Reports.managementPNL, Reports.managementPNL]
  apply congrArg (bind _)
  funext prep
  have read : ∀ result : Unit × Database, _ = _ := fun _ =>
    (alike.readReport req prep).bind_fst Reports.finishReport
  exact ((alike.bindMember userID).bind_fst fun _ => _).trans (congrArg (bind _) (funext read))

/-! ## A cell of the report -/

theorem Alike.onLine (alike : Alike d e) : Reports.onLine e = Reports.onLine d := by
  funext args line
  rw [Reports.onLine, Reports.onLine, Reports.cellRows, Reports.cellRows, alike.leftJoin,
    alike.transactions, alike.categories]

theorem Alike.readCell (alike : Alike d e) (period : String) (sel : Reports.Selection)
    (cursor : Reports.Cursor) (limit : Nat) :
    (Reports.readCell period sel cursor limit).ReadsAlike Database.apply d e := by
  refine Prog.readsAlike_bind (Prog.readsAlike_query (by rw [alike.frame])) fun baseCcy => ?_
  refine Prog.readsAlike_bind (Prog.readsAlike_query ?_) fun total => ?_
  · rw [Reports.lineTotal, Reports.lineTotal, alike.onLine]
  refine Prog.readsAlike_bind (Prog.readsAlike_query ?_) fun rows => Prog.readsAlike_ret _
  rw [Reports.lineTransactions, Reports.lineTransactions, alike.onLine]

theorem Alike.lineTransactions (alike : Alike d e) (userID : UUID) (req : Reports.Request)
    (period : String) (line : Reports.LineRef) (cursor : Reports.Cursor) (limit : Int) :
    Reports.Service.lineTransactions userID req period line cursor limit e =
      Reports.Service.lineTransactions userID req period line cursor limit d := by
  have page : ∀ sel, ∀ result : Unit × Database, _ = _ := fun sel _ =>
    (alike.readCell period sel cursor (Reports.pageLimit limit)).bind_fst Except.ok
  rw [Reports.Service.lineTransactions, Reports.Service.lineTransactions]
  split
  next => rfl
  next =>
    split
    next => rfl
    next =>
      split
      next => rfl
      next =>
        split
        next => rfl
        next =>
          split
          next => rfl
          next sel _ =>
            exact ((alike.bindMember userID).bind_fst fun _ => _).trans
              (congrArg (bind _) (funext (page sel)))

theorem Alike.readsAlike (alike : Alike d e) : ReadsAlike d e where
  report := alike.managementPNL
  cell := alike.lineTransactions
  queue entityID limit offset := by rw [reviewGroups, reviewGroups, alike.waiting]
  group entityID key := by rw [reviewGroupRows, reviewGroupRows, alike.waiting]
  page := alike.unclassifiedTransactions
  context site := (alike.requestContext site).bind_fst Except.ok

end Alike

end Vekst.Review
