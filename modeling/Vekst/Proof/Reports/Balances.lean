import Vekst.Proof.Classify.Frame
import Vekst.Proof.Ingest.Booked
import Vekst.Proof.Review.Moved

namespace Vekst.Reports
open Calendar Isolation Ledger Relational Review
open Ingest (Passed Whole Books SetsAside Entered)

/-! ## From the statements of the bank to the books -/

/-- The object of a batch is read as its statement, or not at all. -/
def Reading (file : UUID → Ingest.Priorbank.Statement)
    (around : Surroundings Vekst.Failure Question Reply) : Prop :=
  ∀ batchID st, around.answers (.object batchID) (.statement (some st)) →
    st = (file batchID).stored

/-- Imports, classification runs, resolutions and undos one at a time, whatever fails in them, and
the states left before the last. -/
inductive Handled (site : Site) (file : UUID → Ingest.Priorbank.Statement) (start : Database) :
    Database → List Database → Prop
  | start : Handled site file start start []
  | call {d last : Database} {earlier : List Database} {label : Label}
      {around : Surroundings Vekst.Failure Question Reply} {asked : List Question}
      {result : Option Outcome} (run : Handled site file start d earlier) (called : Called label)
      (reads : Reading file around)
      (did : Solo (body site) around (body site label) d [] asked result last) :
      Handled site file start last (d :: earlier)

/-- A database with categories and nothing imported, whose validated batches passed validation. -/
structure Opened (file : UUID → Ingest.Priorbank.Statement) (start : Database) : Prop extends
    Unused start where
  skips : start.dedupSkips = []
  batches : (start.batches.map (·.id)).Nodup
  waiting : ∀ b ∈ start.batches, b.status ≠ .imported ∧
    (b.status = .validated → Passed (file b.id))
  categories : (start.categories.map (·.id)).Nodup
  codes : ∀ cat ∈ start.categories, cat.code ≠ ""

/-- Every answer names a category that is there. -/
def Named (d : Database) : Prop := ∀ c ∈ d.classifications, ∃ cat ∈ d.categories, cat.id = c.categoryID

/-- What a run keeps. -/
structure Keeping (file : UUID → Ingest.Priorbank.Statement) (start d : Database) : Prop where
  entered : Entered file d
  named : Named d
  categories : d.categories = start.categories

section Runs

variable {site : Site} {file : UUID → Ingest.Priorbank.Statement} {start d last : Database}
  {earlier : List Database} {draws : Draws} {userID entityID decisionID batchID : UUID}
  {key outcome categoryCode : String} {around : Surroundings Vekst.Failure Question Reply}
  {asked : List Question} {result : Option Outcome}

theorem Handled.sequential (run : Handled site file start d earlier) :
    Sequential site start d earlier := by
  induction run with
  | start => exact .start
  | call _ called _ did ih => exact .call ih called did

theorem keeping_opened (opened : Opened file start) : Keeping file start start := by
  refine ⟨⟨opened.batches, ?_, ?_, fun b member => (opened.waiting b member).2, ?_⟩, ?_, rfl⟩
  · simp [opened.transactions]
  · simp [opened.skips]
  · exact fun b member imported => absurd imported (opened.waiting b member).1
  · simp [Named, opened.classifications]

theorem Keeping.framed (keeping : Keeping file start d) (framed : Framed d last)
    (named : Named last) : Keeping file start last := by
  obtain ⟨_, _, _, rfl⟩ := framed
  exact ⟨keeping.entered.same rfl ⟨rfl, rfl⟩, named, keeping.categories⟩

theorem Keeping.resolved (keeping : Keeping file start d) (did : Solo (body site) around
    (body site (.resolve userID entityID key outcome categoryCode draws)) d [] asked result last) :
    Keeping file start last := by
  rcases solo_resolve did with ⟨-, checked, returned⟩ | ⟨rfl, -⟩
  · cases returned with
    | unchanged left _ => exact left ▸ keeping
    | committed ran _ left _ =>
        have ran := Prog.run_of_attempt ran
        rw [← left] at ran
        by_cases skipped : outcome = outcomeSkipped
        · subst skipped
          obtain ⟨-, -, rfl⟩ := run_resolveRows_skipped ran
          exact keeping.framed ⟨_, _, _, rfl⟩ keeping.named
        · obtain ⟨category, -, -, answered⟩ := Review.answered_of_run skipped checked ran
          refine keeping.framed answered.frame fun c member => ?_
          rw [answered.categories]
          rw [answered.classified] at member
          rcases List.mem_append.mp member with old | new
          · exact keeping.named c old
          · obtain ⟨_, _, rfl⟩ := List.mem_map.mp new
            exact ⟨category, answered.known, rfl⟩
  · exact keeping

theorem Keeping.undone {wrote : UUID → UUID → Prop} (keeping : Keeping file start d)
    (kept : Kept wrote d) (did : Solo (body site) around (body site (.undo userID decisionID draws)) d
      [] asked result last) : Keeping file start last := by
  rcases solo_undo did with ⟨-, returned⟩ | ⟨rfl, -⟩
  · cases returned with
    | unchanged left _ => exact left ▸ keeping
    | committed ran _ left _ =>
        have ran := Prog.run_of_attempt ran
        rw [← left] at ran
        obtain ⟨x, undone⟩ := (run_undoDecision_ok kept.classifications kept.decisions).mp ⟨_, ran⟩
        rw [undone.left]
        refine keeping.framed ⟨_, _, _, rfl⟩ fun c member => ?_
        obtain ⟨old, known, rfl⟩ := List.mem_map.mp member
        obtain ⟨cat, there, same⟩ := keeping.named old known
        refine ⟨cat, there, same.trans ?_⟩
        rw [retractOf]
        split <;> rfl
  · exact keeping

theorem Keeping.classified (keeping : Keeping file start d) (did : Solo (body site) around
    (body site (.classifyBatch batchID draws)) d [] asked result last) : Keeping file start last := by
  obtain ⟨runs, added, rfl, known⟩ := Classify.supplements_of_solo did
  refine ⟨keeping.entered.same rfl ⟨rfl, rfl⟩, fun c member => ?_, keeping.categories⟩
  rcases List.mem_append.mp member with old | new
  · exact keeping.named c old
  · exact known c new

theorem Keeping.persisted (keeping : Keeping file start d) (reads : Reading file around)
    (did : Solo (body site) around (body site (.persistImport batchID draws)) d [] asked result last) :
    Keeping file start last := by
  have persisted := Ingest.persisted_of_solo did
  have entered := keeping.entered.persisted reads persisted
  obtain ⟨categories, classifications⟩ : last.categories = d.categories ∧
      last.classifications = d.classifications := by
    cases persisted with
    | unchanged => exact ⟨rfl, rfl⟩
    | failed => exact ⟨rfl, rfl⟩
    | stored _ _ _ ran =>
        have reshaped := Ingest.reshaped_persistRows ran
        exact ⟨reshaped.categories, reshaped.classifications⟩
  refine ⟨entered, ?_, categories.trans keeping.categories⟩
  rw [Named, classifications, categories]
  exact keeping.named

theorem handled_keeps (opened : Opened file start) (run : Handled site file start d earlier) :
    Keeping file start d := by
  induction run with
  | start => exact keeping_opened opened
  | @call d last earlier label around asked result run called reads did ih =>
      cases label with
      | persistImport batchID draws => exact ih.persisted reads did
      | classifyBatch batchID draws => exact ih.classified did
      | resolve userID entityID key outcome categoryCode draws => exact ih.resolved did
      | undo userID decisionID draws =>
          exact ih.undone (sequential_keeps opened.toUnused run.sequential).1 did
      | _ => exact absurd called id

/-- The answers of a run are fit to be reported. -/
theorem classified_of_handled (opened : Opened file start) (run : Handled site file start d earlier) :
    Classified d := by
  have keeping := handled_keeps opened run
  have sound := (sequential_keeps opened.toUnused run.sequential).2
  refine ⟨fun t _ => sound t.id, fun c member _ => keeping.named c member, ?_, ?_⟩
  · exact keeping.categories ▸ opened.categories
  · exact fun _ _ _ cat known _ => opened.codes cat (keeping.categories ▸ known)

end Runs

/-! ## From the books to the bottom line -/

/-- The imported statements of an entity. -/
def importedOf (d : Database) (entityID : UUID) : List ImportBatchRow :=
  d.batches.filter fun b => b.status = .imported ∧ b.entityID = entityID

/-- The rows of a statement that its batch left out as stored before, as its skips name them. -/
structure LeftOut (file : UUID → Ingest.Priorbank.Statement) (d : Database) (b : ImportBatchRow)
    (rows : List Ingest.Priorbank.Row) : Prop where
  own : rows.Sublist (file b.id).rows
  named : List.Forall₂ (SetsAside b.id) rows (d.dedupSkips.filter (·.batchID = b.id))

section Books

variable {file : UUID → Ingest.Priorbank.Statement} {d : Database} {b : ImportBatchRow}
  {entityID : UUID} {req : Request} {first last : Month}

/-- What a statement moves is on the books of its batch or was left out. -/
theorem movements_of_whole (whole : Whole (file b.id) b d) : ∃ rows, LeftOut file d b rows ∧
    ((d.transactions.filter (·.batchID = b.id)).map (·.amount)).sum +
        (rows.map Ingest.Priorbank.signedAmount).sum =
      Ingest.Priorbank.movements (file b.id) := by
  obtain ⟨kept, dropped, apart, fewer, booked, aside⟩ := whole
  have amounts := map_eq_of_forall₂ (booked.imp fun r t books => books.amount)
  refine ⟨dropped, ⟨fewer, aside⟩, ?_⟩
  rw [amounts, ← List.sum_append, ← List.map_append]
  exact ((apart.map _).sum_eq).symm

/-- The transactions of an entity, statement by statement. -/
theorem sum_importedOf (entered : Entered file d)
    (within : ∀ t ∈ d.transactions, t.entityID = req.entityID →
      first ≤ t.bookedOn.toMonth ∧ t.bookedOn.toMonth ≤ last) :
    ((d.transactions.filter (inReport req first last)).map (·.amount)).sum =
      ((importedOf d req.entityID).map fun b =>
        ((d.transactions.filter (·.batchID = b.id)).map (·.amount)).sum).sum := by
  have apart : ((importedOf d req.entityID).map (·.id)).Nodup :=
    entered.keyed.sublist (List.filter_sublist.map _)
  have owner : ∀ t ∈ d.transactions.filter (inReport req first last),
      t.batchID ∈ (importedOf d req.entityID).map (·.id) := by
    intro t member
    obtain ⟨stored, asked⟩ := List.mem_filter.mp member
    obtain ⟨entity, -⟩ := of_decide_eq_true asked
    obtain ⟨b, known, own, same, imported⟩ := entered.owned t stored
    refine List.mem_map.mpr ⟨b, List.mem_filter.mpr ⟨known, ?_⟩, own⟩
    exact decide_eq_true ⟨imported, same.trans entity⟩
  rw [← sum_groupSum (fun t : TransactionRow => t.batchID) TransactionRow.amount _ apart _ owner,
    List.map_map]
  apply congrArg
  apply List.map_congr_left
  intro b member
  obtain ⟨known, asked⟩ := List.mem_filter.mp member
  obtain ⟨-, entity⟩ := of_decide_eq_true asked
  rw [Function.comp_apply, groupSum, List.filter_filter]
  congr 2
  apply List.filter_congr
  intro t stored
  have covered : t.batchID = b.id → inReport req first last t = true := by
    intro own
    obtain ⟨b', known', own', same, -⟩ := entered.owned t stored
    obtain rfl := List.inj_on_of_nodup_map entered.keyed known' known (own'.trans own)
    have asked : t.entityID = req.entityID := same.symm.trans entity
    exact decide_eq_true ⟨asked, within t stored asked⟩
  by_cases own : t.batchID = b.id
  · simp [own, covered own]
  · simp [own]

end Books

/-- However statements are imported, classified, resolved and undone, the bottom line of a report
over all their months is what they move, less the rows left out as stored before; where the bank's
balances reconcile and nothing was left out, it is the closing balances less the opening ones. -/
theorem bottom_line_balances {site : Site} {file : UUID → Ingest.Priorbank.Statement}
    {start d : Database} {earlier : List Database} {reader : UUID} {req : Request}
    {first last : Month} {report : Report} (opened : Opened file start)
    (run : Handled site file start d earlier) (asks : req.Asks first last)
    (success : managementPNL reader req d = .ok report)
    (within : ∀ t ∈ d.transactions, t.entityID = req.entityID →
      first ≤ t.bookedOn.toMonth ∧ t.bookedOn.toMonth ≤ last) :
    (∃ leftOut, List.Forall₂ (LeftOut file d) (importedOf d req.entityID) leftOut ∧
      report.bottomLine + (leftOut.map fun rows =>
          (rows.map Ingest.Priorbank.signedAmount).sum).sum =
        ((importedOf d req.entityID).map fun b => Ingest.Priorbank.movements (file b.id)).sum) ∧
    ((∀ b ∈ importedOf d req.entityID, (∀ s ∈ d.dedupSkips, s.batchID ≠ b.id) ∧
        ∃ difference, Ingest.Priorbank.balanceCheck (file b.id) = some (true, difference)) →
      report.bottomLine = ((importedOf d req.entityID).map fun b =>
        (file b.id).closing.minorUnits - (file b.id).opening.minorUnits).sum) := by
  have entered := (handled_keeps opened run).entered
  have total := bottomLine_of_success (classified_of_handled opened run) asks success
  rw [sum_importedOf entered within] at total
  have each : ∀ b ∈ importedOf d req.entityID, ∃ rows, LeftOut file d b rows ∧
      ((d.transactions.filter (·.batchID = b.id)).map (·.amount)).sum +
          (rows.map Ingest.Priorbank.signedAmount).sum =
        Ingest.Priorbank.movements (file b.id) := by
    intro b member
    obtain ⟨known, asked⟩ := List.mem_filter.mp member
    exact movements_of_whole (entered.imported b known (of_decide_eq_true asked).1).2
  constructor
  · obtain ⟨leftOut, matched⟩ := exists_forall₂ each
    refine ⟨leftOut, matched.imp fun b rows made => made.1, ?_⟩
    rw [total]
    exact sum_of_forall₂ (matched.imp fun b rows made => made.2)
  · intro reconciled
    rw [total]
    apply congrArg
    apply List.map_congr_left
    intro b member
    obtain ⟨rows, left, moved⟩ := each b member
    obtain ⟨nothing, difference, balanced⟩ := reconciled b member
    have none_ : d.dedupSkips.filter (·.batchID = b.id) = [] := by
      simpa [List.filter_eq_nil_iff] using nothing
    have named := left.named
    rw [none_, List.forall₂_nil_right_iff] at named
    rw [named, List.map_nil, List.sum_nil, add_zero] at moved
    rw [moved, ← Ingest.Priorbank.closing_of_balanceCheck balanced]
    exact (add_sub_cancel_left _ _).symm

/-! ## A statement imported and settled -/

/-- A validated batch, an approver and a category of sales. -/
def openedLedger : Database :=
  { emptyLedger with
    members := [⟨7, .approver⟩]
    categories := [sampleCategory 1 "0101" "01"] }

/-- Every object is the balanced statement, of the account on file. -/
def sampleFile (_ : UUID) : Ingest.Priorbank.Statement :=
  { Ingest.Priorbank.sampleBalanced with account := "BY01".toList }

/-- Nothing fails, and the objects are read as the statements. -/
def sampleReading : Surroundings Vekst.Failure Question Reply where
  answers request reply := ∃ batchID, request = .object batchID ∧
    reply = .statement (some (sampleFile batchID).stored)
  lost _ := False
  crashes := False

theorem reading_sample : Reading sampleFile sampleReading := by
  rintro batchID st ⟨_, same, answer⟩
  obtain rfl := Question.object.inj same
  exact Option.some.inj (Reply.statement.inj answer)

def quarterRequest : Request where
  entityID := 1
  fromMonth := "2024-01"
  toMonth := "2024-03"
  granularity := .quarterly
  basis := .bank

def january2024 : Month := ⟨2024, 1, Month.january_valid⟩

def march2024 : Month := ⟨2024, 3, by decide⟩

theorem opened_sample : Opened sampleFile openedLedger := by
  refine ⟨⟨rfl, rfl, rfl, rfl⟩, rfl, List.nodup_singleton _, fun b member => ?_,
    List.nodup_singleton _, by decide⟩
  obtain rfl := List.mem_singleton.mp member
  refine ⟨by decide, fun _ => ⟨Ingest.Priorbank.monthFirst, Ingest.Priorbank.sampleNow, none, ?_⟩⟩
  decide +kernel

/-- The import, the resolution of its one group as sales, and the report of the quarter then. -/
theorem handled_sample : ∃ d earlier report, Handled sampleSite sampleFile openedLedger d earlier ∧
    managementPNL 7 quarterRequest d = .ok report ∧ d.dedupSkips = [] ∧
    report.storedAt netSales 0 = 600 ∧ (importedOf d 1).map (·.id) = [1] ∧
    ∀ t ∈ d.transactions, january2024 ≤ t.bookedOn.toMonth ∧ t.bookedOn.toMonth ≤ march2024 := by
  let batch : ImportBatchRow := ⟨1, 1, .bank, .validated, some "file", none⟩
  have evaluated : (do
      let (_, stored) ← ((Ingest.persistRows sampleSite (sampleDraws 100) batch
        (sampleFile 1).stored).attempt openedLedger []).toOption
      let d := visible openedLedger stored
      let (_, writes) ← ((resolveRows sampleSite (sampleDraws 200) 7 1 "" outcomeCategorised
        "0101").attempt d []).toOption
      let e := visible d writes
      let report ← (managementPNL 7 quarterRequest e).toOption
      return decide (Store.check d stored = .ok ()) && decide (Store.check e writes = .ok ()) &&
        decide (d.members = [⟨7, .approver⟩]) && decide (e.dedupSkips = []) &&
        decide (report.storedAt netSales 0 = 600) && decide ((importedOf e 1).map (·.id) = [1]) &&
        decide (∀ t ∈ e.transactions,
          january2024 ≤ t.bookedOn.toMonth ∧ t.bookedOn.toMonth ≤ march2024)) = some true := by
    decide +kernel
  obtain ⟨⟨_, stored⟩, did, rest⟩ := Option.bind_eq_some_iff.mp evaluated
  obtain ⟨⟨_, writes⟩, resolved, rest⟩ := Option.bind_eq_some_iff.mp rest
  obtain ⟨report, reported, held⟩ := Option.bind_eq_some_iff.mp rest
  have facts := Option.some.inj held
  simp only [Bool.and_eq_true, decide_eq_true_eq] at facts
  obtain ⟨⟨⟨⟨⟨⟨passes, passes'⟩, members⟩, skips⟩, sales⟩, imported⟩, months⟩ := facts
  have import_ : Solo (body sampleSite) sampleReading
      (body sampleSite (.persistImport 1 (sampleDraws 100))) openedLedger [] [.object 1]
      (some (.ok .done)) (visible openedLedger stored) := by
    have read : (Prog.query (Ingest.getImportBatch · 1) : Tx _).attempt openedLedger [] =
        .ok (batch, []) := rfl
    refine solo_inTx_of_ok read rfl ?_
    have validated : ¬ batch.status ≠ .validated := fun other => other rfl
    show Solo _ _ (Ingest.persistBatch sampleSite (sampleDraws 100) batch) _ _ _ _ _
    rw [Ingest.persistBatch, if_neg validated]
    exact .answer ⟨1, rfl, rfl⟩ (solo_inTx_of_ok (Prog.attempt_of_toOption did) passes .done)
  have allowed : MayResolve (visible openedLedger stored) 7 :=
    ⟨⟨7, .approver⟩, by rw [members]; rfl, rfl⟩
  have checked : checkOutcome outcomeCategorised "0101" = .ok () := rfl
  have settle := @solo_resolve_of sampleSite (visible openedLedger stored) (sampleDraws 200) 7 1 ""
    "0101" sampleReading outcomeCategorised _ writes allowed checked
    (Prog.attempt_of_toOption resolved) passes'
  have called : Called (.persistImport 1 (sampleDraws 100)) := trivial
  have called' : Called (.resolve 7 1 "" outcomeCategorised "0101" (sampleDraws 200)) := trivial
  have run : Handled sampleSite sampleFile openedLedger (visible (visible openedLedger stored) writes)
      [visible openedLedger stored, openedLedger] :=
    .call (.call .start called reading_sample import_) called' reading_sample settle
  exact ⟨_, _, report, run, ok_of_toOption reported, skips, sales, imported, months⟩

theorem bottom_line_balances_sample : ∃ d earlier report,
    Handled sampleSite sampleFile openedLedger d earlier ∧
      managementPNL 7 quarterRequest d = .ok report ∧ report.storedAt netSales 0 = 600 ∧
        report.bottomLine = 1600 - 1000 := by
  obtain ⟨d, earlier, report, run, success, skips, sales, imported, months⟩ := handled_sample
  have asks : quarterRequest.Asks january2024 march2024 :=
    ⟨by decide +kernel, by decide +kernel, by decide, by decide, by decide⟩
  obtain ⟨-, reconciled⟩ := bottom_line_balances opened_sample run asks success
    fun t stored _ => months t stored
  refine ⟨d, earlier, report, run, success, sales, ?_⟩
  have balanced : Ingest.Priorbank.balanceCheck (sampleFile 1) = some (true, ⟨"BYN", 0⟩) := by
    decide +kernel
  rw [reconciled fun b member => ⟨by simp [skips], _, balanced⟩]
  obtain ⟨b, one, -⟩ := List.map_eq_singleton_iff.mp imported
  have entity : quarterRequest.entityID = 1 := rfl
  have closing : (sampleFile b.id).closing.minorUnits = 1600 := rfl
  have opening : (sampleFile b.id).opening.minorUnits = 1000 := rfl
  rw [entity, one, List.map_singleton, List.sum_singleton, closing, opening]

end Vekst.Reports
