import Vekst.Proof.Ingest.Duplicates
import Vekst.Proof.Ledger.OneLive
import Vekst.Proof.Reports.Agreement

namespace Vekst.Reports
open Isolation Ledger Relational Wrapping Dedup

/-! ## What is behind a figure of the table -/

/-- The category files its transactions in a section of the table. -/
def onTable (cat : CategoryRow) : Bool :=
  cat.code ≠ "" && cat.isPNL && !cat.requiresAllocation && decide (cat.pnlSection ∈ sections)

/-- The transactions whose amounts a section's figure in a column adds up. -/
def sectionRows (d : Database) (req : Request) (args : Args) (period code : String) :
    List TransactionRow :=
  ((classifiedRows d args).filter fun row =>
    decide (labelled req.granularity (toCharMonth row.1.1.bookedOn) = .ok period) &&
      onTable row.2 && decide (row.2.pnlSection = code)).map (·.1.1)

/-- A transaction behind a figure has a live classification on the table. -/
theorem mem_sectionRows {d : Database} {req : Request} {args : Args} {period code : String}
    {t : TransactionRow} (member : t ∈ sectionRows d req args period code) :
    ∃ c ∈ d.classifications, c.transactionID = t.id ∧ c.live ∧
      ∃ cat ∈ d.categories, cat.id = c.categoryID ∧ onTable cat := by
  obtain ⟨⟨⟨t, c⟩, cat⟩, kept, rfl⟩ := List.mem_map.mp member
  obtain ⟨joined, tests⟩ := List.mem_filter.mp kept
  simp only [Bool.and_eq_true, decide_eq_true_eq] at tests
  obtain ⟨classified, stored, named⟩ := mem_innerJoin.mp joined
  obtain ⟨-, known, live⟩ := mem_innerJoin.mp classified
  simp only [liveFor, Bool.and_eq_true, decide_eq_true_eq] at live named
  exact ⟨c, known, live.1, live.2, cat, stored, named, tests.1.2⟩

theorem place_eq_section {spec : Spec} {row : Row} {code : String} :
    place spec row = .ok (.sectionLine code) ↔ row.sourceKind = spec.basis ∧
      row.categoryCode ≠ "" ∧ row.isPNL = true ∧ row.requiresAllocation = false ∧
      row.pnlSection ∈ sections ∧ row.pnlSection = code := by
  unfold place
  split_ifs <;> simp_all

theorem exactCell_eq_sectionRows {d : Database} {req : Request} {args : Args} {spec : Spec}
    {lines totals others : List Row} (basis : spec.basis = req.basis)
    (rows : RowsOf d req args lines totals others) (period code : String) :
    exactCell (lines ++ totals ++ others) spec (.sectionLine code) period =
      exactSum (sectionRows d req args period code) := by
  obtain ⟨reported, queried, translated⟩ := rows.lines
  obtain ⟨unclassified, -, totalled⟩ := rows.totals
  obtain ⟨evidence, -, otherwise⟩ := rows.others
  have bucketed {kind : Basis} {out : List Row} {sums : List PeriodTotal}
      (made : sums.mapM (totalRow req d.baseCurrency kind) = .ok out) :
      (out.map (rowShare spec period (.sectionLine code))).sum = 0 := by
    apply List.sum_eq_zero
    intro part member
    obtain ⟨row, known, rfl⟩ := List.mem_map.mp member
    obtain ⟨u, -, success⟩ := mem_of_mapM made known
    unfold totalRow at success
    cases label : labelled req.granularity u.period with
    | error e => simp [label, Except.map] at success
    | ok text =>
        obtain rfl := by simpa [label, Except.map] using success
        simp [rowShare, place_eq_section]
  let keep (k : ReportKey) : Bool :=
    decide (labelled req.granularity k.period = .ok period) && (decide (k.categoryCode ≠ "") &&
      k.isPNL && !k.requiresAllocation && decide (k.pnlSection ∈ sections)) &&
      decide (k.pnlSection = code)
  rw [exactCell_eq_sum, List.map_append, List.map_append, List.sum_append, List.sum_append,
    bucketed totalled, bucketed otherwise, add_zero, add_zero,
    sum_mapM translated (rowShare spec period (.sectionLine code)) fun l =>
      if keep l.key then l.amountMinor.toInt else 0, sum_reportLines queried keep, exactSum,
    sectionRows, List.map_map, sum_filter]
  · rfl
  · intro l _ row success
    unfold lineRow at success
    cases label : labelled req.granularity l.key.period with
    | error e => simp [label, Except.map] at success
    | ok text =>
        obtain rfl := by simpa [label, Except.map] using success
        simp [rowShare, keep, place_eq_section, label, basis, and_assoc]

/-! ## The table without transfers -/

/-- A column of the table in which no figure holds money moved between own accounts. -/
structure Untransferred (d : Database) (req : Request) (args : Args) (report : Report) (i : Nat)
    (period : String) : Prop where
  sectionFigure : ∀ code ∈ sections,
    report.storedAt code i = Int64.ofInt (exactSum (sectionRows d req args period code))
  excluded : ∀ code ∈ sections, ∀ t ∈ sectionRows d req args period code,
    activeTransfers d t.id = []
  computed : ∀ line ∈ chain, report.storedAt line.code i =
    ((sectionsBefore line.code).map fun code => report.storedAt code i).sum

/-- Nothing that is paired is classified onto the table. -/
def Separate (d : Database) : Prop :=
  ∀ c ∈ d.classifications, c.live → (∃ cat ∈ d.categories, cat.id = c.categoryID ∧ onTable cat) →
    activeTransfers d c.transactionID = []

theorem untransferred_of_separate {d : Database} (separate : Separate d) {userID : UUID}
    {req : Request} {report : Report} (success : managementPNL userID req d = .ok report) :
    ∃ prep, prepare req = .ok prep ∧ ∀ i (inside : i < report.spec.periods.length),
      Untransferred d req (prep.args req) report i report.spec.periods[i] := by
  obtain ⟨prep, lines, totals, others, spec, prepared, rows, basis, columns, computed, succeeded,
    same⟩ := managementPNL_ok success
  obtain ⟨-, -, listed⟩ := prepare_ok prepared
  have distinct : spec.periods.Nodup := columns ▸ nodup_periods listed
  obtain ⟨-, -, tally, folded, rfl⟩ := compute_ok_iff.mp succeeded
  rw [same]
  refine ⟨prep, prepared, fun i inside => ?_⟩
  have sectionFigure : ∀ code ∈ sections, (assemble spec tally).storedAt code i =
      tally.sums code ⟨i, inside⟩ := fun code known => storedAt_section spec tally known ⟨i, inside⟩
  refine ⟨fun code known => ?_, fun code _ t member => ?_, fun line known => ?_⟩
  · rw [← exactCell_eq_sectionRows basis rows]
    exact (sectionFigure code known).trans
      (cell_eq_exact distinct folded (.sectionLine code) ⟨i, inside⟩)
  · obtain ⟨c, stored, own, live, filed⟩ := mem_sectionRows member
    exact own ▸ separate c stored live filed
  · have onSections : ∀ code ∈ sectionsBefore line.code,
        (assemble spec tally).storedAt code i = tally.sums code ⟨i, inside⟩ := fun code before =>
      sectionFigure code (of_decide_eq_true (List.mem_filter.mp before).2)
    have figure := storedAt_computed spec tally known ⟨i, inside⟩
    rw [computedSeries_eq tally.sums known, ← List.map_congr_left onSections] at figure
    exact figure

/-! ## Every run -/

/-- The write pairs no transaction that is classified onto the table, and classifies onto it none
that is paired. -/
def ApartIn (after : Database) : Write → Prop
  | .insertTransfer it => ∀ m ∈ after.transferMembers, m.transferID = it.id →
      ∀ c ∈ after.classifications, c.transactionID = m.txnID → c.live →
        ∀ cat ∈ after.categories, cat.id = c.categoryID → onTable cat = false
  | .insertClassification c => activeTransfers after c.transactionID = [] ∨
      ∀ cat ∈ after.categories, cat.id = c.categoryID → onTable cat = false
  | _ => True

instance (after : Database) (w : Write) : Decidable (ApartIn after w) := by
  cases w <;> unfold ApartIn <;> infer_instance

/-- In the state a commit leaves, each of its writes keeps transfers and the table apart. -/
def TransfersApart : System → Nat → Prop := fun sys i =>
  ∀ w ∈ sys.writesOf i, ApartIn (visible sys.committed (sys.writesOf i)) w

instance (sys : System) (i : Nat) : Decidable (TransfersApart sys i) :=
  inferInstanceAs (Decidable (∀ w ∈ _, ApartIn _ w))

/-- Members come with their pair, a pair is updated to be dismissed, and a classification to end. -/
structure Tidy (pending : List Write) : Prop where
  members : ∀ m, .insertTransferMember m ∈ pending →
    ∃ it, .insertTransfer it ∈ pending ∧ it.id = m.transferID
  dismissed : ∀ it, .updateTransfer it ∈ pending → it.dismissedAt.isSome
  retiring : Retiring pending

theorem Tidy.written {currencies : String → Prop} {sha256 : String → String} {d : Database}
    {pending writes : List Write} (tidy : Tidy pending)
    (lawful : Lawful currencies sha256 pending d writes) : Tidy (pending ++ writes) := by
  refine ⟨fun m member => ?_, fun it member => ?_,
    retiring_append tidy.retiring (retiring_of_lawful lawful)⟩
  · rcases List.mem_append.mp member with old | new
    · obtain ⟨it, known, same⟩ := tidy.members m old
      exact ⟨it, List.mem_append_left _ known, same⟩
    · rcases lawful with ordinary | ⟨row, rfl, -⟩
      · obtain ⟨it, known, same⟩ := ordinary _ new
        exact ⟨it, List.mem_append_right _ known, same⟩
      · simp at new
  · rcases List.mem_append.mp member with old | new
    · exact tidy.dismissed it old
    · rcases lawful with ordinary | ⟨row, rfl, -⟩
      · exact ordinary _ new
      · simp at new

theorem activeTransfers_ne_nil {d : Database} {txnID : UUID} :
    activeTransfers d txnID ≠ [] ↔ ∃ it ∈ d.transfers, it.dismissedAt = none ∧
      ∃ m ∈ d.transferMembers, m.transferID = it.id ∧ m.txnID = txnID := by
  rw [activeTransfers, ne_eq, List.filter_eq_nil_iff]
  simp

/-- A commit that keeps transfers and the table apart leaves them apart. -/
theorem Separate.published {sys : System} {i : Nat} (separate : Separate sys.committed)
    (tidy : Tidy (sys.writesOf i)) (apart : TransfersApart sys i) :
    Separate (visible sys.committed (sys.writesOf i)) := by
  intro c member live filed
  by_contra active
  obtain ⟨it, pair, undismissed, m, belongs, same, own⟩ := activeTransfers_ne_nil.mp active
  obtain ⟨cat, stored, named, onto⟩ := filed
  -- A pair the commit makes is refused by the classification, whichever came first.
  have unpaired : ∀ new : InternalTransferRow, .insertTransfer new ∈ sys.writesOf i →
      m.transferID ≠ new.id := by
    intro new made matching
    have off := apart _ made m belongs matching c member own.symm live cat stored named
    rw [onto] at off
    cases off
  have oldPair : it ∈ sys.committed.transfers := by
    rcases mem_visible_transfers pair with old | ⟨_, made, rfl | rfl⟩
    · exact old
    · exact absurd same (unpaired it made)
    · have ended := tidy.dismissed it made
      simp [undismissed] at ended
  have oldMember : m ∈ sys.committed.transferMembers := by
    rcases mem_visible_transferMembers belongs with old | ⟨_, made, rfl⟩
    · exact old
    · obtain ⟨new, inserted, matching⟩ := tidy.members m made
      exact absurd matching.symm (unpaired new inserted)
  have before : activeTransfers sys.committed c.transactionID ≠ [] :=
    activeTransfers_ne_nil.mpr ⟨it, oldPair, undismissed, m, oldMember, same, own⟩
  rcases mem_visible_classifications member with old | ⟨_, made, rfl | rfl⟩
  · rw [visible_categories] at stored
    exact before (separate c old live ⟨cat, stored, named, onto⟩)
  · rcases apart _ made with free | off
    · exact active free
    · rw [off cat stored named] at onto
      cases onto
  · rw [tidy.retiring c made] at live
    cases live

theorem separate_carries (site : Site) :
    Carries (rules site fun _ => True) (AtPublish TransfersApart : System → Event → Prop)
      Separate fun _ pending _ => Tidy pending where
  opened d _ := ⟨by simp, by simp, fun _ member => by simp at member⟩
  written d pending writes _ tidy lawful := tidy.written lawful
  passed d pending _ tidy _ := tidy
  published sys i client apart found separate tidy := by
    rw [← System.writesOf_eq found] at tidy ⊢
    exact separate.published tidy apart
  unmoved sys i client other _ _ _ _ _ held := held

/-- While no commit pairs a transaction of the table or files a paired one onto it, no section and
no computed line of any report holds the amount of a member of an undismissed pair. -/
theorem transfers_never_reach_the_table {site : Site} {d : Database} {sys : System}
    (initially : Separate d) (run : Run (body site) (AtPublish TransfersApart) (System.idle d) sys)
    {userID : UUID} {req : Request} {report : Report}
    (success : managementPNL userID req sys.committed = .ok report) :
    ∃ prep, prepare req = .ok prep ∧ ∀ i (inside : i < report.spec.periods.length),
      Untransferred sys.committed req (prep.args req) report i report.spec.periods[i] := by
  have separate : Separate sys.committed :=
    (Run.carries (separate_carries site) (fun label _ => body_keeps label)
      (fun _ event _ => rules_admit event) run rfl initially).1
  exact untransferred_of_separate separate success

/-! ## Both legs of a transfer between own accounts -/

/-- The outgoing leg is stored; the batch with the incoming one is about to be imported. -/
def transferLedger : Database :=
  { emptyLedger with
    members := [⟨7, .viewer⟩]
    accounts := emptyLedger.accounts ++ [⟨2, 1, "deposit", "BYN", some "BY02"⟩]
    batches := emptyLedger.batches ++ [⟨2, 1, .bank, .imported, some "other", none⟩]
    transactions := [{ sampleTransaction 9 .bank january.firstDay (-120000) with
      accountID := 2
      batchID := 2
      bookedOn := sampleDay 14 }]
    categories := [sampleCategory 1 "0101" netSales,
      { sampleCategory 2 "09" outOfPNL with isPNL := false }] }

/-- The import, which pairs the legs, and a classification of the incoming one. -/
def pairedEvents (code : String) : List Event :=
  deliveryEvents 0 ++ [.exec 0, .exec 0, .exec 0, .check 0, .publish 0] ++
    chunkEvents 1 120 code ++ [.check 1, .publish 1]

theorem transfers_never_reach_the_table_sample :
    ∃ sys report, Run (body sampleSite) (AtPublish TransfersApart) (System.idle transferLedger) sys ∧
      activeTransfers sys.committed 120 ≠ [] ∧
      managementPNL 7 sampleRequest sys.committed = .ok report ∧
      ∃ prep, prepare sampleRequest = .ok prep ∧ ∀ i (inside : i < report.spec.periods.length),
        Untransferred sys.committed sampleRequest (prep.args sampleRequest) report i
          report.spec.periods[i] := by
  have evaluated : (fireAll (body sampleSite) (System.idle transferLedger) (pairedEvents "09")).map
      (fun sys => decide (activeTransfers sys.committed 120 ≠ []) &&
        (managementPNL 7 sampleRequest sys.committed).isOk) = some true := by decide +kernel
  obtain ⟨sys, fired, both⟩ := Option.map_eq_some_iff.mp evaluated
  obtain ⟨paired, succeeds⟩ := Bool.and_eq_true_iff.mp both
  have run : Run (body sampleSite) (AtPublish TransfersApart) (System.idle transferLedger) sys :=
    Run.of_fireAll (by decide +kernel) fired
  have separate : Separate transferLedger := fun c member => nomatch member
  cases success : managementPNL 7 sampleRequest sys.committed with
  | error e => simp [success, Except.isOk, Except.toBool] at succeeds
  | ok report =>
      exact ⟨sys, report, run, of_decide_eq_true paired, success,
        transfers_never_reach_the_table separate run success⟩

/-- The incoming leg filed under sales. -/
theorem transfer_reported_as_sales :
    ¬ ∀ sys, Run (body sampleSite) (fun _ _ => True) (System.idle transferLedger) sys →
      ∀ report, managementPNL 7 sampleRequest sys.committed = .ok report →
        ∀ prep, prepare sampleRequest = .ok prep → ∀ i (inside : i < report.spec.periods.length),
          Untransferred sys.committed sampleRequest (prep.args sampleRequest) report i
            report.spec.periods[i] := by
  intro claimed
  let prep : Prepared := ⟨january.firstDay, february.lastDay, ["2026-Q1"]⟩
  have prepared : prepare sampleRequest = .ok prep := by decide +kernel
  have evaluated : (fireAll (body sampleSite) (System.idle transferLedger) (pairedEvents "0101")).map
      (fun sys : System => decide ((managementPNL 7 sampleRequest sys.committed).map
          (·.spec.periods) = .ok ["2026-Q1"]) &&
        decide (∃ t ∈ sectionRows sys.committed sampleRequest (prep.args sampleRequest) "2026-Q1"
          netSales, activeTransfers sys.committed t.id ≠ [])) = some true := by decide +kernel
  obtain ⟨sys, fired, both⟩ := Option.map_eq_some_iff.mp evaluated
  obtain ⟨columns, sold⟩ := Bool.and_eq_true_iff.mp both
  have run := Run.of_fireAll (admitsAll fun _ _ => trivial) fired
  cases success : managementPNL 7 sampleRequest sys.committed with
  | error e => simp [success, Except.map] at columns
  | ok report =>
      have listed : report.spec.periods = ["2026-Q1"] := by
        simpa [success, Except.map] using columns
      obtain ⟨t, behind, paired⟩ := of_decide_eq_true sold
      have column := claimed sys run report success prep prepared 0 (by simp [listed])
      simp only [listed, List.getElem_cons_zero] at column
      exact paired (column.excluded netSales (by decide) t behind)

end Vekst.Reports
