import Mathlib.Data.Nat.Pairing
import Vekst.Proof.Classify.Chunk
import Vekst.Proof.Ledger.Unclassified
import Vekst.Relational.Keyset

namespace Vekst.Classify
open Isolation Ledger Relational Calendar

/-! ## The rows that wait behind a cursor -/

/-- Transactions are told apart by drawn identifiers. -/
structure Keyed (d : Database) : Prop where
  once : (d.transactions.map (·.id)).Nodup
  drawn : ∀ t ∈ d.transactions, t.id ≠ UUID.zero

def waitingBehind (d : Database) (batchID : UUID) (cursor : Cursor) : List TransactionRow :=
  ((withoutLive d (d.transactions.filter (·.batchID = batchID))).filter cursor.before).insertionSort
    earlier

/-- The cursor that a page leaves behind its last row. -/
def behind (last : TransactionRow) : Cursor := ⟨last.bookedOn, last.id⟩

variable {d d' : Database} {batchID : UUID} {cursor : Cursor} {page more : List TransactionRow}
  {t last : TransactionRow}

theorem unclassifiedTransactions_eq (d : Database) (batchID : UUID) (cursor : Cursor)
    (limit : Nat) :
    unclassifiedTransactions d batchID cursor limit = (waitingBehind d batchID cursor).take limit :=
  rfl

theorem pageSize_pos (site : Site) : 0 < pageSize site := by
  unfold pageSize
  split
  · decide
  · omega

theorem mem_waitingBehind : t ∈ waitingBehind d batchID cursor ↔
    (t ∈ d.transactions ∧ t.batchID = batchID) ∧ unanswered d t ∧ cursor.before t := by
  rw [waitingBehind, withoutLive_eq, List.mem_insertionSort, List.mem_filter, List.mem_filter,
    List.mem_filter, decide_eq_true_eq, and_assoc]

theorem Keyed.eq (keyed : Keyed d) {a b : TransactionRow} (first : a ∈ d.transactions)
    (second : b ∈ d.transactions) (same : a.id = b.id) : a = b :=
  List.inj_on_of_nodup_map keyed.once first second same

theorem Keyed.of_transactions (keyed : Keyed d) (same : d'.transactions = d.transactions) : Keyed d' where
  once := same ▸ keyed.once
  drawn := same ▸ keyed.drawn

theorem before_behind (keyed : Keyed d) (known : last ∈ d.transactions) (stored : t ∈ d.transactions) :
    (behind last).before t ↔ earlier last t ∧ t ≠ last := by
  have drawn := keyed.drawn last known
  unfold behind Cursor.before earlier
  simp only [drawn, decide_false, Bool.false_or, Bool.or_eq_true, Bool.and_eq_true,
    decide_eq_true_eq]
  constructor
  · rintro (less | ⟨same, less⟩)
    · exact ⟨.inl less, fun own => less.ne (own ▸ rfl)⟩
    · exact ⟨.inr ⟨same.symm, less.le⟩, fun own => less.ne (own ▸ rfl)⟩
  · rintro ⟨less | ⟨same, le⟩, other⟩
    · exact .inl less
    · exact .inr ⟨same.symm, lt_of_le_of_ne le fun own => other (keyed.eq stored known own.symm)⟩

theorem before_trans (keyed : Keyed d) (known : last ∈ d.transactions)
    (first : cursor.before last) (second : (behind last).before t) : cursor.before t := by
  have drawn := keyed.drawn last known
  unfold behind Cursor.before at second
  unfold Cursor.before at first ⊢
  simp only [drawn, decide_false, Bool.false_or, Bool.or_eq_true, Bool.and_eq_true,
    decide_eq_true_eq] at first second ⊢
  rcases first with start | less | ⟨same, less⟩
  · exact .inl start
  · rcases second with less' | ⟨same', -⟩
    · exact .inr (.inl (less.trans less'))
    · exact .inr (.inl (same' ▸ less))
  · rcases second with less' | ⟨same', less'⟩
    · exact .inr (.inl (same ▸ less'))
    · exact .inr (.inr ⟨same'.trans same, less.trans less'⟩)

theorem nodup_waitingBehind (keyed : Keyed d) : (waitingBehind d batchID cursor).Nodup := by
  rw [waitingBehind, withoutLive_eq, (List.perm_insertionSort _ _).nodup_iff]
  exact ((keyed.once.of_map.filter _).filter _).filter _

theorem earlier_antisymm (keyed : Keyed d) {a b : TransactionRow} (first : a ∈ d.transactions)
    (second : b ∈ d.transactions) (le : earlier a b) (ge : earlier b a) : a = b := by
  rcases le with less | ⟨same, le⟩
  · rcases ge with more | ⟨same, -⟩
    · exact absurd more less.asymm
    · exact absurd same less.ne'
  · rcases ge with more | ⟨-, ge⟩
    · exact absurd same more.ne'
    · exact keyed.eq first second (le_antisymm le ge)

/-- Behind a page waits what the page left, as long as nothing else was answered meanwhile. -/
theorem waitingBehind_next (keyed : Keyed d) (split_ : waitingBehind d batchID cursor = page ++ more)
    (ends : page.getLast? = some last) (transactions : d'.transactions = d.transactions)
    (untouched : ∀ t ∈ d.transactions, t ∉ page → unanswered d' t = unanswered d t) :
    waitingBehind d' batchID (behind last) = more := by
  have stored {t : TransactionRow} (waits : t ∈ page ++ more) : t ∈ d.transactions :=
    (mem_waitingBehind.mp (split_ ▸ waits)).1.1
  have shown : last ∈ page ++ more := List.mem_append_left _ (List.mem_of_getLast? ends)
  have ahead : cursor.before last := (mem_waitingBehind.mp (split_ ▸ shown)).2.2
  have once : (page ++ more).Nodup := split_ ▸ nodup_waitingBehind keyed
  have left : ∀ t ∈ page ++ more, (behind last).before t ↔ t ∈ more := by
    intro t waits
    rw [before_behind keyed (stored shown) (stored waits)]
    exact behind_iff_mem_rest (split_ ▸ List.pairwise_insertionSort _ _) once
      (fun a first b second => earlier_antisymm keyed (stored first) (stored second))
      (fun a => .inr ⟨rfl, le_rfl⟩) ends waits
  have same : waitingBehind d' batchID (behind last) =
      (((withoutLive d (d.transactions.filter (·.batchID = batchID))).filter cursor.before).filter
        (behind last).before).insertionSort earlier := by
    rw [waitingBehind, withoutLive_eq, withoutLive_eq, transactions]
    simp only [List.filter_filter]
    congr 1
    apply List.filter_congr
    intro t known
    by_cases later : (behind last).before t
    · have unshown : t ∉ page := fun early =>
        (List.nodup_append'.mp once).2.2 early ((left t (List.mem_append_left _ early)).mp later)
      rw [later, before_trans keyed (stored shown) ahead later, untouched t known unshown]
      rfl
    · simp [later]
  have waits {t : TransactionRow} (member : t ∈ (withoutLive d (d.transactions.filter
      (·.batchID = batchID))).filter cursor.before) : t ∈ page ++ more :=
    split_ ▸ (List.mem_insertionSort earlier).mpr member
  rw [same]
  refine sort_behind split_ ?_ ?_ ends fun t member => ?_
  · exact (List.perm_insertionSort earlier _).nodup_iff.mp (nodup_waitingBehind keyed)
  · exact fun a first b second =>
      earlier_antisymm keyed (stored (waits first)) (stored (waits second))
  · exact before_behind keyed (stored shown) (stored (waits member))

/-! ## The row of a run -/

/-- The run stands behind earlier ones, of other batches. -/
structure Opened (earlierRuns : List ClassificationRunRow) (run : ClassificationRunRow)
    (d : Database) : Prop where
  runs : d.runs = earlierRuns ++ [run]
  apart : ∀ r ∈ earlierRuns, r.id ≠ run.id ∧ r.batchID ≠ run.batchID

variable {earlierRuns : List ClassificationRunRow} {run next : ClassificationRunRow}

theorem Opened.runningRun (opened : Opened earlierRuns run d) :
    runningRun d run.batchID = if run.status = .running then some run else none := by
  have others : earlierRuns.find? (fun r => r.batchID = run.batchID && r.status = .running) = none :=
    List.find?_eq_none.mpr fun r known => by simp [(opened.apart r known).2]
  rw [Classify.runningRun, opened.runs, List.find?_append, others, Option.none_or,
    List.find?_singleton]
  by_cases running : run.status = .running <;> simp [running]

theorem Opened.replaceBy (opened : Opened earlierRuns run d) (id : next.id = run.id) :
    Ledger.replaceBy (·.id) next d.runs = earlierRuns ++ [next] := by
  have others : earlierRuns.map (fun old => if old.id = next.id then next else old) =
      earlierRuns := by
    refine (List.map_congr_left fun r known => ?_).trans (List.map_id _)
    exact if_neg (id ▸ (opened.apart r known).1)
  rw [Ledger.replaceBy, opened.runs, List.map_append, others, List.map_singleton, if_pos id.symm]

theorem Opened.becomes (opened : Opened earlierRuns run d) (id : next.id = run.id)
    (batch : next.batchID = run.batchID) :
    Opened earlierRuns next { d with runs := earlierRuns ++ [next] } where
  runs := rfl
  apart := by
    rw [id, batch]
    exact opened.apart

/-- While the run is running, an update finds it and no other. -/
theorem Opened.run_updateRunning (opened : Opened earlierRuns run d) (running : run.status = .running)
    {change : ClassificationRunRow → ClassificationRunRow} (id : (change run).id = run.id) :
    (updateRunning run.batchID change).run Store.apply d = .ok ((), d') ↔
      d' = { d with runs := earlierRuns ++ [change run] } := by
  rw [run_updateRunning_ok, opened.runningRun, if_pos running]
  simp only [Option.some.injEq, exists_eq_left']
  rw [opened.replaceBy id]

/-- The row that a run is opened with. -/
def openingRun (id : UUID) (now : Timestamp) (batchID : UUID) : ClassificationRunRow where
  id := id
  batchID := batchID
  status := .running
  failureCode := none
  chunkCount := 0
  classifiedCount := 0
  reviewCount := 0
  startedAt := now
  finishedAt := none

theorem checkRun_ok {row : ClassificationRunRow} : checkRun d row = .ok () ↔
    (∀ r ∈ d.runs, r.id ≠ row.id ∧ r.batchID ≠ row.batchID) ∧
      ∃ batch ∈ d.batches, batch.id = row.batchID := by
  simp only [checkRun, require_bind_ok, require_ok, List.all_eq_true, List.any_eq_true,
    decide_eq_true_eq, forall_and, and_assoc]

theorem run_insertClassificationRun_ok {id : UUID} {now : Timestamp} :
    (insertClassificationRun id now batchID).run Store.apply d = .ok ((), d') ↔
      ((∀ r ∈ d.runs, r.id ≠ id ∧ r.batchID ≠ batchID) ∧ ∃ batch ∈ d.batches, batch.id = batchID) ∧
        d' = { d with runs := d.runs ++ [openingRun id now batchID] } := by
  have checked : checkRun d (openingRun id now batchID) = .ok () ↔ _ := checkRun_ok
  rw [insertClassificationRun, Prog.run_exec_ok]
  constructor
  · rintro ⟨writes, made, rfl⟩
    obtain ⟨_, passed, made⟩ := bind_ok.mp made
    obtain ⟨rfl, -⟩ := Prod.mk.inj (Except.ok.inj made)
    exact ⟨checked.mp passed, rfl⟩
  · rintro ⟨passed, rfl⟩
    exact ⟨[.insertRun (openingRun id now batchID)], bind_ok.mpr ⟨(), checked.mpr passed, rfl⟩, rfl⟩

/-! ## What a chunk changes -/

theorem mem_page_of_answers {site : Site} {context : BatchContext} {resp : BatchResponse}
    {p : Proposal} {row : Classification} (answers : Answers site context page resp p row) :
    ∃ t ∈ page, t.id = row.transactionID ∧ t.id.text = p.transactionID := by
  obtain ⟨txnID, _, found, -, rfl⟩ := answers
  obtain ⟨t, named, rfl⟩ := Option.map_eq_some_iff.mp found
  have same := List.find?_some named
  exact ⟨t, List.mem_reverse.mp (List.mem_of_find?_eq_some named), rfl, of_decide_eq_true same⟩

theorem mem_storedClassifications {draws : Draws} {number : Nat} {rows : List Classification}
    {stored : ClassificationRow} (member : stored ∈ storedClassifications draws number rows) :
    ∃ row ∈ rows, stored.transactionID = row.transactionID := by
  obtain ⟨⟨row, i⟩, listed, rfl⟩ := List.mem_map.mp member
  exact ⟨row, (List.mem_zipIdx' listed).2 ▸ List.getElem_mem _, rfl⟩

/-- The run with one more chunk counted. -/
def counted (run : ClassificationRunRow) (classified offered : Nat) : ClassificationRunRow :=
  { run with
    chunkCount := run.chunkCount + 1
    classifiedCount := run.classifiedCount + classified
    reviewCount := run.reviewCount + (offered - classified) }

theorem Opened.run_storeChunk {draws : Draws} {number offered : Nat} {rows : List Classification}
    (opened : Opened earlierRuns run d) (running : run.status = .running) :
    (storeChunk run.batchID draws number rows offered).run Store.apply d = .ok ((), d') ↔
      Storable d (storedClassifications draws number rows) ∧ d' = { d with
        classifications := d.classifications ++ storedClassifications draws number rows
        runs := earlierRuns ++ [counted run rows.length offered] } := by
  rw [run_storeChunk_ok, opened.runningRun, if_pos running]
  have replaced : Ledger.replaceBy (·.id) (counted run rows.length offered) d.runs =
      earlierRuns ++ [counted run rows.length offered] := opened.replaceBy rfl
  simp only [Option.some.injEq, exists_eq_left']
  rw [← replaced]
  rfl

/-- Rows that no new classification names stay as answered as they were. -/
theorem unanswered_stored {new : List ClassificationRow} {runs : List ClassificationRunRow}
    (unnamed : ∀ row ∈ new, row.transactionID ≠ t.id) :
    unanswered { d with classifications := d.classifications ++ new, runs } t = unanswered d t := by
  have none_ : new.any (liveFor t) = false :=
    List.any_eq_false.mpr fun row member => by simp [liveFor, unnamed row member]
  rw [unanswered, unanswered, List.any_append, none_, Bool.or_false]

/-- Behind the page of an accepted answer waits what the page left. -/
theorem waitingBehind_stored {site : Site} {context : BatchContext} {resp : BatchResponse}
    {draws : Draws} {number : Nat} {rows : List Classification} {runs : List ClassificationRunRow}
    (keyed : Keyed d) (split_ : waitingBehind d batchID cursor = page ++ more)
    (ends : page.getLast? = some last)
    (accepted : chunkClassifications site context page resp = .ok rows) :
    waitingBehind { d with
      classifications := d.classifications ++ storedClassifications draws number rows
      runs } batchID (behind last) = more := by
  refine waitingBehind_next keyed split_ ends rfl fun t stored unshown => unanswered_stored ?_
  intro row member same
  obtain ⟨c, listed, named⟩ := mem_storedClassifications member
  obtain ⟨p, -, answers⟩ := exists_left_of_forall₂ (chunkClassifications_ok.mp accepted).1 listed
  obtain ⟨shown, onPage, id, -⟩ := mem_page_of_answers answers
  have known : shown ∈ d.transactions :=
    (mem_waitingBehind.mp (split_ ▸ List.mem_append_left _ onPage)).1.1
  exact unshown (keyed.eq known stored (id.trans (named.symm.trans same)) ▸ onPage)

/-! ## A batch of one row -/

def pairedDraws : Draws := ⟨fun stream i => 100 + Nat.pair stream i, fun n => n⟩

/-- An imported batch of one transaction, one category, and these rules. -/
def waitingStage (rules : List RuleRow) : Database :=
  { Database.empty "BYN" with
    batches := [⟨1, 1, .bank, .imported, some "file", none⟩]
    transactions := [sampleTransaction 1 .bank (sampleDay 1) 100]
    categories := [sampleCategory 1 "1.1" "income"]
    rules }

end Vekst.Classify
