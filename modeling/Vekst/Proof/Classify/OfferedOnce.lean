import Vekst.Proof.Classify.Offers
import Vekst.Proof.Taxonomy.Codes

namespace Vekst.Classify
open Isolation Ledger Relational Calendar

/-! ## Answers -/

/-- The answer names transactions of the request, none twice, and categories of the request. -/
structure Named (request : BatchRequest) (resp : BatchResponse) : Prop where
  transactions : ∀ p ∈ resp.proposals, p.transactionID ∈ request.txns.map (·.transactionID)
  categories : ∀ p ∈ resp.proposals, p.categoryCode ∈ request.categories.map (·.code)
  once : (resp.proposals.map (·.transactionID)).Nodup

/-- A machine's layer, and a confidence that is one when it is stored. -/
def Recordable (resp : BatchResponse) : Prop :=
  ∀ p ∈ resp.proposals, (p.engineLayer ∈ engineLayers ∧ p.engineLayer ≠ "human") ∧
    0 ≤ roundConfidence p.confidence ∧ roundConfidence p.confidence ≤ 1

variable {site : Site} {classifier : BatchRequest → BatchResponse} {d start last mid : Database}
  {batchID : UUID} {draws : Draws} {context : BatchContext} {cursor : Cursor} {number : Nat}
  {result : Option Outcome} {earlierRuns : List ClassificationRunRow} {request : BatchRequest}
  {run : ClassificationRunRow} {waiting page : List TransactionRow} {resp : BatchResponse}
  {rows : List Classification} {p : Proposal} {row : Classification} {chunk : Chunk}
  {chunks : List Chunk}

theorem Asks.txns (asks : Asks site context page request) : request.txns = toClassifyBatch page := by
  obtain ⟨first, others, rfl, rfl⟩ := asks
  rfl

theorem Asks.ids (asks : Asks site context page request) :
    request.txns.map (·.transactionID) = page.map (·.id.text) := by
  rw [asks.txns, toClassifyBatch, List.map_map]
  rfl

theorem Asks.categories (asks : Asks site context page request) :
    request.categories = context.categories := by
  obtain ⟨first, others, rfl, rfl⟩ := asks
  rfl

theorem isSome_inPage {id : String} : (inPage page id).isSome ↔ id ∈ page.map (·.id.text) := by
  rw [inPage, Option.isSome_map, List.find?_isSome]
  simp

theorem text_inPage {id : String} {txnID : UUID} (found : inPage page id = some txnID) :
    txnID.text = id := by
  obtain ⟨t, named, rfl⟩ := Option.map_eq_some_iff.mp found
  have same := List.find?_some named
  exact of_decide_eq_true same

/-- The codes of the request are those that its categories can be told by. -/
theorem isSome_category (ran : (requestContext site).run Store.apply d = .ok (context, mid))
    {code : String} :
    (context.category code).isSome ↔ code ∈ context.categories.map (·.code) := by
  obtain ⟨-, sent, -, rfl⟩ := run_requestContext_ok.mp ran
  rw [BatchContext.category, Taxonomy.lookup_reverse_codes, Option.isSome_map,
    List.getLast?_isSome, List.map_map, ← List.length_pos_iff, List.length_filter_pos_iff]
  simp

/-- An answer is taken exactly when it names what was sent. -/
theorem accepted_iff_named (ran : (requestContext site).run Store.apply d = .ok (context, mid))
    (asks : Asks site context page request) :
    (∃ rows, chunkClassifications site context page resp = .ok rows) ↔ Named request resp := by
  simp only [chunkClassifications_ok]
  constructor
  · rintro ⟨rows, answers, once⟩
    have found : rows.map (fun row => some row.transactionID) =
        resp.proposals.map fun p => inPage page p.transactionID :=
      map_eq_of_forall₂ (answers.imp fun p row ⟨txnID, _, found, _, same⟩ => by rw [found, same]; rfl)
    refine ⟨fun p proposed => ?_, fun p proposed => ?_, ?_⟩
    · obtain ⟨_, -, txnID, _, found, -, -⟩ := exists_right_of_forall₂ answers proposed
      rw [asks.ids, ← isSome_inPage, found]
      rfl
    · obtain ⟨_, -, _, categoryID, -, named, -⟩ := exists_right_of_forall₂ answers proposed
      rw [asks.categories, ← isSome_category ran, named]
      rfl
    · have different : (resp.proposals.map fun p => inPage page p.transactionID).Nodup := by
        rw [← found]
        exact List.Nodup.of_map Option.get! (by simpa [Function.comp_def] using once)
      exact List.Nodup.of_map (inPage page) (by simpa [Function.comp_def] using different)
  · intro named
    have each : ∀ p ∈ resp.proposals, ∃ row, Answers site context page resp p row := by
      intro p proposed
      have sent := named.transactions p proposed
      rw [asks.ids, ← isSome_inPage, Option.isSome_iff_exists] at sent
      have known := named.categories p proposed
      rw [asks.categories, ← isSome_category ran, Option.isSome_iff_exists] at known
      obtain ⟨txnID, found⟩ := sent
      obtain ⟨categoryID, read⟩ := known
      exact ⟨_, txnID, categoryID, found, read, rfl⟩
    obtain ⟨rows, answers⟩ := exists_forall₂ each
    have texts : rows.map (fun row => UUID.text row.transactionID) =
        resp.proposals.map (·.transactionID) :=
      map_eq_of_forall₂ (answers.imp fun p row ⟨txnID, _, found, _, same⟩ => by
        rw [same]
        exact text_inPage found)
    refine ⟨rows, answers, List.Nodup.of_map UUID.text ?_⟩
    rw [List.map_map]
    exact texts ▸ named.once

/-! ## What an admitted answer stores -/

/-- Identifiers are of 128 bits and told apart, of transactions and of categories. -/
structure Sound (d : Database) : Prop extends Keyed d where
  wide : ∀ t ∈ d.transactions, t.id < 2 ^ 128
  categories : (d.categories.map (·.id)).Nodup

/-- The identifiers drawn for a run are new. -/
structure Drawn (draws : Draws) (d : Database) : Prop where
  run : ∀ r ∈ d.runs, r.id ≠ draws.id openOrdinal 0
  apart : ∀ m n i j, draws.id (pageOrdinal m) i = draws.id (pageOrdinal n) j → m = n ∧ i = j
  new : ∀ c ∈ d.classifications, ∀ n i, c.id ≠ draws.id (pageOrdinal n) i

theorem admissible_of_answers (sound : Sound d) {id : UUID} {now : Timestamp}
    (ran : (requestContext site).run Store.apply d = .ok (context, mid))
    (shown : ∀ t ∈ page, t ∈ d.transactions) (recordable : Recordable resp) (proposed : p ∈ resp.proposals)
    (answers : Answers site context page resp p row) : Admissible d (toRow id now row) := by
  obtain ⟨t, onPage, named, -⟩ := mem_page_of_answers answers
  obtain ⟨txnID, categoryID, -, read, rfl⟩ := answers
  obtain ⟨⟨layer, machine⟩, confidence⟩ := recordable p proposed
  obtain ⟨cat, known, classifiable, -, rfl⟩ := Taxonomy.category_eq_some ran read
  refine ⟨layer, confidence, fun human => absurd human machine, ⟨t, shown t onPage, named⟩,
    ⟨cat, known, rfl⟩, fun other stored same => ?_⟩
  obtain rfl : other = cat := List.inj_on_of_nodup_map sound.categories stored known same
  exact classifiable.2

theorem mem_storedChunks {stored : ClassificationRow}
    (member : stored ∈ storedChunks draws number chunks) :
    ∃ m i, m < number + chunks.length ∧ number ≤ m ∧ stored.id = draws.id (pageOrdinal m) i := by
  induction chunks generalizing number with
  | nil => cases member
  | cons chunk chunks ih =>
      rcases List.mem_append.mp member with first | later
      · obtain ⟨⟨row, i⟩, -, rfl⟩ := List.mem_map.mp first
        exact ⟨number, i, by simp, le_rfl, rfl⟩
      · obtain ⟨m, i, below, above, same⟩ := ih later
        exact ⟨m, i, by simpa [Nat.add_assoc, Nat.add_comm 1] using below, by omega, same⟩

/-- The rows of one more chunk find their place behind those of the chunks before it. -/
theorem storable_progressed (sound : Sound d) (drawn : Drawn draws d)
    (ran : (requestContext site).run Store.apply d = .ok (context, mid))
    (served : chunk.Served site classifier context) (shown : ∀ t ∈ chunk.page, t ∈ d.transactions)
    (recordable : Recordable (classifier chunk.request)) :
    Storable (progressed d earlierRuns draws 0 chunks run)
      (storedClassifications draws (0 + chunks.length) chunk.rows) where
  fits stored member := by
    obtain ⟨⟨row, i⟩, listed, rfl⟩ := List.mem_map.mp member
    have known : row ∈ chunk.rows := (List.mem_zipIdx' listed).2 ▸ List.getElem_mem _
    obtain ⟨p, proposed, answers⟩ :=
      exists_left_of_forall₂ (chunkClassifications_ok.mp served.accepted).1 known
    exact (admissible_of_answers sound ran shown recordable proposed answers).of_tables rfl rfl
  new stored member c known := by
    obtain ⟨⟨row, i⟩, -, rfl⟩ := List.mem_map.mp member
    rcases List.mem_append.mp known with old | added
    · exact drawn.new c old _ _
    · obtain ⟨m, j, below, -, same⟩ := mem_storedChunks added
      rw [same]
      intro again
      exact below.ne (drawn.apart _ _ _ _ again).1
  apart := by
    have listed : (storedClassifications draws (0 + chunks.length) chunk.rows).map (·.id) =
        (chunk.rows.zipIdx.map Prod.snd).map (draws.id (pageOrdinal (0 + chunks.length))) := by
      rw [storedClassifications, List.map_map, List.map_map]
      rfl
    rw [listed, List.zipIdx_map_snd]
    exact List.Nodup.map (fun i j same => (drawn.apart _ _ _ _ same).2) (List.nodup_range' 1)

/-! ## What a run of served chunks has done -/

theorem length_rows_le (served : chunk.Served site classifier context) : chunk.rows.length ≤ chunk.page.length := by
  obtain ⟨answers, once⟩ := chunkClassifications_ok.mp served.accepted
  have within : chunk.rows.map (·.transactionID) ⊆ chunk.page.map (·.id) := by
    intro txnID member
    obtain ⟨row, listed, rfl⟩ := List.mem_map.mp member
    obtain ⟨p, -, answered⟩ := exists_left_of_forall₂ answers listed
    obtain ⟨t, onPage, named, -⟩ := mem_page_of_answers answered
    exact List.mem_map.mpr ⟨t, onPage, named⟩
  simpa using once.length_le_of_subset within

/-- The requests of a run, what became of their proposals, and the run's counts. -/
structure Counts (classifier : BatchRequest → BatchResponse) (requests : List BatchRequest)
    (run : ClassificationRunRow) : Prop where
  chunks : run.chunkCount = requests.length
  classified : run.classifiedCount =
    (requests.map fun request => (classifier request).proposals.length).sum
  offered : run.classifiedCount + run.reviewCount =
    (requests.map fun request => request.txns.length).sum

theorem Chunk.Served.length_page (served : chunk.Served site classifier context) :
    chunk.request.txns.length = chunk.page.length := by
  rw [served.asks.txns, toClassifyBatch, List.length_map]

theorem Chunk.Served.length_rows (served : chunk.Served site classifier context) :
    (classifier chunk.request).proposals.length = chunk.rows.length :=
  (chunkClassifications_ok.mp served.accepted).1.length_eq

theorem countedChunks_counts
    (served : ∀ chunk ∈ chunks, chunk.Served site classifier context) :
    (countedChunks run chunks).chunkCount = run.chunkCount + chunks.length ∧
    (countedChunks run chunks).classifiedCount = run.classifiedCount +
      (chunks.map fun chunk => (classifier chunk.request).proposals.length).sum ∧
    (countedChunks run chunks).classifiedCount + (countedChunks run chunks).reviewCount =
      run.classifiedCount + run.reviewCount +
        (chunks.map fun chunk => chunk.request.txns.length).sum := by
  induction chunks generalizing run with
  | nil => simp [countedChunks]
  | cons chunk chunks ih =>
      obtain ⟨first, others⟩ := List.forall_mem_cons.mp served
      have few := length_rows_le first
      obtain ⟨count, classified, offered⟩ := @ih (counted run chunk.rows.length chunk.page.length)
        others
      have later : countedChunks run (chunk :: chunks) =
        countedChunks (counted run chunk.rows.length chunk.page.length) chunks := rfl
      rw [later, count, classified]
      rw [classified] at offered
      simp only [List.map_cons, List.sum_cons, List.length_cons, first.length_page,
        first.length_rows, counted] at offered ⊢
      omega

/-- The live row that a proposal leaves. -/
structure Records (site : Site) (d : Database) (p : Proposal) (stored : ClassificationRow) : Prop where
  transaction : UUID.text stored.transactionID = p.transactionID
  category : ∃ cat ∈ classifiableCategories d site.taxonomyVersion,
    cat.code = p.categoryCode ∧ cat.id = stored.categoryID
  layer : stored.engineLayer = p.engineLayer
  confidence : stored.confidence = roundConfidence p.confidence
  evidence : stored.evidence = p.evidence
  live : stored.live = true

/-- What the answers propose for a transaction. -/
def proposalsOn (classifier : BatchRequest → BatchResponse) (requests : List BatchRequest)
    (t : TransactionRow) : List Proposal :=
  (requests.flatMap fun request => (classifier request).proposals).filter
    (·.transactionID = t.id.text)

theorem forall₂_stored {number : Nat}
    (ran : (requestContext site).run Store.apply d = .ok (context, mid))
    (answers : List.Forall₂ (Answers site context page resp) resp.proposals rows) :
    List.Forall₂ (fun p stored => Records site d p stored ∧
        ∃ t ∈ page, t.id = stored.transactionID) resp.proposals
      (storedClassifications draws number rows) := by
  rw [storedClassifications, List.forall₂_map_right_iff]
  have numbered : List.Forall₂ (fun p (item : Classification × Nat) =>
      Answers site context page resp p item.1) resp.proposals rows.zipIdx := by
    rw [← List.zipIdx_map_fst 0 rows, List.forall₂_map_right_iff] at answers
    exact answers
  refine numbered.imp ?_
  rintro p ⟨row, i⟩ answered
  obtain ⟨t, shown, named, text⟩ := mem_page_of_answers answered
  obtain ⟨txnID, categoryID, -, read, rfl⟩ := answered
  obtain ⟨cat, known, classifiable, code, id⟩ := Taxonomy.category_eq_some ran read
  refine ⟨⟨?_, ⟨cat, Taxonomy.mem_classifiableCategories.mpr ⟨known, classifiable⟩, code, id⟩, rfl,
    rfl, rfl, rfl⟩, t, shown, named⟩
  rw [← text, named]
  rfl

/-- The rows of the chunks, proposal by proposal. -/
theorem forall₂_storedChunks
    (ran : (requestContext site).run Store.apply d = .ok (context, mid))
    (served : ∀ chunk ∈ chunks, chunk.Served site classifier context) :
    List.Forall₂ (fun p stored => Records site d p stored ∧
        ∃ t ∈ chunks.flatMap (·.page), t.id = stored.transactionID)
      ((chunks.map (·.request)).flatMap fun request => (classifier request).proposals)
      (storedChunks draws number chunks) := by
  induction chunks generalizing number with
  | nil => exact .nil
  | cons chunk chunks ih =>
      obtain ⟨first, others⟩ := List.forall_mem_cons.mp served
      rw [List.map_cons, List.flatMap_cons, storedChunks, List.flatMap_cons]
      refine List.rel_append ?_ ?_
      · refine (forall₂_stored ran (chunkClassifications_ok.mp first.accepted).1).imp ?_
        rintro p stored ⟨leaves, t, shown, id⟩
        exact ⟨leaves, t, List.mem_append_left _ shown, id⟩
      · refine (ih others).imp ?_
        rintro p stored ⟨leaves, t, shown, id⟩
        exact ⟨leaves, t, List.mem_append_right _ shown, id⟩

theorem mem_pages_of_stored {stored : ClassificationRow}
    (ran : (requestContext site).run Store.apply d = .ok (context, mid))
    (served : ∀ chunk ∈ chunks, chunk.Served site classifier context)
    (member : stored ∈ storedChunks draws number chunks) :
    ∃ t ∈ chunks.flatMap (·.page), t.id = stored.transactionID := by
  obtain ⟨_, -, -, known⟩ := exists_left_of_forall₂ (forall₂_storedChunks ran served) member
  exact known

theorem nodup_storedChunks (ran : (requestContext site).run Store.apply d = .ok (context, mid))
    (served : ∀ chunk ∈ chunks, chunk.Served site classifier context)
    (keyed : ((chunks.flatMap (·.page)).map (·.id)).Nodup) :
    ((storedChunks draws number chunks).map (·.transactionID)).Nodup := by
  induction chunks generalizing number with
  | nil => exact List.nodup_nil
  | cons chunk chunks ih =>
      obtain ⟨first, others⟩ := List.forall_mem_cons.mp served
      rw [List.flatMap_cons, List.map_append] at keyed
      obtain ⟨-, later, apart⟩ := List.nodup_append'.mp keyed
      rw [storedChunks, List.map_append, ids_storedClassifications, List.nodup_append']
      refine ⟨(chunkClassifications_ok.mp first.accepted).2, ih others later, ?_⟩
      intro txnID here there
      obtain ⟨row, listed, rfl⟩ := List.mem_map.mp here
      obtain ⟨stored, added, same⟩ := List.mem_map.mp there
      obtain ⟨p, -, answered⟩ :=
        exists_left_of_forall₂ (chunkClassifications_ok.mp first.accepted).1 listed
      obtain ⟨t, onPage, named, -⟩ := mem_page_of_answers answered
      obtain ⟨t', elsewhere, named'⟩ := mem_pages_of_stored ran others added
      exact apart (List.mem_map.mpr ⟨t, onPage, named⟩)
        (List.mem_map.mpr ⟨t', elsewhere, named'.trans same⟩)

/-! ## A whole run -/

/-- The transactions of the batch that are unclassified. -/
def waitingRows (d : Database) (batchID : UUID) : List TransactionRow :=
  d.transactions.filter fun t => t.batchID = batchID && decide (Unclassified d t)

theorem waitingRows_perm : (waitingBehind d batchID startCursor).Perm (waitingRows d batchID) := by
  have same : (withoutLive d (d.transactions.filter (·.batchID = batchID))).filter
      startCursor.before = waitingRows d batchID := by
    rw [withoutLive_eq, List.filter_filter, List.filter_filter, waitingRows]
    apply List.filter_congr
    intro t _
    have ahead : startCursor.before t = true := rfl
    rw [ahead, Bool.true_and, Bool.and_comm]
    congr 1
    exact Bool.eq_iff_iff.mpr (unanswered_iff_unclassified.trans decide_eq_true_iff.symm)
  rw [← same]
  exact List.perm_insertionSort _ _

/-- What the requests have led to: every transaction that waited has the rows that were proposed for
it, one at most, and no other has changed. -/
structure Progress (site : Site) (classifier : BatchRequest → BatchResponse) (d : Database)
    (batchID : UUID) (requests : List BatchRequest) (last : Database) (run : ClassificationRunRow) :
    Prop where
  counts : Counts classifier requests run
  proposed : ∀ t ∈ waitingRows d batchID,
    List.Forall₂ (Records site d) (proposalsOn classifier requests t) (last.liveOf t.id) ∧
      (last.liveOf t.id).length ≤ 1
  others : ∀ txnID, (∀ t ∈ waitingRows d batchID, t.id ≠ txnID) → last.liveOf txnID = d.liveOf txnID

/-- The batch's run, behind those of other batches, and how it ended. -/
structure Ended (d last : Database) (batchID : UUID) (run : ClassificationRunRow)
    (status : RunStatus) (failureCode : Option String) : Prop where
  runs : last.runs = d.runs ++ [run]
  own : run.batchID = batchID
  status : run.status = status
  failureCode : run.failureCode = failureCode

theorem liveOf_progressed (txnID : UUID) :
    (progressed d earlierRuns draws number chunks run).liveOf txnID = d.liveOf txnID ++
      (storedChunks draws number chunks).filter fun c => c.transactionID = txnID && c.live :=
  List.filter_append _ _

/-- The run that these chunks leave. -/
def endedRun (draws : Draws) (batchID : UUID) (chunks : List Chunk) (status : RunStatus)
    (failureCode : Option String) : ClassificationRunRow :=
  closed (countedChunks (openingRun (draws.id openOrdinal 0) (draws.now openOrdinal) batchID) chunks)
    draws status failureCode

theorem batchID_countedChunks : (countedChunks run chunks).batchID = run.batchID := by
  induction chunks generalizing run with
  | nil => rfl
  | cons chunk chunks ih => exact @ih (counted run chunk.rows.length chunk.page.length)

theorem ended_progressed {status : RunStatus} {failureCode : Option String} :
    Ended d (progressed d d.runs draws number chunks (endedRun draws batchID chunks status failureCode))
      batchID (endedRun draws batchID chunks status failureCode) status failureCode where
  runs := rfl
  own := batchID_countedChunks
  status := rfl
  failureCode := rfl

theorem progress_of_chunks {rest : List TransactionRow} {status : RunStatus}
    {failureCode : Option String} (sound : Sound d)
    (ran : (requestContext site).run Store.apply d = .ok (context, mid))
    (served : ∀ chunk ∈ chunks, chunk.Served site classifier context)
    (all : waitingBehind d batchID startCursor = chunks.flatMap (·.page) ++ rest) :
    Progress site classifier d batchID (chunks.map (·.request))
      (progressed d earlierRuns draws number chunks
        (endedRun draws batchID chunks status failureCode))
      (endedRun draws batchID chunks status failureCode) := by
  have waits {t : TransactionRow} : t ∈ waitingRows d batchID ↔
      t ∈ chunks.flatMap (·.page) ++ rest := by
    rw [← all]
    exact waitingRows_perm.mem_iff.symm
  have keyed : ((chunks.flatMap (·.page)).map (·.id)).Nodup := by
    have once := List.Nodup.sublist (List.sublist_append_left _ _)
      (all ▸ nodup_waitingBehind sound.toKeyed)
    refine once.map_on fun a first b second same => ?_
    have stored {t : TransactionRow} (shown : t ∈ chunks.flatMap (·.page)) : t ∈ d.transactions :=
      (mem_waitingBehind.mp (all ▸ List.mem_append_left _ shown)).1.1
    exact sound.eq (stored first) (stored second) same
  refine ⟨?_, fun t member => ⟨?_, ?_⟩, fun txnID none_ => ?_⟩
  · have counted_ : (countedChunks (openingRun (draws.id openOrdinal 0) (draws.now openOrdinal)
        batchID) chunks).chunkCount = _ ∧ _ ∧ _ := countedChunks_counts served
    obtain ⟨count, classified, offered⟩ := counted_
    refine ⟨?_, ?_, ?_⟩
    · rw [List.length_map, ← Nat.zero_add chunks.length]
      exact count
    · rw [List.map_map, ← Nat.zero_add (List.sum _)]
      exact classified
    · rw [List.map_map, ← Nat.zero_add (List.sum _)]
      exact offered
  · rw [liveOf_progressed, liveOf_eq_nil_of_waits (all ▸ waits.mp member), List.nil_append]
    have answered : List.Forall₂ _ _ (storedChunks draws number chunks) :=
      forall₂_storedChunks ran served
    refine (List.rel_filter (fun p stored related => ?_) answered).imp fun p stored => And.left
    obtain ⟨leaves, shown, known, named⟩ := related
    have wide {t : TransactionRow} (waits_ : t ∈ chunks.flatMap (·.page) ++ rest) : t.id < 2 ^ 128 :=
      sound.wide t (mem_waitingBehind.mp (all ▸ waits_)).1.1
    have same := text_inj (wide (List.mem_append_left _ known)) (wide (waits.mp member))
    rw [named, leaves.transaction] at same
    simp only [decide_eq_true_eq, leaves.live, Bool.and_true]
    exact same
  · apply length_liveOf_stored (liveOf_eq_nil_of_waits (all ▸ waits.mp member))
    exact nodup_storedChunks ran served keyed
  · rw [liveOf_progressed, List.filter_eq_nil_iff.mpr, List.append_nil]
    intro stored added named
    rw [Bool.and_eq_true] at named
    obtain ⟨t, shown, same⟩ := mem_pages_of_stored ran served added
    exact none_ t (waits.mpr (List.mem_append_left _ shown))
      (same.trans (of_decide_eq_true named.1))

/-- A run that has asked nothing has changed no classification. -/
theorem progress_unasked (same : last.classifications = d.classifications)
    (counts : Counts classifier [] run) : Progress site classifier d batchID [] last run := by
  have live (txnID : UUID) : last.liveOf txnID = d.liveOf txnID := by
    rw [Database.liveOf, Database.liveOf, same]
  refine ⟨counts, fun t waits => ?_, fun txnID _ => live txnID⟩
  rw [live, liveOf_eq_nil_of_waits (waitingRows_perm.mem_iff.mpr waits)]
  exact ⟨.nil, by simp⟩

/-! ## The batch's job -/

/-- Every rule in force can be read. -/
def Readable (site : Site) (d : Database) : Prop :=
  ∃ sent, (effectiveRules d site.taxonomyVersion site.rulesetVersion).mapM toRule = .ok sent

theorem toCondition_error {c : MatcherCondition} {e : Failure} (failed : toCondition c = .error e) :
    e = .fatal failureBadMatcher := by
  by_cases blank : c.field = "" ∨ c.op = ""
  · rw [toCondition, if_pos blank] at failed
    exact (Except.error.inj failed).symm
  · rw [toCondition, if_neg blank] at failed
    split at failed
    next => cases failed
    next =>
      split at failed
      next => exact (Except.error.inj failed).symm
      next => cases failed

theorem toRule_error {pair : RuleRow × CategoryRow} {e : Failure} (failed : toRule pair = .error e) :
    e = .fatal failureBadMatcher := by
  unfold toRule at failed
  split at failed
  next => exact (Except.error.inj failed).symm
  next m _ =>
    by_cases empty : m.all = []
    · rw [if_pos empty] at failed
      exact (Except.error.inj failed).symm
    · rw [if_neg empty] at failed
      rcases bind_error.mp failed with failed | ⟨_, -, made⟩
      · obtain ⟨c, -, failed⟩ := exists_error_of_mapM failed
        exact toCondition_error failed
      · cases made

theorem run_requestContext_unreadable (unreadable : ¬ Readable site d) :
    (requestContext site).run Store.apply d = .error (.fatal failureBadMatcher) := by
  cases read : (effectiveRules d site.taxonomyVersion site.rulesetVersion).mapM toRule with
  | ok sent => exact absurd ⟨sent, read⟩ unreadable
  | error e =>
      obtain ⟨pair, -, failed⟩ := exists_error_of_mapM read
      obtain rfl := toRule_error failed
      simp [requestContext, Prog.run_bind, Prog.run_query, Except.map, Except.bind, read]

/-- The state in which the run has been opened. -/
def opening (d : Database) (draws : Draws) (batchID : UUID) : Database :=
  { d with runs := d.runs ++ [openingRun (draws.id openOrdinal 0) (draws.now openOrdinal) batchID] }

/-- The batch is stored and no run of it has been opened. -/
structure First (draws : Draws) (batchID : UUID) (d : Database) : Prop where
  stored : ∃ batch ∈ d.batches, batch.id = batchID
  unopened : ∀ r ∈ d.runs, r.batchID ≠ batchID

theorem only_classifyBatch (drawn : Drawn draws d) (first : First draws batchID d)
    {asked : List Question} (rest : Only site classifier (classifyRows site batchID draws)
      (opening d draws batchID) asked result last) :
    Only site classifier (body site (.classifyBatch batchID draws)) d asked result last := by
  have fresh : ∀ r ∈ d.runs, r.id ≠ draws.id openOrdinal 0 ∧ r.batchID ≠ batchID :=
    fun r known => ⟨drawn.run r known, first.unopened r known⟩
  have ran : (insertClassificationRun (draws.id openOrdinal 0) (draws.now openOrdinal) batchID).run
      Store.apply d = .ok ((), opening d draws batchID) :=
    run_insertClassificationRun_ok.mpr ⟨⟨fresh, first.stored⟩, rfl⟩
  exact only_inTx_ok (names_insertClassificationRun _ _ _) ran nofun rest

theorem opened_opening (drawn : Drawn draws d) (first : First draws batchID d) :
    Opened d.runs (openingRun (draws.id openOrdinal 0) (draws.now openOrdinal) batchID)
      (opening d draws batchID) where
  runs := rfl
  apart r known := ⟨drawn.run r known, first.unopened r known⟩

/-- A first run asks nothing while a rule cannot be read; else it goes through the rows that wait. -/
theorem exists_first_run (sound : Sound d) (drawn : Drawn draws d) (first : First draws batchID d) :
    (¬ Readable site d → Only site classifier (body site (.classifyBatch batchID draws)) d []
      (some (.ok .done)) { d with runs := d.runs ++ [closed (openingRun (draws.id openOrdinal 0)
        (draws.now openOrdinal) batchID) draws .failed (some failureBadMatcher)] }) ∧
    (Readable site d → ∃ context, (requestContext site).run Store.apply d = .ok (context, d) ∧
      ∃ requests result last, Only site classifier (body site (.classifyBatch batchID draws)) d
          (requests.map .classify) result last ∧
        Ends site classifier context draws d.runs 0
          (openingRun (draws.id openOrdinal 0) (draws.now openOrdinal) batchID)
          (waitingBehind d batchID startCursor) (opening d draws batchID) requests result last) := by
  have opened := opened_opening drawn first
  constructor
  · intro unreadable
    have unread : ¬ Readable site (opening d draws batchID) := unreadable
    refine only_classifyBatch drawn first (only_inTx_error (names_requestContext site)
      (run_requestContext_unreadable unread) ?_)
    exact only_close opened rfl _ _
  · rintro ⟨sent, read⟩
    obtain ⟨context, ran⟩ : ∃ context, (requestContext site).run Store.apply d =
        .ok (context, d) := ⟨_, run_requestContext_ok.mpr ⟨rfl, sent, read, rfl⟩⟩
    obtain ⟨-, sent', read', same⟩ := run_requestContext_ok.mp ran
    have again : (requestContext site).run Store.apply (opening d draws batchID) =
        .ok (context, opening d draws batchID) :=
      run_requestContext_ok.mpr ⟨rfl, sent', read', same⟩
    have waits : Waits site batchID d.runs startCursor
        (openingRun (draws.id openOrdinal 0) (draws.now openOrdinal) batchID)
        (waitingBehind d batchID startCursor) (opening d draws batchID) :=
      ⟨sound.toKeyed.of_transactions rfl, opened, rfl, rfl, rfl⟩
    obtain ⟨requests, result, last, only_, ends⟩ := exists_course waits
    refine ⟨context, ran, requests, result, last, ?_, ends⟩
    refine only_classifyBatch drawn first (only_inTx_ok (names_requestContext site) again nofun ?_)
    exact only_jump only_

/-! ## Every row once -/

/-- The run has failed, with the chunks of these requests kept. -/
def Fails (site : Site) (classifier : BatchRequest → BatchResponse) (d : Database) (batchID : UUID)
    (requests : List BatchRequest) (last : Database) (code : String) : Prop :=
  ∃ run, Ended d last batchID run .failed (some code) ∧
    Progress site classifier d batchID requests last run

/-- The run is classified, with every transaction that waited in one request. -/
structure Classifies (site : Site) (classifier : BatchRequest → BatchResponse) (d : Database)
    (batchID : UUID) (requests : List BatchRequest) (last : Database) : Prop where
  pages : ∃ pages : List (List TransactionRow), requests.map (·.txns) = pages.map toClassifyBatch ∧
    pages.flatten.Perm (waitingRows d batchID)
  run : ∃ run, Ended d last batchID run .classified none ∧
    Progress site classifier d batchID requests last run ∧
    run.classifiedCount + run.reviewCount = (waitingRows d batchID).length

theorem Chunk.Served.named (ran : (requestContext site).run Store.apply d = .ok (context, mid))
    (served : chunk.Served site classifier context) : Named chunk.request (classifier chunk.request) :=
  (accepted_iff_named ran served.asks).mp ⟨chunk.rows, served.accepted⟩

theorem txns_of_served (served : ∀ chunk ∈ chunks, chunk.Served site classifier context) :
    (chunks.map (·.request)).map (·.txns) = (chunks.map (·.page)).map toClassifyBatch := by
  rw [List.map_map, List.map_map]
  exact List.map_congr_left fun chunk member => (served chunk member).asks.txns

theorem classifies_of_chunks (sound : Sound d)
    (ran : (requestContext site).run Store.apply d = .ok (context, mid))
    (served : ∀ chunk ∈ chunks, chunk.Served site classifier context)
    (all : waitingBehind d batchID startCursor = chunks.flatMap (·.page)) :
    Classifies site classifier d batchID (chunks.map (·.request)) (progressed d d.runs draws 0 chunks
      (endedRun draws batchID chunks .classified none)) := by
  have progress : Progress site classifier d batchID (chunks.map (·.request))
      (progressed d d.runs draws 0 chunks (endedRun draws batchID chunks .classified none))
      (endedRun draws batchID chunks .classified none) :=
    progress_of_chunks sound ran served (all.trans (List.append_nil _).symm)
  have same : ((chunks.map (·.page)).flatten).Perm (waitingRows d batchID) := by
    rw [← List.flatMap_def, ← all]
    exact waitingRows_perm
  refine ⟨⟨_, txns_of_served served, same⟩, _, ended_progressed, progress, ?_⟩
  rw [progress.counts.offered, ← same.length_eq, List.length_flatten, List.map_map, List.map_map]
  congr 1
  exact List.map_congr_left fun chunk member => (served chunk member).length_page

/-- A refused chunk leaves its transactions without a classification. -/
theorem liveOf_of_refused {rest : List TransactionRow} {run : ClassificationRunRow} (sound : Sound d)
    (ran : (requestContext site).run Store.apply d = .ok (context, mid))
    (served : ∀ chunk ∈ chunks, chunk.Served site classifier context)
    (all : waitingBehind d batchID startCursor = chunks.flatMap (·.page) ++ page ++ rest)
    {t : TransactionRow} (shown : t ∈ page) :
    (progressed d d.runs draws 0 chunks run).liveOf t.id = [] := by
  have once : (chunks.flatMap (·.page) ++ page ++ rest).Nodup := all ▸ nodup_waitingBehind sound.toKeyed
  have waits {t : TransactionRow} (member : t ∈ chunks.flatMap (·.page) ++ page ++ rest) :
      t ∈ waitingBehind d batchID startCursor := all ▸ member
  have late : t ∈ chunks.flatMap (·.page) ++ page ++ rest := by simp [shown]
  rw [liveOf_progressed, liveOf_eq_nil_of_waits (waits late), List.nil_append]
  refine List.filter_eq_nil_iff.mpr fun stored added named => ?_
  rw [Bool.and_eq_true] at named
  obtain ⟨t', early, same⟩ := mem_pages_of_stored ran served added
  have known : t' ∈ chunks.flatMap (·.page) ++ page ++ rest := by
    rw [List.append_assoc]
    exact List.mem_append_left _ early
  obtain rfl : t' = t := sound.eq (mem_waitingBehind.mp (waits known)).1.1
    (mem_waitingBehind.mp (waits late)).1.1 (same.trans (of_decide_eq_true named.1))
  rw [List.append_assoc] at once
  exact (List.nodup_append'.mp once).2.2 early (List.mem_append_left _ shown)

theorem last_or_earlier {α : Type} {items before after : List α} {last item : α}
    (same : items ++ [last] = before ++ item :: after) :
    item ∈ items ∨ before = items ∧ item = last ∧ after = [] := by
  rcases List.eq_nil_or_concat' after with rfl | ⟨others, final, rfl⟩
  · obtain ⟨rfl, one⟩ := List.append_inj' same rfl
    exact .inr ⟨rfl, (List.cons.inj one).1.symm, rfl⟩
  · rw [← List.cons_append, ← List.append_assoc] at same
    obtain ⟨rfl, -⟩ := List.append_inj' same rfl
    exact .inl (by simp)

theorem offered_exactly_once (site : Site) (classifier : BatchRequest → BatchResponse)
    (d : Database) (batchID : UUID) (draws : Draws) (sound : Sound d) (drawn : Drawn draws d)
    (first : First draws batchID d) :
    ∃ requests outcome last,
      Only site classifier (body site (.classifyBatch batchID draws)) d (requests.map .classify)
        (some outcome) last ∧
      (¬ Readable site d → requests = [] ∧ outcome = .ok .done ∧
        Fails site classifier d batchID [] last failureBadMatcher) ∧
      (Readable site d → (∀ request ∈ requests, Named request (classifier request) ∧
          Recordable (classifier request)) →
        outcome = .ok .done ∧ Classifies site classifier d batchID requests last) ∧
      ∀ earlier request later, requests = earlier ++ request :: later →
        ¬ Named request (classifier request) →
        later = [] ∧ outcome = .ok .done ∧
        Fails site classifier d batchID earlier last failureUnknownCategory ∧
        ∀ t ∈ waitingRows d batchID, t.id.text ∈ request.txns.map (·.transactionID) →
          last.liveOf t.id = [] := by
  obtain ⟨unread, goes⟩ := @exists_first_run site classifier d batchID draws sound drawn first
  by_cases readable : Readable site d
  · obtain ⟨context, ran, requests, result, last, only_, ends⟩ := goes readable
    obtain ⟨outcome, rfl⟩ := Solo.exists_outcome id ((only_ _ _ _).mpr ⟨rfl, rfl, rfl⟩)
    refine ⟨requests, outcome, last, only_, fun no => absurd readable no, fun _ => ?_, ?_⟩
    · intro accepted
      cases ends with
      | finished chunks served all => exact ⟨rfl, classifies_of_chunks sound ran served all⟩
      | refused chunks served page rest all request asks refusal =>
          have named : Named request (classifier request) := (accepted request (by simp)).1
          obtain ⟨rows, taken⟩ := (accepted_iff_named ran asks).mpr named
          cases refusal.symm.trans taken
      | broken chunks served chunk final rest all refused =>
          have recordable := (accepted chunk.request (by simp)).2
          refine absurd (storable_progressed sound drawn ran final (fun t shown => ?_) recordable) refused
          have waits : t ∈ waitingBehind d batchID startCursor := by simp [all, shown]
          exact (mem_waitingBehind.mp waits).1.1
    · intro earlier request later asked unnamed
      have named {chunks : List Chunk} (served : ∀ chunk ∈ chunks, chunk.Served site classifier context)
          (member : request ∈ chunks.map (·.request)) : Named request (classifier request) := by
        obtain ⟨chunk, listed, rfl⟩ := List.mem_map.mp member
        exact (served chunk listed).named ran
      cases ends with
      | finished chunks served all => exact absurd (named served (by simp [asked])) unnamed
      | refused chunks served page rest all refused asks refusal =>
          rcases last_or_earlier asked with among | ⟨rfl, rfl, rfl⟩
          · exact absurd (named served among) unnamed
          refine ⟨rfl, rfl, ⟨_, ended_progressed, progress_of_chunks sound ran served
            (all.trans (List.append_assoc _ _ _))⟩, fun t waits sent => ?_⟩
          have wide {t : TransactionRow} (member : t ∈ waitingRows d batchID) : t.id < 2 ^ 128 :=
            sound.wide t (List.mem_filter.mp member).1
          rw [asks.ids] at sent
          obtain ⟨t', shown, same⟩ := List.mem_map.mp sent
          have waits' : t' ∈ waitingRows d batchID :=
            waitingRows_perm.mem_iff.mp (by simp [all, shown])
          rw [← (text_inj (wide waits') (wide waits)).mp same]
          exact liveOf_of_refused sound ran served all shown
      | broken chunks served chunk final rest all refused =>
          have served_ : ∀ c ∈ chunks ++ [chunk], c.Served site classifier context := by
            simpa [or_imp, forall_and] using ⟨served, final⟩
          exact absurd (named served_ (by simp [asked])) unnamed
  · refine ⟨[], .ok .done, _, unread readable, fun _ => ⟨rfl, rfl, ?_⟩, fun yes => absurd yes readable, ?_⟩
    · exact ⟨endedRun draws batchID [] .failed (some failureBadMatcher), ⟨rfl, rfl, rfl, rfl⟩,
        progress_unasked rfl ⟨rfl, rfl, rfl⟩⟩
    · intro earlier request later none_
      simp at none_

/-! ## A batch of one row -/

theorem sound_waitingStage (rules : List RuleRow) : Sound (waitingStage rules) where
  once := List.nodup_singleton _
  drawn t stored := by
    rw [List.mem_singleton.mp stored]
    decide
  wide t stored := by
    rw [List.mem_singleton.mp stored]
    decide
  categories := List.nodup_singleton _

theorem drawn_waitingStage (rules : List RuleRow) : Drawn pairedDraws (waitingStage rules) where
  run := nofun
  apart m n i j same := by
    have paired := Nat.pair_eq_pair.mp (Nat.add_left_cancel same)
    exact ⟨Nat.add_right_cancel paired.1, paired.2⟩
  new := nofun

theorem first_waitingStage (rules : List RuleRow) : First pairedDraws 1 (waitingStage rules) where
  stored := ⟨_, List.mem_singleton_self _, rfl⟩
  unopened := nofun

/-- A classifier that proposes this of every request. -/
def proposing (proposals : List Proposal) : BatchRequest → BatchResponse :=
  fun _ => ⟨"1", "1", proposals⟩

theorem offered_exactly_once_sample :
    ∃ requests last, Only sampleSite (proposing [])
        (body sampleSite (.classifyBatch 1 pairedDraws)) (waitingStage []) (requests.map .classify)
        (some (.ok .done)) last ∧
      Classifies sampleSite (proposing []) (waitingStage []) 1 requests last := by
  obtain ⟨requests, outcome, last, only_, -, classified, -⟩ :=
    offered_exactly_once sampleSite (proposing []) (waitingStage []) 1 pairedDraws
      (sound_waitingStage []) (drawn_waitingStage []) (first_waitingStage [])
  obtain ⟨rfl, classifies⟩ := classified ⟨[], rfl⟩ fun request _ =>
    ⟨⟨nofun, nofun, List.nodup_nil⟩, nofun⟩
  exact ⟨requests, last, only_, classifies⟩

def replying (classifier : BatchRequest → BatchResponse) : Question → Option Reply
  | .classify request => some (.proposals (classifier request))
  | .object _ => none

theorem solo_of_follow {job : Job} {asked : List Question} {steps : Nat}
    (followed : follow (body site) (replying classifier) (List.replicate steps .go) job d [] =
      some (asked, result, last)) :
    Solo (body site) (answering classifier) job d [] asked result last := by
  refine Solo.of_follow (fun question response replied => ?_) (fun choice member => ?_) followed
  · cases question with
    | object batchID => cases replied
    | classify request => exact ⟨request, rfl, (Option.some.inj replied).symm⟩
  · rw [List.eq_of_mem_replicate member]
    trivial

/-- A rule of the organisation whose matcher does not unmarshal. -/
def unreadableRule : RuleRow := ⟨1, "1", "1", true, "org", 1, none, 1, true⟩

/-- A rule that cannot be read ends the run before any request, and an answer whose confidence the
table refuses ends the attempt with the run still running. -/
theorem acceptable_answers_not_enough :
    (¬ ∀ (site : Site) (classifier : BatchRequest → BatchResponse) (d : Database) (batchID : UUID)
      (draws : Draws), Sound d → Drawn draws d → First draws batchID d →
      ∀ requests result last, Solo (body site) (answering classifier)
          (body site (.classifyBatch batchID draws)) d [] (requests.map .classify) result last →
        (∀ request ∈ requests, Named request (classifier request) ∧
          Recordable (classifier request)) →
        result = some (.ok .done) ∧ Classifies site classifier d batchID requests last) ∧
    ¬ ∀ (site : Site) (classifier : BatchRequest → BatchResponse) (d : Database) (batchID : UUID)
      (draws : Draws), Sound d → Drawn draws d → First draws batchID d → Readable site d →
      ∀ requests result last, Solo (body site) (answering classifier)
          (body site (.classifyBatch batchID draws)) d [] (requests.map .classify) result last →
        (∀ request ∈ requests, Named request (classifier request)) →
        result = some (.ok .done) ∧ Classifies site classifier d batchID requests last := by
  constructor
  · intro claimed
    have evaluated : (follow (body sampleSite) (replying (proposing [])) (List.replicate 7 .go)
        (body sampleSite (.classifyBatch 1 pairedDraws)) (waitingStage [unreadableRule]) []).map
        (fun ended => (ended.1, ended.2.2.runs.map (·.status))) = some ([], [.failed]) := by
      decide +kernel
    obtain ⟨⟨asked, result, last⟩, followed, same⟩ := Option.map_eq_some_iff.mp evaluated
    obtain ⟨rfl, statuses⟩ := Prod.mk.inj same
    obtain ⟨-, -, run, ended, -⟩ := claimed sampleSite (proposing []) (waitingStage [unreadableRule]) 1
      pairedDraws (sound_waitingStage _) (drawn_waitingStage _) (first_waitingStage _) [] result last
      (solo_of_follow followed) nofun
    rw [ended.runs, List.map_append, List.map_singleton, ended.status] at statuses
    exact absurd statuses (by decide)
  · intro claimed
    let certain := proposing [⟨UUID.text 1, "1.1", "L1", 2, ""⟩]
    let request := chunkRequest sampleSite ⟨[⟨"1.1", "1.1", false⟩], [], [], [("1.1", 1)]⟩
      (sampleTransaction 1 .bank (sampleDay 1) 100) []
    have evaluated : (follow (body sampleSite) (replying certain) (List.replicate 12 .go)
        (body sampleSite (.classifyBatch 1 pairedDraws)) (waitingStage []) []).map
        (fun ended => (ended.1, ended.2.2.runs.map (·.status))) =
          some ([.classify request], [.running]) := by decide +kernel
    obtain ⟨⟨asked, result, last⟩, followed, same⟩ := Option.map_eq_some_iff.mp evaluated
    obtain ⟨rfl, statuses⟩ := Prod.mk.inj same
    have named : Named request (certain request) := by
      refine ⟨fun p proposed => ?_, fun p proposed => ?_, List.nodup_singleton _⟩
      · rw [List.mem_singleton.mp proposed]
        exact List.mem_singleton_self _
      · rw [List.mem_singleton.mp proposed]
        exact List.mem_singleton_self _
    obtain ⟨-, -, run, ended, -⟩ := claimed sampleSite certain (waitingStage []) 1
      pairedDraws (sound_waitingStage _) (drawn_waitingStage _) (first_waitingStage _) ⟨[], rfl⟩
      [request] result last (solo_of_follow followed) (by simpa using named)
    rw [ended.runs, List.map_append, List.map_singleton, ended.status] at statuses
    exact absurd statuses (by decide)

end Vekst.Classify
