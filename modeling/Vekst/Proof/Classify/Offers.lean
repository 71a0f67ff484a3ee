import Vekst.Proof.Classify.Pages
import Vekst.Proof.Ledger.ContentKey

namespace Vekst.Classify
open Isolation Ledger Relational Calendar

variable {site : Site} {classifier : BatchRequest → BatchResponse} {d d' last mid : Database}
  {batchID : UUID} {draws : Draws} {context : BatchContext} {cursor : Cursor} {number : Nat}
  {asked more : List Question} {result : Option Outcome} {earlierRuns : List ClassificationRunRow}
  {run : ClassificationRunRow} {waiting page : List TransactionRow} {resp : BatchResponse}
  {rows : List Classification} {p : Proposal} {row : Classification}

/-! ## Undisturbed transactions -/

/-- The classifier answers every request, and nothing else happens. -/
def answering (classifier : BatchRequest → BatchResponse) : Surroundings Failure Question Reply where
  answers question reply :=
    ∃ request, question = .classify request ∧ reply = .proposals (classifier request)
  lost _ := False
  crashes := False

theorem check_of_fired {writes : List Write}
    (few : ∀ txnID ∈ fired writes, (d.liveOf txnID).length ≤ 1) :
    Store.check d writes = .ok () := by
  apply if_pos
  exact List.all_eq_true.mpr fun txnID member => decide_eq_true (few txnID member)

/-- The commit will count the live classifications of transactions of a list only. -/
def Names (txnIDs : List UUID) (writes : List Write) : Prop := ∀ txnID ∈ fired writes, txnID ∈ txnIDs

theorem names_append {txnIDs : List UUID} {before after : List Write} (old : Names txnIDs before)
    (new : Names txnIDs after) : Names txnIDs (before ++ after) := by
  intro txnID member
  rw [fired, List.filterMap_append] at member
  exact (List.mem_append.mp member).elim (old txnID) (new txnID)

theorem names_attempt {α : Type} {body_ : Tx α} {txnIDs : List UUID} {answer : α}
    {writes : List Write} (emits : body_.Emits fun _ => Names txnIDs)
    (did : body_.attempt d [] = .ok (answer, writes)) : Names txnIDs writes := by
  have opened : Names txnIDs [] := nofun
  exact Prog.attempt_emits emits opened (fun _ _ => names_append) did

theorem solo_calm {α : Type} {next : Except Failure α → Job} {body_ : Tx α} {txnIDs : List UUID}
    (emits : body_.Emits fun _ => Names txnIDs)
    (few : ∀ answer after, body_.run Store.apply d = .ok (answer, after) →
      ∀ txnID ∈ txnIDs, (after.liveOf txnID).length ≤ 1) :
    Solo (body site) (answering classifier) (inTx next body_) d [] asked result last ↔
      match body_.run Store.apply d with
      | .ok (answer, after) =>
          Solo (body site) (answering classifier) (next (.ok answer)) after [] asked result last
      | .error e =>
          Solo (body site) (answering classifier) (next (.error e)) d [] asked result last := by
  have whole : ¬ (answering classifier).crashes := id
  have safe : ∀ e, ¬ (answering classifier).lost e := fun _ => id
  refine (solo_inTx_iff whole safe fun answer writes did => ?_).trans ?_
  · apply check_of_fired
    intro txnID member
    exact few answer _ (Prog.run_of_attempt did) txnID (names_attempt emits did txnID member)
  · cases body_.run Store.apply d <;> rfl

/-! ## What the bodies of a run name -/

theorem names_query {α : Type} (f : Database → Except Failure α) :
    (Prog.query f : Tx α).Emits fun _ => Names [] :=
  Prog.emits_query (fun _ => nofun) f

theorem names_requestContext (site : Site) : (requestContext site).Emits fun _ => Names [] := by
  apply Prog.emits_bind (names_query _)
  intro cats
  apply Prog.emits_bind (names_query _)
  intro rules
  apply Prog.emits_bind (Prog.emits_ofExcept _)
  intro rules
  exact Prog.emits_bind (names_query _) fun _ => trivial

theorem names_insertClassificationRun (id : UUID) (now : Timestamp) (batchID : UUID) :
    (insertClassificationRun id now batchID).Emits fun _ => Names [] := by
  apply Prog.emits_exec
  intro d writes answer success
  obtain ⟨_, -, made⟩ := bind_ok.mp success
  obtain ⟨rfl, -⟩ := Prod.mk.inj (Except.ok.inj made)
  nofun

theorem names_updateRunning (txnIDs : List UUID) (batchID : UUID)
    (change : ClassificationRunRow → ClassificationRunRow) :
    (updateRunning batchID change).Emits fun _ => Names txnIDs := by
  apply Prog.emits_exec
  intro d writes answer success
  split at success
  next => cases success
  next run found =>
    obtain ⟨rfl, -⟩ := Prod.mk.inj (Except.ok.inj success)
    nofun

theorem names_storeChunk (batchID : UUID) (draws : Draws) (number : Nat)
    (rows : List Classification) (offered : Nat) :
    (storeChunk batchID draws number rows offered).Emits fun _ =>
      Names (rows.map (·.transactionID)) := by
  apply Prog.emits_bind
  · apply Prog.emits_forM
    rintro ⟨c, i⟩ listed
    refine Prog.emits_bind (Prog.emits_exec ?_) fun _ => trivial
    intro d writes answer success txnID member
    obtain ⟨_, -, made⟩ := bind_ok.mp success
    obtain ⟨rfl, rfl⟩ := Prod.mk.inj (Except.ok.inj made)
    obtain rfl : txnID = c.transactionID := by simpa [fired, Write.oneLiveFires, toRow] using member
    exact List.mem_map_of_mem ((List.mem_zipIdx' listed).2 ▸ List.getElem_mem _)
  · intro _
    exact names_updateRunning _ _ _

/-! ## The one way a job goes -/

/-- Undisturbed, the job asks these questions, ends so and leaves this. -/
def Only (site : Site) (classifier : BatchRequest → BatchResponse) (job : Job) (d : Database)
    (asked : List Question) (result : Option Outcome) (last : Database) : Prop :=
  ∀ asked' result' last', Solo (body site) (answering classifier) job d [] asked' result' last' ↔
    asked' = asked ∧ result' = result ∧ last' = last

theorem only_done (outcome : Outcome) :
    Only site classifier (.done outcome) d [] (some outcome) d := by
  intro asked result last
  constructor
  · intro run
    cases run with
    | done => exact ⟨rfl, rfl, rfl⟩
    | crash may => exact absurd may id
  · rintro ⟨rfl, rfl, rfl⟩
    exact .done

theorem only_jump {label : Label} (rest : Only site classifier (body site label) d asked result last) :
    Only site classifier (.jump label) d asked result last := by
  intro asked' result' last'
  rw [← rest]
  constructor
  · intro run
    cases run with
    | jump later => exact later
    | crash may => exact absurd may id
  · exact .jump

theorem only_ask {request : BatchRequest} {next : Except Failure Reply → Job}
    (rest : Only site classifier (next (.ok (.proposals (classifier request)))) d asked result last) :
    Only site classifier (.ask (.classify request) next) d (.classify request :: asked) result
      last := by
  intro asked' result' last'
  constructor
  · intro run
    cases run with
    | answer given later =>
        obtain ⟨_, same, rfl⟩ := given
        obtain rfl := Question.classify.inj same
        obtain ⟨rfl, rfl, rfl⟩ := (rest _ _ _).mp later
        exact ⟨rfl, rfl, rfl⟩
    | unanswered lost _ => exact absurd lost id
    | crash may => exact absurd may id
  · rintro ⟨rfl, rfl, rfl⟩
    exact .answer ⟨request, rfl, rfl⟩ ((rest _ _ _).mpr ⟨rfl, rfl, rfl⟩)

section Transactions

variable {α : Type} {next : Except Failure α → Job} {body_ : Tx α} {txnIDs : List UUID}

theorem only_inTx_ok {answer : α} (emits : body_.Emits fun _ => Names txnIDs)
    (ran : body_.run Store.apply d = .ok (answer, mid))
    (few : ∀ txnID ∈ txnIDs, (mid.liveOf txnID).length ≤ 1)
    (rest : Only site classifier (next (.ok answer)) mid asked result last) :
    Only site classifier (inTx next body_) d asked result last := by
  intro asked' result' last'
  have all : ∀ answer after, body_.run Store.apply d = .ok (answer, after) →
      ∀ txnID ∈ txnIDs, (after.liveOf txnID).length ≤ 1 := by
    intro answer' after again
    obtain ⟨-, rfl⟩ := Prod.mk.inj (Except.ok.inj (ran.symm.trans again))
    exact few
  rw [solo_calm emits all, ran]
  exact rest _ _ _

theorem only_inTx_error {e : Failure} (emits : body_.Emits fun _ => Names txnIDs)
    (ran : body_.run Store.apply d = .error e)
    (rest : Only site classifier (next (.error e)) d asked result last) :
    Only site classifier (inTx next body_) d asked result last := by
  intro asked' result' last'
  have none_ : ∀ answer after, body_.run Store.apply d = .ok (answer, after) →
      ∀ txnID ∈ txnIDs, (after.liveOf txnID).length ≤ 1 := by
    intro answer after done_
    cases ran.symm.trans done_
  rw [solo_calm emits none_, ran]
  exact rest _ _ _

end Transactions

/-- A run that is over. -/
def closed (run : ClassificationRunRow) (draws : Draws) (status : RunStatus)
    (failureCode : Option String) : ClassificationRunRow :=
  { run with status, failureCode, finishedAt := some (draws.now closeOrdinal) }

theorem only_close (opened : Opened earlierRuns run d) (running : run.status = .running)
    (status : RunStatus) (failureCode : Option String) :
    Only site classifier (inTx settle (finishClassificationRun run.batchID (draws.now closeOrdinal)
      status failureCode)) d [] (some (.ok .done))
      { d with runs := earlierRuns ++ [closed run draws status failureCode] } := by
  have ran : (finishClassificationRun run.batchID (draws.now closeOrdinal) status failureCode).run
      Store.apply d = .ok ((), { d with
        runs := earlierRuns ++ [closed run draws status failureCode] }) :=
    (opened.run_updateRunning running rfl).mpr rfl
  exact only_inTx_ok (names_updateRunning [] _ _) ran nofun (only_done _)

/-! ## The chunks of a run -/

/-- A page, what was asked of it, and what of the answer is stored. -/
structure Chunk where
  page : List TransactionRow
  request : BatchRequest
  rows : List Classification

def Asks (site : Site) (context : BatchContext) (page : List TransactionRow)
    (request : BatchRequest) : Prop :=
  ∃ first others, page = first :: others ∧ request = chunkRequest site context first others

structure Chunk.Served (site : Site) (classifier : BatchRequest → BatchResponse)
    (context : BatchContext) (chunk : Chunk) : Prop where
  asks : Asks site context chunk.page chunk.request
  accepted : chunkClassifications site context chunk.page (classifier chunk.request) = .ok chunk.rows

def storedChunks (draws : Draws) : Nat → List Chunk → List ClassificationRow
  | _, [] => []
  | number, chunk :: chunks =>
      storedClassifications draws number chunk.rows ++ storedChunks draws (number + 1) chunks

def countedChunks (run : ClassificationRunRow) (chunks : List Chunk) : ClassificationRunRow :=
  chunks.foldl (fun run chunk => counted run chunk.rows.length chunk.page.length) run

/-- The state with the chunks stored, and the run as it then stands. -/
def progressed (d : Database) (earlierRuns : List ClassificationRunRow) (draws : Draws)
    (number : Nat) (chunks : List Chunk) (run : ClassificationRunRow) : Database :=
  { d with
    classifications := d.classifications ++ storedChunks draws number chunks
    runs := earlierRuns ++ [run] }

/-- How a run goes on from a state in which rows wait. -/
inductive Ends (site : Site) (classifier : BatchRequest → BatchResponse) (context : BatchContext)
    (draws : Draws) (earlierRuns : List ClassificationRunRow) (number : Nat)
    (run : ClassificationRunRow) (waiting : List TransactionRow) (d : Database) :
    List BatchRequest → Option Outcome → Database → Prop
  | finished (chunks : List Chunk) (served : ∀ chunk ∈ chunks, chunk.Served site classifier context)
      (all : waiting = chunks.flatMap (·.page)) :
      Ends site classifier context draws earlierRuns number run waiting d (chunks.map (·.request))
        (some (.ok .done)) (progressed d earlierRuns draws number chunks
          (closed (countedChunks run chunks) draws .classified none))
  | refused (chunks : List Chunk) (served : ∀ chunk ∈ chunks, chunk.Served site classifier context)
      (page rest : List TransactionRow) (all : waiting = chunks.flatMap (·.page) ++ page ++ rest)
      (request : BatchRequest) (asks : Asks site context page request)
      (refusal : chunkClassifications site context page (classifier request) =
        .error (.fatal failureUnknownCategory)) :
      Ends site classifier context draws earlierRuns number run waiting d
        (chunks.map (·.request) ++ [request]) (some (.ok .done))
        (progressed d earlierRuns draws number chunks
          (closed (countedChunks run chunks) draws .failed (some failureUnknownCategory)))
  | broken (chunks : List Chunk) (served : ∀ chunk ∈ chunks, chunk.Served site classifier context)
      (chunk : Chunk) (last : chunk.Served site classifier context) (rest : List TransactionRow)
      (all : waiting = chunks.flatMap (·.page) ++ chunk.page ++ rest)
      (refused : ¬ Storable (progressed d earlierRuns draws number chunks (countedChunks run chunks))
        (storedClassifications draws (number + chunks.length) chunk.rows))
      (result : Option Outcome) (last : Database) :
      Ends site classifier context draws earlierRuns number run waiting d
        (chunks.map (·.request) ++ [chunk.request]) result last

theorem progressed_cons (chunk : Chunk) (chunks : List Chunk) {between next : ClassificationRunRow} :
    progressed (progressed d earlierRuns draws number [chunk] between) earlierRuns draws (number + 1)
      chunks next = progressed d earlierRuns draws number (chunk :: chunks) next := by
  simp only [progressed, storedChunks, List.append_nil, List.append_assoc]

/-- A chunk that is served goes before what follows it. -/
theorem Ends.cons {requests : List BatchRequest} {chunk : Chunk}
    (served : chunk.Served site classifier context)
    (ends : Ends site classifier context draws earlierRuns (number + 1)
      (counted run chunk.rows.length chunk.page.length) waiting (progressed d earlierRuns draws number
        [chunk] (counted run chunk.rows.length chunk.page.length)) requests result last) :
    Ends site classifier context draws earlierRuns number run (chunk.page ++ waiting) d
      (chunk.request :: requests) result last := by
  have all {chunks : List Chunk} (others : ∀ c ∈ chunks, c.Served site classifier context) :
      ∀ c ∈ chunk :: chunks, c.Served site classifier context :=
    List.forall_mem_cons.mpr ⟨served, others⟩
  cases ends with
  | finished chunks others covered =>
      rw [progressed_cons, covered]
      exact .finished (chunk :: chunks) (all others) rfl
  | refused chunks others page rest covered request asks refusal =>
      rw [progressed_cons, covered]
      exact .refused (chunk :: chunks) (all others) page rest (by simp) request asks refusal
  | broken chunks others final served_ rest covered refused =>
      rw [progressed_cons] at refused
      rw [covered]
      refine .broken (chunk :: chunks) (all others) final served_ rest (by simp) ?_ result last
      rw [List.length_cons, ← Nat.add_assoc, Nat.add_right_comm]
      exact refused

theorem length_liveOf_stored {new : List ClassificationRow} {runs : List ClassificationRunRow}
    {txnID : UUID} (none_ : d.liveOf txnID = []) (once : (new.map (·.transactionID)).Nodup) :
    (Database.liveOf { d with classifications := d.classifications ++ new, runs } txnID).length ≤
      1 := by
  have only_ : (new.filter fun c => c.transactionID = txnID && c.live).length ≤ 1 := by
    have same : (new.filter fun c => c.transactionID = txnID && c.live).map (·.transactionID) =
        List.replicate _ txnID :=
      List.map_eq_replicate_iff.mpr fun c member => by
        have kept := (List.mem_filter.mp member).2
        rw [Bool.and_eq_true] at kept
        exact of_decide_eq_true kept.1
    have kept : ((new.filter fun c => c.transactionID = txnID && c.live).map
        (·.transactionID)).Nodup := once.sublist (List.filter_sublist.map _)
    rw [same] at kept
    exact List.nodup_replicate.mp kept
  have split_ : Database.liveOf { d with classifications := d.classifications ++ new, runs } txnID =
      d.liveOf txnID ++ new.filter fun c => c.transactionID = txnID && c.live :=
    List.filter_append _ _
  rw [split_, none_, List.nil_append]
  exact only_

theorem ids_storedClassifications (draws : Draws) (number : Nat) (rows : List Classification) :
    (storedClassifications draws number rows).map (·.transactionID) =
      rows.map (·.transactionID) := by
  have listed : (storedClassifications draws number rows).map (·.transactionID) =
      (rows.zipIdx.map Prod.fst).map (·.transactionID) := by
    rw [storedClassifications, List.map_map, List.map_map]
    rfl
  rw [listed, List.zipIdx_map_fst]

/-- The rows that wait, and a run to count them. -/
structure Waits (site : Site) (batchID : UUID) (earlierRuns : List ClassificationRunRow)
    (cursor : Cursor) (run : ClassificationRunRow) (waiting : List TransactionRow) (d : Database) :
    Prop where
  keyed : Keyed d
  opened : Opened earlierRuns run d
  own : run.batchID = batchID
  running : run.status = .running
  behind : waitingBehind d batchID cursor = waiting

theorem progressed_nil :
    progressed d earlierRuns draws number [] run = { d with runs := earlierRuns ++ [run] } := by
  simp only [progressed, storedChunks, List.append_nil]

theorem progressed_one (chunk : Chunk) : progressed d earlierRuns draws number [chunk] run = { d with
    classifications := d.classifications ++ storedClassifications draws number chunk.rows
    runs := earlierRuns ++ [run] } := by
  simp only [progressed, storedChunks, List.append_nil]

theorem liveOf_eq_nil_of_waits {t : TransactionRow} (waits : t ∈ waitingBehind d batchID cursor) :
    d.liveOf t.id = [] :=
  unanswered_iff_unclassified.mp (mem_waitingBehind.mp waits).2.1

/-- The transactions that an accepted answer names had no live classification. -/
theorem liveOf_of_accepted (split_ : waitingBehind d batchID cursor = page ++ waiting)
    (accepted : chunkClassifications site context page resp = .ok rows) :
    ∀ txnID ∈ rows.map (·.transactionID), d.liveOf txnID = [] := by
  intro txnID member
  obtain ⟨row, listed, rfl⟩ := List.mem_map.mp member
  obtain ⟨p, -, answers⟩ := exists_left_of_forall₂ (chunkClassifications_ok.mp accepted).1 listed
  obtain ⟨t, shown, id, -⟩ := mem_page_of_answers answers
  rw [← id]
  exact liveOf_eq_nil_of_waits (split_ ▸ List.mem_append_left _ shown)

theorem exists_course {batchID : UUID} {cursor : Cursor} {number : Nat} {run : ClassificationRunRow}
    {waiting : List TransactionRow} {d : Database}
    (waits : Waits site batchID earlierRuns cursor run waiting d) :
    ∃ requests result last,
      Only site classifier (classifyPage site batchID draws context cursor number) d
        (requests.map .classify) result last ∧
      Ends site classifier context draws earlierRuns number run waiting d requests result last := by
  obtain ⟨keyed, opened, rfl, running, behind_⟩ := waits
  have read : (Prog.query fun d => .ok (unclassifiedTransactions d run.batchID cursor
      (pageSize site)) : Tx (List TransactionRow)).run Store.apply d =
        .ok (waiting.take (pageSize site), d) :=
    (Prog.run_query_ok _).mpr ⟨by rw [unclassifiedTransactions_eq, behind_], rfl⟩
  cases page : waiting.take (pageSize site) with
  | nil =>
      rw [page] at read
      obtain rfl := (List.take_eq_nil_iff.mp page).resolve_left (pageSize_pos site).ne'
      have ends : Ends site classifier context draws earlierRuns number run [] d _ _ _ :=
        .finished [] nofun rfl
      rw [progressed_nil] at ends
      exact ⟨[], _, _, only_inTx_ok (names_query _) read nofun (only_close opened running _ _), ends⟩
  | cons first others =>
      rw [page] at read
      have split_ : waiting = (first :: others) ++ waiting.drop (pageSize site) := by
        rw [← page, List.take_append_drop]
      cases accepted : chunkClassifications site context (first :: others)
          (classifier (chunkRequest site context first others)) with
      | error e =>
          obtain rfl := chunkClassifications_error accepted
          have ends : Ends site classifier context draws earlierRuns number run waiting d _ _ _ :=
            .refused [] nofun (first :: others) _ split_ _ ⟨first, others, rfl, rfl⟩ accepted
          rw [progressed_nil] at ends
          refine ⟨_, _, _, only_inTx_ok (names_query _) read nofun (only_ask ?_), ends⟩
          dsimp only
          rw [writeChunk, accepted]
          exact only_close opened running _ _
      | ok rows =>
          let chunk : Chunk := ⟨first :: others, chunkRequest site context first others, rows⟩
          have served : chunk.Served site classifier context := ⟨⟨first, others, rfl, rfl⟩, accepted⟩
          have ends : (first :: others).getLast? = some (others.getLast?.getD first) :=
            List.getLast?_cons
          have named : ∀ txnID ∈ rows.map (·.transactionID), d.liveOf txnID = [] :=
            liveOf_of_accepted (behind_.trans split_) accepted
          by_cases storable : Storable d (storedClassifications draws number rows)
          · have ran : (storeChunk run.batchID draws number rows (first :: others).length).run
                Store.apply d = .ok ((), progressed d earlierRuns draws number [chunk]
                  (counted run rows.length (first :: others).length)) :=
              (opened.run_storeChunk running).mpr ⟨storable, progressed_one chunk⟩
            have next : Waits site run.batchID earlierRuns (behind (others.getLast?.getD first))
                (counted run rows.length (first :: others).length) (waiting.drop (pageSize site))
                (progressed d earlierRuns draws number [chunk]
                  (counted run rows.length (first :: others).length)) := by
              rw [progressed_one]
              exact ⟨keyed.of_transactions rfl, ⟨rfl, opened.apart⟩, rfl, running,
                waitingBehind_stored keyed (behind_.trans split_) ends accepted⟩
            obtain ⟨requests, result, last, only_, ends⟩ := exists_course next
            have course := ends.cons served
            rw [← split_] at course
            refine ⟨chunk.request :: requests, result, last, ?_, course⟩
            rw [List.map_cons]
            refine only_inTx_ok (names_query _) read nofun (only_ask ?_)
            dsimp only
            rw [writeChunk, accepted]
            refine only_inTx_ok (names_storeChunk _ _ _ _ _) ran ?_ (only_jump only_)
            intro txnID member
            rw [progressed_one]
            apply length_liveOf_stored (named txnID member)
            rw [ids_storedClassifications]
            exact (chunkClassifications_ok.mp accepted).2
          · have ran : ∃ e, (storeChunk run.batchID draws number rows (first :: others).length).run
                Store.apply d = .error e := by
              cases ran : (storeChunk run.batchID draws number rows (first :: others).length).run
                  Store.apply d with
              | error e => exact ⟨e, rfl⟩
              | ok stored => exact absurd ((opened.run_storeChunk running).mp ran).1 storable
            obtain ⟨e, ran⟩ := ran
            obtain ⟨result, last, only_⟩ : ∃ result last, Only site classifier
                (writeChunk site run.batchID draws context number (first :: others)
                  (classifier chunk.request) (.jump (.classifyPage run.batchID draws context
                    (behind (others.getLast?.getD first)) (number + 1)))) d [] result last := by
              rw [writeChunk, accepted]
              cases e
              case fatal code => exact ⟨_, _, only_inTx_error (names_storeChunk _ _ _ _ _) ran
                (only_close opened running _ _)⟩
              all_goals exact ⟨_, _, only_inTx_error (names_storeChunk _ _ _ _ _) ran (only_done _)⟩
            have broken : Ends site classifier context draws earlierRuns number run waiting d
                ([chunk.request]) result last := by
              refine .broken [] nofun chunk served _ split_ ?_ result last
              rw [progressed_nil]
              exact fun kept => storable (kept.of_tables rfl rfl rfl)
            refine ⟨[chunk.request], result, last, ?_, broken⟩
            rw [List.map_cons]
            exact only_inTx_ok (names_query _) read nofun (only_ask only_)
  termination_by waiting.length
  decreasing_by
    have shown : 0 < (waiting.take (pageSize site)).length := by
      rw [page, List.length_cons]
      omega
    rw [List.length_take] at shown
    rw [List.length_drop]
    omega

end Vekst.Classify
