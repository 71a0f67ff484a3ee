import Vekst.Isolation.Solo
import Vekst.Proof.Classify.Pages

namespace Vekst.Classify
open Isolation Ledger Relational Calendar

/-- The transactions put to the classifier. -/
def offered (asked : List Question) : List String :=
  asked.flatMap fun
    | .classify request => request.txns.map (·.transactionID)
    | .object _ => []

def success : Option Outcome := some (.ok .done)

variable {site : Site} {around : Surroundings Failure Question Reply} {d last mid : Database}
  {batchID : UUID} {draws : Draws} {context : BatchContext} {cursor : Cursor} {number : Nat}
  {asked more : List Question} {result : Option Outcome} {earlierRuns : List ClassificationRunRow}
  {run : ClassificationRunRow} {waiting page : List TransactionRow} {resp : BatchResponse}

/-! ## What an attempt leaves of its run -/

/-- The run has failed, or has been classified with all that waited put to the classifier. -/
def Settled (earlierRuns : List ClassificationRunRow) (batchID : UUID)
    (waiting : List TransactionRow) (asked : List Question) (d : Database) : Prop :=
  ∃ run, Opened earlierRuns run d ∧ run.batchID = batchID ∧
    (run.status = .failed ∨ run.status = .classified ∧ ∀ t ∈ waiting, t.id.text ∈ offered asked)

def Running (earlierRuns : List ClassificationRunRow) (batchID : UUID) (d : Database) : Prop :=
  ∃ run, Opened earlierRuns run d ∧ run.batchID = batchID ∧ run.status = .running

theorem Settled.ahead {rest : List TransactionRow} (settled : Settled earlierRuns batchID rest asked d)
    (shown : ∀ t ∈ page, t.id.text ∈ offered more) (later : offered asked ⊆ offered more) :
    Settled earlierRuns batchID (page ++ rest) more d := by
  obtain ⟨run, opened, own, failed | ⟨classified, all⟩⟩ := settled
  · exact ⟨run, opened, own, .inl failed⟩
  · refine ⟨run, opened, own, .inr ⟨classified, fun t member => ?_⟩⟩
    rcases List.mem_append.mp member with early | late
    · exact shown t early
    · exact later (all t late)

/-- The end of an attempt that stores the run's outcome. -/
theorem solo_finishing {status : RunStatus} {code : Option String} {now : Timestamp}
    (opened : Running earlierRuns batchID d)
    (attempt : Solo (body site) around
      (inTx settle (finishClassificationRun batchID now status code)) d [] asked result last) :
    asked = [] ∧ ((∃ run, Opened earlierRuns run last ∧ run.batchID = batchID ∧ run.status = status) ∨
      last = d ∧ result ≠ success) := by
  obtain ⟨run, opened, rfl, running⟩ := opened
  cases solo_inTx attempt with
  | committed did _ rest =>
      obtain ⟨rfl, nothing, -⟩ := rest.of_done
      have after := (opened.run_updateRunning running rfl).mp (Prog.run_of_attempt did)
      rw [after]
      exact ⟨nothing, .inl ⟨_, opened.becomes rfl rfl, rfl, rfl⟩⟩
  | failed _ rest =>
      obtain ⟨rfl, nothing, outcome⟩ := rest.of_done
      exact ⟨nothing, .inr ⟨rfl, by rcases outcome with rfl | rfl <;> nofun⟩⟩
  | stopped _ nothing =>
      obtain ⟨unasked, rfl, rfl⟩ := nothing
      exact ⟨unasked, .inr ⟨rfl, nofun⟩⟩

/-! ## One page after another -/

/-- What becomes of a chunk that was answered. -/
inductive ChunkEnds (site : Site) (around : Surroundings Failure Question Reply) (batchID : UUID)
    (draws : Draws) (context : BatchContext) (number : Nat) (page : List TransactionRow)
    (resp : BatchResponse) (next : Job) (d : Database) (asked : List Question)
    (result : Option Outcome) (last : Database) : Prop
  | unsuccessful (nothing : asked = [] ∧ last = d) (failed : result ≠ success)
  | refused (code : String)
      (rest : Solo (body site) around (fail batchID draws code) d [] asked result last)
  | stored (rows : List Classification) (after : Database)
      (accepted : chunkClassifications site context page resp = .ok rows)
      (ran : (storeChunk batchID draws number rows page.length).run Store.apply d = .ok ((), after))
      (rest : Solo (body site) around next after [] asked result last)

theorem solo_error {e : Failure}
    (attempt : Solo (body site) around (.done (.error e)) d [] asked result last) :
    (asked = [] ∧ last = d) ∧ result ≠ success := by
  obtain ⟨left, nothing, outcome⟩ := attempt.of_done
  exact ⟨⟨nothing, left⟩, by rcases outcome with rfl | rfl <;> nofun⟩

theorem solo_writeChunk {next : Job} (attempt : Solo (body site) around
    (writeChunk site batchID draws context number page resp next) d [] asked result last) :
    ChunkEnds site around batchID draws context number page resp next d asked result last := by
  unfold writeChunk at attempt
  split at attempt
  next code _ => exact .refused code attempt
  next =>
    obtain ⟨nothing, failed⟩ := solo_error attempt
    exact .unsuccessful nothing failed
  next rows accepted =>
    cases solo_inTx attempt with
    | committed did _ rest => exact .stored rows _ accepted (Prog.run_of_attempt did) rest
    | @failed e _ rest =>
        split at rest
        next same => cases same
        next code _ => exact .refused code rest
        next =>
          obtain ⟨nothing, failed⟩ := solo_error rest
          exact .unsuccessful nothing failed
    | stopped _ nothing =>
        obtain ⟨unasked, rfl, rfl⟩ := nothing
        exact .unsuccessful ⟨unasked, rfl⟩ nofun

/-- What becomes of a turn of the loop. -/
inductive PageEnds (site : Site) (around : Surroundings Failure Question Reply) (batchID : UUID)
    (draws : Draws) (context : BatchContext) (cursor : Cursor) (number : Nat) (d : Database)
    (asked : List Question) (result : Option Outcome) (last : Database) : Prop
  | unsuccessful (left : last = d) (failed : result ≠ success)
  | finished (empty : waitingBehind d batchID cursor = [])
      (rest : Solo (body site) around (finish batchID draws) d [] asked result last)
  | refused (code : String) (more : List Question)
      (rest : Solo (body site) around (fail batchID draws code) d [] more result last)
  | answered (first : TransactionRow) (others : List TransactionRow) (resp : BatchResponse)
      (more : List Question)
      (page : (waitingBehind d batchID cursor).take (pageSize site) = first :: others)
      (sent : asked = .classify (chunkRequest site context first others) :: more)
      (rest : Solo (body site) around
        (writeChunk site batchID draws context number (first :: others) resp
          (.jump (.classifyPage batchID draws context (behind (others.getLast?.getD first))
            (number + 1)))) d [] more result last)

theorem solo_classifyPage_cases (attempt : Solo (body site) around
    (classifyPage site batchID draws context cursor number) d [] asked result last) :
    PageEnds site around batchID draws context cursor number d asked result last := by
  cases solo_inTx attempt with
  | @committed read writes did _ rest =>
      rw [Prog.attempt_query, visible_nil] at did
      obtain ⟨rfl, rfl⟩ := Prod.mk.inj (Except.ok.inj did)
      rw [visible_nil, unclassifiedTransactions_eq] at rest
      dsimp only at rest
      split at rest
      next same => cases same
      next same =>
        have empty := Except.ok.inj same
        rw [List.take_eq_nil_iff] at empty
        exact .finished (empty.resolve_left (pageSize_pos site).ne') rest
      next first others same =>
        have page := Except.ok.inj same
        cases rest with
        | crash may => exact .unsuccessful rfl nofun
        | @answer _ reply _ _ _ _ more _ given rest =>
            cases reply with
            | statement parsed => exact .unsuccessful (solo_error rest).1.2 (solo_error rest).2
            | proposals resp => exact .answered first others resp more page rfl rest
        | @unanswered _ e _ _ _ _ more _ lost rest =>
            by_cases rejected : e = .classifierRejected
            · subst rejected
              exact .refused failureRejected more rest
            · have failed : Solo (body site) around (.done (.error e)) d [] more result last := by
                cases e
                case classifierRejected => exact absurd rfl rejected
                all_goals exact rest
              exact .unsuccessful (solo_error failed).1.2 (solo_error failed).2
  | failed _ rest =>
      obtain ⟨nothing, failed⟩ := solo_error rest
      exact .unsuccessful nothing.2 failed
  | stopped _ nothing =>
      obtain ⟨-, rfl, rfl⟩ := nothing
      exact .unsuccessful rfl nofun

theorem offered_classify {first : TransactionRow} {others : List TransactionRow}
    {t : TransactionRow} (sent : t ∈ first :: others) :
    t.id.text ∈ offered (.classify (chunkRequest site context first others) :: more) := by
  rw [offered, List.flatMap_cons]
  apply List.mem_append_left
  simp only [chunkRequest, toClassifyBatch, List.map_map]
  exact List.mem_map.mpr ⟨t, sent, rfl⟩

/-- A row that waits behind the cursor of a running run is put to the classifier before the run is
classified. -/
theorem solo_classifyPage {d last : Database} {batchID : UUID} {cursor : Cursor} {number : Nat}
    {asked : List Question} {result : Option Outcome} (running : Running earlierRuns batchID d)
    (keyed : Keyed d) (attempt : Solo (body site) around
      (classifyPage site batchID draws context cursor number) d [] asked result last) :
    Settled earlierRuns batchID (waitingBehind d batchID cursor) asked last ∨
      Running earlierRuns batchID last ∧ result ≠ success := by
  have settles {status : RunStatus} {code : Option String} {now : Timestamp} {asked more}
      (attempt : Solo (body site) around (inTx settle (finishClassificationRun batchID now status code))
        d [] asked result last) (ends : status = .failed ∨ status = .classified ∧
          ∀ t ∈ waitingBehind d batchID cursor, t.id.text ∈ offered more) :
      Settled earlierRuns batchID (waitingBehind d batchID cursor) more last ∨
        Running earlierRuns batchID last ∧ result ≠ success := by
    obtain ⟨-, ⟨run, opened, own, rfl⟩ | ⟨rfl, failed⟩⟩ := solo_finishing running attempt
    · exact .inl ⟨run, opened, own, ends⟩
    · exact .inr ⟨running, failed⟩
  cases solo_classifyPage_cases attempt with
  | unsuccessful left failed => exact .inr ⟨left ▸ running, failed⟩
  | finished empty rest => exact settles rest (.inr ⟨rfl, by simp [empty]⟩)
  | refused code more rest => exact settles rest (.inl rfl)
  | answered first others resp more page sent rest =>
      subst sent
      cases solo_writeChunk rest with
      | unsuccessful nothing failed => exact .inr ⟨nothing.2 ▸ running, failed⟩
      | refused code rest => exact settles rest (.inl rfl)
      | stored rows after accepted ran rest =>
          have split_ := (List.take_append_drop (pageSize site) (waitingBehind d batchID cursor)).symm
          rw [page] at split_
          have ends : (first :: others).getLast? = some (others.getLast?.getD first) :=
            List.getLast?_cons
          obtain ⟨run, opened, rfl, status⟩ := running
          obtain ⟨-, rfl⟩ := (opened.run_storeChunk status).mp ran
          have still : Running earlierRuns run.batchID { d with
              classifications := d.classifications ++ storedClassifications draws number rows
              runs := earlierRuns ++ [counted run rows.length (first :: others).length] } :=
            ⟨_, ⟨rfl, opened.apart⟩, rfl, status⟩
          cases rest with
          | crash may => exact .inr ⟨still, nofun⟩
          | jump rest =>
              have later := solo_classifyPage still (keyed.of_transactions rfl) rest
              rw [waitingBehind_stored keyed split_ ends accepted] at later
              rw [split_]
              refine later.imp_left fun settled => settled.ahead (fun t => offered_classify) ?_
              exact List.subset_append_right _ _
  termination_by asked.length

/-! ## An attempt -/

/-- The classifier answers as it likes, refuses or is out of reach; statements and commits fail for
a while; and an attempt may be cut off anywhere. -/
def flaky : Surroundings Failure Question Reply where
  answers _ _ := True
  lost e := e = .transient ∨ e = .classifierRejected
  crashes := True

theorem solo_classifyRows (running : Running earlierRuns batchID d) (keyed : Keyed d)
    (attempt : Solo (body site) around (classifyRows site batchID draws) d [] asked result last) :
    Settled earlierRuns batchID (waitingBehind d batchID startCursor) asked last ∨
      Running earlierRuns batchID last ∧ result ≠ success := by
  cases solo_inTx attempt with
  | committed did _ rest =>
      obtain ⟨same, -⟩ := run_requestContext_ok.mp (Prog.run_of_attempt did)
      rw [same] at rest
      cases rest with
      | crash may => exact .inr ⟨running, nofun⟩
      | jump rest => exact solo_classifyPage running keyed rest
  | @failed e _ rest =>
      split at rest
      next code _ =>
        obtain ⟨-, ⟨run, opened, own, failed⟩ | ⟨rfl, failed⟩⟩ := solo_finishing running rest
        · exact .inl ⟨run, opened, own, .inl failed⟩
        · exact .inr ⟨running, failed⟩
      next =>
        obtain ⟨⟨-, rfl⟩, failed⟩ := solo_error rest
        exact .inr ⟨running, failed⟩
      next same => cases same
  | stopped _ nothing =>
      obtain ⟨-, rfl, rfl⟩ := nothing
      exact .inr ⟨running, nofun⟩

/-- The name of the constraint that lets a batch have one run. -/
def oneRunPerBatch : Failure := .constraint "classification_runs_org_id_batch_id_key"

theorem exists_run_of_checkRun {row : ClassificationRunRow}
    (refused : checkRun d row = .error oneRunPerBatch) : ∃ r ∈ d.runs, r.batchID = row.batchID := by
  rcases bind_error.mp refused with first | ⟨_, -, refused⟩
  · exact absurd (require_error.mp first).2 (by decide)
  rcases bind_error.mp refused with second | ⟨_, -, third⟩
  · by_contra none_
    push Not at none_
    have all : d.runs.all (·.batchID ≠ row.batchID) := by
      simpa using none_
    exact Bool.false_ne_true ((require_error.mp second).1.symm.trans all)
  · exact absurd (require_error.mp third).2 (by decide)

/-- Where the insert fails for another run of the batch, there is one. -/
theorem exists_run_of_refused {id : UUID} {now : Timestamp}
    (refused : (insertClassificationRun id now batchID).attempt d [] = .error oneRunPerBatch) :
    ∃ r ∈ d.runs, r.batchID = batchID := by
  have failed := Prog.attempt_error.mp refused
  rw [insertClassificationRun, Prog.run_exec] at failed
  cases checked : checkRun d (openingRun id now batchID) with
  | ok _ =>
      unfold openingRun at checked
      simp [checked, bind, Except.bind, pure, Except.pure, Except.map] at failed
  | error e =>
      unfold openingRun at checked
      obtain rfl : e = oneRunPerBatch := by
        simpa [checked, bind, Except.bind, Except.map] using failed
      exact exists_run_of_checkRun checked

/-- An attempt that finds no run of its batch opens one, and leaves it running only when it does
not succeed. -/
theorem solo_classifyBatch (unopened : ∀ r ∈ d.runs, r.batchID ≠ batchID) (keyed : Keyed d)
    (attempt : Solo (body site) flaky (classifyBatch site batchID draws) d [] asked result last) :
    last = d ∧ result ≠ success ∨
      Settled d.runs batchID (waitingBehind d batchID startCursor) asked last ∨
        Running d.runs batchID last ∧ result ≠ success := by
  cases solo_inTx attempt with
  | committed did _ rest =>
      obtain ⟨⟨apart, -⟩, after⟩ := run_insertClassificationRun_ok.mp (Prog.run_of_attempt did)
      rw [after] at rest
      have running : Running d.runs batchID { d with
          runs := d.runs ++ [openingRun (draws.id openOrdinal 0) (draws.now openOrdinal) batchID] } :=
        ⟨_, ⟨rfl, apart⟩, rfl, rfl⟩
      have ends := solo_classifyRows running (keyed.of_transactions rfl) rest
      exact .inr ends
  | @failed e reason rest =>
      split at rest
      next same => cases same
      next same =>
        obtain rfl := Except.error.inj same
        split at rest
        next named =>
          subst named
          rcases reason with refused | lost | ⟨_, writes, did, fails⟩
          · obtain ⟨r, known, own⟩ := exists_run_of_refused refused
            exact absurd own (unopened r known)
          · rcases lost with same | same <;> cases same
          · replace fails : oneLivePerTransaction _ writes = _ := fails
            unfold oneLivePerTransaction at fails
            split at fails
            · cases fails
            · exact absurd (Except.error.inj fails) (by decide)
        next => exact .inl ⟨(solo_error rest).1.2, (solo_error rest).2⟩
  | stopped _ nothing =>
      obtain ⟨-, rfl, rfl⟩ := nothing
      exact .inl ⟨rfl, nofun⟩

/-- An attempt that finds a run of its batch changes nothing. -/
theorem solo_classifyBatch_again (opened : ∃ r ∈ d.runs, r.batchID = batchID)
    (attempt : Solo (body site) around (classifyBatch site batchID draws) d [] asked result last) :
    last = d := by
  cases solo_inTx attempt with
  | committed did _ _ =>
      obtain ⟨⟨apart, -⟩, -⟩ := run_insertClassificationRun_ok.mp (Prog.run_of_attempt did)
      obtain ⟨r, known, own⟩ := opened
      exact absurd own (apart r known).2
  | failed _ rest =>
      split at rest
      next same => cases same
      next =>
        split at rest
        next => exact rest.of_done.1
        next => exact rest.of_done.1
  | stopped _ nothing => exact nothing.2.2

/-! ## Attempts of one job -/

/-- Attempts of the batch's job that did not succeed, each started where the one before left off:
all they have asked, and the state they leave. -/
inductive Retried (site : Site) (batchID : UUID) (start : Database) : List Question → Database → Prop
  | first : Retried site batchID start [] start
  | again {asked more : List Question} {mid after : Database} {draws : Draws}
      {result : Option Outcome} (earlier : Retried site batchID start asked mid)
      (attempt : Solo (body site) flaky (body site (.classifyBatch batchID draws)) mid [] more result
        after)
      (unsuccessful : result ≠ success) : Retried site batchID start (asked ++ more) after

/-- No run of the batch is running. -/
def Idle (batchID : UUID) (d : Database) : Prop := runningRun d batchID = none

theorem Running.not_idle (running : Running earlierRuns batchID d) : ¬ Idle batchID d := by
  obtain ⟨run, opened, rfl, status⟩ := running
  rw [Idle, opened.runningRun, if_pos status]
  nofun

theorem Settled.idle (settled : Settled earlierRuns batchID waiting asked d) : Idle batchID d := by
  obtain ⟨run, opened, rfl, ended⟩ := settled
  rw [Idle, opened.runningRun, if_neg]
  rcases ended with failed | ⟨classified, -⟩
  · rw [failed]
    nofun
  · rw [classified]
    nofun

theorem Settled.asking (settled : Settled earlierRuns batchID waiting asked d)
    (later : offered asked ⊆ offered more) : Settled earlierRuns batchID waiting more d :=
  settled.ahead (fun _ none_ => absurd none_ List.not_mem_nil) later

theorem offered_append : offered (asked ++ more) = offered asked ++ offered more :=
  List.flatMap_append

/-- What attempts leave: the batch as it was, or a run that is settled, or one that is running. -/
def Leaves (start : Database) (batchID : UUID) (asked : List Question) (d : Database) : Prop :=
  d = start ∨ Settled start.runs batchID (waitingBehind start batchID startCursor) asked d ∨
    Running start.runs batchID d

variable {start : Database}

theorem Running.opened (running : Running earlierRuns batchID d) : ∃ r ∈ d.runs, r.batchID = batchID := by
  obtain ⟨run, opened, own, -⟩ := running
  exact ⟨run, by simp [opened.runs], own⟩

/-- One more attempt leaves the run settled, unless it does not succeed or found the run running. -/
theorem Leaves.attempt (leaves : Leaves start batchID asked mid)
    (unopened : ∀ r ∈ start.runs, r.batchID ≠ batchID) (keyed : Keyed start)
    (attempt : Solo (body site) flaky (body site (.classifyBatch batchID draws)) mid [] more result
      last) :
    Settled start.runs batchID (waitingBehind start batchID startCursor) (asked ++ more) last ∨
      Leaves start batchID (asked ++ more) last ∧
        (result ≠ success ∨ Running start.runs batchID mid ∧ last = mid) := by
  have earlier : offered asked ⊆ offered (asked ++ more) := by
    rw [offered_append]
    exact List.subset_append_left _ _
  have later : offered more ⊆ offered (asked ++ more) := by
    rw [offered_append]
    exact List.subset_append_right _ _
  rcases leaves with rfl | settled | running
  · rcases solo_classifyBatch unopened keyed attempt with ⟨same, failed⟩ | settled | ⟨running, failed⟩
    · exact .inr ⟨.inl same, .inl failed⟩
    · exact .inl (settled.asking later)
    · exact .inr ⟨.inr (.inr running), .inl failed⟩
  · obtain ⟨run, opened, own, -⟩ := id settled
    have unchanged := solo_classifyBatch_again ⟨run, by simp [opened.runs], own⟩ attempt
    rw [unchanged]
    exact .inl (settled.asking earlier)
  · have unchanged := solo_classifyBatch_again running.opened attempt
    rw [unchanged]
    exact .inr ⟨.inr (.inr running), .inr ⟨running, rfl⟩⟩

theorem Retried.leaves (retried : Retried site batchID start asked d)
    (unopened : ∀ r ∈ start.runs, r.batchID ≠ batchID) (keyed : Keyed start) :
    Leaves start batchID asked d := by
  induction retried with
  | first => exact .inl rfl
  | again _ attempt _ ih =>
      rcases ih.attempt unopened keyed attempt with settled | ⟨leaves, -⟩
      · exact .inr (.inl settled)
      · exact leaves

theorem mem_waitingBehind_start {t : TransactionRow} (stored : t ∈ d.transactions)
    (own : t.batchID = batchID) (unclassified : Unclassified d t) :
    t ∈ waitingBehind d batchID startCursor :=
  mem_waitingBehind.mpr ⟨⟨stored, own⟩, unanswered_iff_unclassified.mpr unclassified, rfl⟩

/-- The batch's run has left the running status: it has failed, or it is classified with every row
that was unclassified put to the classifier. -/
def NotStranded (start : Database) (batchID : UUID) (asked : List Question) (d : Database) : Prop :=
  Idle batchID d ∧ ∃ run ∈ d.runs, run.batchID = batchID ∧
    (run.status = .failed ∨ run.status = .classified ∧ ∀ t ∈ start.transactions,
      t.batchID = batchID → Unclassified start t → t.id.text ∈ offered asked)

theorem Settled.notStranded
    (settled : Settled start.runs batchID (waitingBehind start batchID startCursor) asked d) :
    NotStranded start batchID asked d := by
  obtain ⟨run, opened, own, ended⟩ := id settled
  refine ⟨settled.idle, run, by simp [opened.runs], own, ended.imp_right ?_⟩
  exact fun ⟨classified, all⟩ => ⟨classified, fun t stored own unclassified =>
    all t (mem_waitingBehind_start stored own unclassified)⟩

/-- The attempt that succeeds leaves the run stranded exactly when it started while the run was
running. -/
theorem run_never_stranded_iff (site : Site) (start mid last : Database) (batchID : UUID)
    (draws : Draws) (asked more : List Question) (keyed : Keyed start)
    (unopened : ∀ r ∈ start.runs, r.batchID ≠ batchID)
    (retried : Retried site batchID start asked mid)
    (attempt : Solo (body site) flaky (body site (.classifyBatch batchID draws)) mid [] more success
      last) :
    NotStranded start batchID (asked ++ more) last ↔ Idle batchID mid := by
  have leaves := retried.leaves unopened keyed
  rcases leaves.attempt unopened keyed attempt with settled | ⟨-, failed | ⟨running, rfl⟩⟩
  · refine ⟨fun _ => ?_, fun _ => settled.notStranded⟩
    rcases leaves with rfl | before | running
    · exact List.find?_eq_none.mpr fun r known => by simp [unopened r known]
    · exact before.idle
    · have unchanged := solo_classifyBatch_again running.opened attempt
      exact unchanged ▸ settled.idle
  · exact absurd rfl failed
  · exact ⟨fun left => left.1, fun idle => absurd idle running.not_idle⟩

/-! ## Attempts cut off -/

def succeeded : Option Outcome → Bool
  | some (.ok .done) => true
  | _ => false

theorem eq_success_of_succeeded (done_ : succeeded result) : result = success := by
  match result with
  | some (.ok .done) => rfl
  | some (.ok (.report _)) => cases done_
  | some (.error _) => cases done_
  | none => cases done_

theorem ne_success_of_failed (failed : succeeded result = false) : result ≠ success := by
  rintro rfl
  cases failed

/-- A classifier that proposes nothing. -/
def silent : Question → Option Reply
  | .classify _ => some (.proposals ⟨"1", "1", []⟩)
  | .object _ => none

/-- An attempt on the batch of one row. -/
def attempted (d : Database) (start : Nat) (choices : List (Choice Failure)) :
    Option (List Question × Option Outcome × Database) :=
  follow (body sampleSite) silent choices (body sampleSite (.classifyBatch 1 (sampleDraws start))) d
    []

theorem solo_of_attempted {start : Nat} {choices : List (Choice Failure)}
    (few : ∀ choice ∈ choices, choice ∈ [.go, .fault .transient, .crash])
    (ended : attempted d start choices = some (asked, result, last)) :
    Solo (body sampleSite) flaky (body sampleSite (.classifyBatch 1 (sampleDraws start))) d [] asked
      result last := by
  refine Solo.of_follow (fun _ _ _ => trivial) (fun choice member => ?_) ended
  have known := few choice member
  simp only [List.mem_cons, List.not_mem_nil, or_false] at known
  rcases known with rfl | rfl | rfl
  · trivial
  · exact .inl rfl
  · trivial

theorem keyed_waitingStage : Keyed (waitingStage []) where
  once := List.nodup_singleton _
  drawn t stored := by
    rw [List.mem_singleton.mp stored]
    decide

/-- An attempt that the database refused, and one that goes through. -/
theorem run_never_stranded_sample :
    ∃ asked mid more last, Retried sampleSite 1 (waitingStage []) asked mid ∧
      Solo (body sampleSite) flaky (body sampleSite (.classifyBatch 1 (sampleDraws 200))) mid [] more
        success last ∧
      NotStranded (waitingStage []) 1 (asked ++ more) last := by
  have evaluated : ((attempted (waitingStage []) 100 [.fault .transient, .go]).bind fun refused =>
      (attempted refused.2.2 200 (List.replicate 17 .go)).map fun again =>
        (succeeded refused.2.1, succeeded again.2.1, runningRun refused.2.2 1)) =
      some (false, true, none) := by decide +kernel
  obtain ⟨⟨asked, result, mid⟩, refused, evaluated⟩ := Option.bind_eq_some_iff.mp evaluated
  obtain ⟨⟨more, result', last⟩, ended, same⟩ := Option.map_eq_some_iff.mp evaluated
  obtain ⟨failed, same⟩ := Prod.mk.inj same
  obtain ⟨done_, idle⟩ := Prod.mk.inj same
  obtain rfl := eq_success_of_succeeded done_
  have retried : Retried sampleSite 1 (waitingStage []) ([] ++ asked) mid :=
    .again .first (solo_of_attempted (by decide) refused) (ne_success_of_failed failed)
  have attempt := solo_of_attempted (by simp) ended
  refine ⟨_, mid, more, last, retried, attempt, ?_⟩
  exact (run_never_stranded_iff sampleSite (waitingStage []) mid last 1 (sampleDraws 200) _ more
    keyed_waitingStage nofun retried attempt).mpr idle

/-- An attempt cut off once the run is open; the next one finds the run and returns. -/
theorem interrupted_run_stranded :
    ¬ ∀ (site : Site) (start mid last : Database) (batchID : UUID) (draws : Draws)
      (asked more : List Question), Keyed start → (∀ r ∈ start.runs, r.batchID ≠ batchID) →
      Retried site batchID start asked mid →
      Solo (body site) flaky (body site (.classifyBatch batchID draws)) mid [] more success last →
      NotStranded start batchID (asked ++ more) last := by
  intro claimed
  have evaluated : ((attempted (waitingStage []) 100 [.go, .go, .crash]).bind fun cut =>
      (attempted cut.2.2 200 [.go, .go]).map fun again =>
        (succeeded cut.2.1, succeeded again.2.1, again.2.2.runs.map (·.status))) =
      some (false, true, [.running]) := by decide +kernel
  obtain ⟨⟨asked, result, mid⟩, cut, evaluated⟩ := Option.bind_eq_some_iff.mp evaluated
  obtain ⟨⟨more, result', last⟩, again, same⟩ := Option.map_eq_some_iff.mp evaluated
  obtain ⟨failed, same⟩ := Prod.mk.inj same
  obtain ⟨done_, statuses⟩ := Prod.mk.inj same
  obtain rfl := eq_success_of_succeeded done_
  have retried : Retried sampleSite 1 (waitingStage []) ([] ++ asked) mid :=
    .again .first (solo_of_attempted (by decide) cut) (ne_success_of_failed failed)
  obtain ⟨-, run, known, -, ended⟩ := claimed sampleSite (waitingStage []) mid last 1
    (sampleDraws 200) _ more keyed_waitingStage nofun retried (solo_of_attempted (by decide) again)
  have running : run.status ∈ last.runs.map (·.status) := List.mem_map_of_mem known
  rw [statuses, List.mem_singleton] at running
  rw [running] at ended
  exact ended.elim nofun fun classified => absurd classified.1 (by decide)

end Vekst.Classify
