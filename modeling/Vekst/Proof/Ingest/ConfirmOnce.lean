import Vekst.Proof.Ingest.Stages

namespace Vekst.Ingest
open Isolation Ledger

variable {batchID : UUID} {site : Site} {uploadMaxBytes : Nat} {object : Option UploadedObject}

/-! ## Confirms and redeliveries -/

/-- A confirm of the batch, or an attempt at a job of the batch that the queue holds. -/
def OfBatch (batchID : UUID) (p : Pipeline) : Entry → Prop
  | .confirmImportUpload _ own => own = batchID
  | .work number job _ => job.batchID = batchID ∧ p.queue[number]? = some job
  | .expireBatch _ => False

/-- Confirms and redeliveries of one batch, answered by a store that holds one object; connections
are lost and processes die. -/
def Redelivered (batchID : UUID) (uploadMaxBytes : Nat) (object : Option UploadedObject)
    (_ : Firsts Pipeline) (sys : PipelineSystem) (event : PipelineEvent) : Prop :=
  (importScript batchID uploadMaxBytes object Finished).Admits sys event ∧
    match event with
    | .spawn entry => OfBatch batchID sys.committed entry
    | _ => True

/-- Every job the queue holds of the batch has been worked to success. -/
def AllWorked (batchID : UUID) (sys : PipelineSystem) : Prop :=
  ∀ number job, sys.committed.queue[number]? = some job → job.batchID = batchID →
    ∃ client ∈ sys.clients, client.job = some (.done (.ok (.worked number)))

/-- The jobs of the queue from a number on, each worked once and to success. -/
inductive WorkedTo (site : Site) (uploadMaxBytes : Nat) (object : Option UploadedObject)
    (number : Nat) (first : Pipeline) : Nat → Pipeline → Prop
  | start : WorkedTo site uploadMaxBytes object number first number first
  | next {reached : Nat} {p after : Pipeline} {job : QueuedJob} {draws : Draws}
      (worked : WorkedTo site uploadMaxBytes object number first reached p)
      (queued : p.queue[reached]? = some job)
      (alone : (pipelineBody site uploadMaxBytes (.work reached job draws)).Alone
        (StoreAnswers uploadMaxBytes object) p [] (.ok (.worked reached)) after) :
      WorkedTo site uploadMaxBytes object number first (reached + 1) after

/-- One confirm by itself, then each job it leads to by itself, until none is left. -/
def ConfirmedOnce (site : Site) (uploadMaxBytes : Nat) (object : Option UploadedObject)
    (batchID userID : UUID) (start last : Pipeline) : Prop :=
  ∃ batch confirmed,
    (pipelineBody site uploadMaxBytes (.confirmImportUpload userID batchID)).Alone
      (StoreAnswers uploadMaxBytes object) start [] (.ok (.confirmed batch)) confirmed ∧
    WorkedTo site uploadMaxBytes object start.queue.length confirmed last.queue.length last

/-! ## A confirm by itself -/

/-- A confirm by itself queues the measurement, or fails and changes nothing. -/
theorem confirm_cases {answers : StoreQuestion → StoreReply → Prop} {userID : UUID}
    {p after : Pipeline} {outcome : PipelineOutcome}
    (alone : (confirmImportUpload userID batchID).Alone answers p [] outcome after) :
    after = p.apply (.enqueue ⟨.measureUpload, batchID⟩) ∨ (∃ e, outcome = .error e) ∧ after = p := by
  have read := alone_ledgerQuery.mp alone
  split at read
  next e _ =>
    obtain ⟨rfl, rfl⟩ := read
    exact .inr ⟨⟨e, rfl⟩, rfl⟩
  next =>
    rcases alone_inTx read with ⟨batch, q, ran, -, rfl⟩ | ⟨e, refused⟩
    · obtain ⟨_, _, found, ran⟩ := (Prog.run_bind_ok _).mp ran
      obtain ⟨_, _, queued, ran⟩ := (Prog.run_bind_ok _).mp ran
      obtain ⟨d, inner, rfl⟩ := run_onLedger found
      obtain ⟨-, rfl⟩ := (Prog.run_query_ok _).mp inner
      obtain rfl := run_enqueue queued
      obtain ⟨-, rfl⟩ := Prod.mk.inj (Except.ok.inj ran)
      exact .inl rfl
    · split at refused
      next =>
        obtain ⟨rfl, rfl⟩ := refused
        exact .inr ⟨⟨_, rfl⟩, rfl⟩
      next =>
        obtain ⟨rfl, rfl⟩ := refused
        exact .inr ⟨⟨_, rfl⟩, rfl⟩
      next same => cases same

theorem core_confirm {answers : StoreQuestion → StoreReply → Prop} {userID : UUID}
    {p after : Pipeline} {outcome : PipelineOutcome}
    (alone : (confirmImportUpload userID batchID).Alone answers p [] outcome after) :
    after.core batchID = p.core batchID := by
  rcases confirm_cases alone with rfl | ⟨-, rfl⟩
  · exact enqueue_quiet batchID p
  · rfl

/-- A member's confirm of a batch that is there. -/
theorem confirm_alone {answers : StoreQuestion → StoreReply → Prop} {userID : UUID} {p : Pipeline}
    {batch : ImportBatchRow} (member : p.ledger.members.any (·.userID = userID) = true)
    (found : getImportBatch p.ledger batchID = .ok batch) :
    (confirmImportUpload userID batchID).Alone answers p [] (.ok (.confirmed batch))
      (p.apply (.enqueue ⟨.measureUpload, batchID⟩)) := by
  refine alone_ledgerQuery.mpr ?_
  rw [if_pos member, onLedger, Prog.lift_query]
  simp only [Prog.query, enqueue, Prog.exec, Prog.stmt_bind, Prog.ret_bind, Prog.pure_eq, inTx,
    Job.Alone, visible_nil, found, Except.map]
  exact ⟨trivial, rfl⟩

/-! ## The stages a batch passes -/

theorem statusOf_of_core {p q : Pipeline} (same : p.core batchID = q.core batchID) :
    p.statusOf batchID = q.statusOf batchID := by
  rw [Pipeline.statusOf, Pipeline.statusOf, core_ledger same]

theorem Settled.of_core {p q : Pipeline} (settled : Settled batchID uploadMaxBytes object p)
    (same : q.core batchID = p.core batchID) : Settled batchID uploadMaxBytes object q := by
  obtain ⟨validates, persists, validateDue, persistDue, measured⟩ := settled
  have status := statusOf_of_core same
  have queuedValidate : ⟨.validateImport, batchID⟩ ∈ q.queue ↔ ⟨.validateImport, batchID⟩ ∈ p.queue := by
    rw [← List.contains_iff_mem, ← List.contains_iff_mem]
    exact Bool.eq_iff_iff.mp (congrArg Core.validateQueued same)
  have queuedPersist : ⟨.persistImport, batchID⟩ ∈ q.queue ↔ ⟨.persistImport, batchID⟩ ∈ p.queue := by
    rw [← List.contains_iff_mem, ← List.contains_iff_mem]
    exact Bool.eq_iff_iff.mp (congrArg Core.persistQueued same)
  constructor
  · rwa [queuedValidate, status]
  · rwa [queuedPersist, status]
  · rwa [queuedValidate, status]
  · rwa [queuedPersist, status]
  · rw [status]
    intro now
    obtain ⟨o, known, small, unheld, rows⟩ := measured now
    exact ⟨o, known, small, core_ledger same ▸ unheld, core_ledger same ▸ rows⟩

/-- A job the queue holds is one the batch has come to. -/
theorem Settled.due {p : Pipeline} (settled : Settled batchID uploadMaxBytes object p) {task : Task}
    (queued : ⟨task, batchID⟩ ∈ p.queue) : rank (some task.due) ≤ rank (p.statusOf batchID) := by
  cases task with
  | measureUpload => exact Nat.zero_le _
  | validateImport => exact settled.validates queued
  | persistImport => exact settled.persists queued

theorem rank_past {task : Task} {status : Option BatchStatus}
    (reached : rank (some task.due) ≤ rank status) (other : status ≠ some task.due) :
    rank (some task.due) < rank status := by
  refine Nat.lt_of_le_of_ne reached fun same => other ?_
  cases status with
  | none => cases task <;> cases same
  | some status => cases task <;> cases status <;> first | rfl | cases same

/-- Attempts by themselves, each taking the batch further, up to what the jobs do not read. -/
inductive Chain (site : Site) (batchID : UUID) (uploadMaxBytes : Nat)
    (object : Option UploadedObject) (start : Pipeline) : Pipeline → Prop
  | start {p : Pipeline} (same : p.core batchID = start.core batchID) :
      Chain site batchID uploadMaxBytes object start p
  | step {p reached after : Pipeline} {task : Task} {draws : Draws}
      (chain : Chain site batchID uploadMaxBytes object start p)
      (alone : (attempt site uploadMaxBytes ⟨task, batchID⟩ draws).Alone
        (StoreAnswers uploadMaxBytes object) p [] (.ok ()) reached)
      (advanced : Advanced batchID uploadMaxBytes object task p reached)
      (same : after.core batchID = reached.core batchID) :
      Chain site batchID uploadMaxBytes object start after

theorem Chain.of_core {start p q : Pipeline}
    (chain : Chain site batchID uploadMaxBytes object start p)
    (same : q.core batchID = p.core batchID) : Chain site batchID uploadMaxBytes object start q := by
  cases chain with
  | start first => exact .start (same.trans first)
  | step chain alone advanced last => exact .step chain alone advanced (same.trans last)

theorem Chain.settled {start p : Pipeline} (chain : Chain site batchID uploadMaxBytes object start p)
    (settled : Settled batchID uploadMaxBytes object start) :
    Settled batchID uploadMaxBytes object p := by
  induction chain with
  | start same => exact settled.of_core same
  | step chain alone advanced same ih => exact (advanced.settled ih).of_core same

/-- Whatever is started for the batch leaves what its jobs read, or is an attempt that takes the
batch further. -/
theorem body_alone {p after : Pipeline} {entry : Entry} {outcome : PipelineOutcome}
    (settled : Settled batchID uploadMaxBytes object p) (own : OfBatch batchID p entry)
    (alone : (pipelineBody site uploadMaxBytes entry).Alone (StoreAnswers uploadMaxBytes object)
      p [] outcome after) :
    after.core batchID = p.core batchID ∨ ∃ task draws,
      (attempt site uploadMaxBytes ⟨task, batchID⟩ draws).Alone (StoreAnswers uploadMaxBytes object)
        p [] (.ok ()) after ∧ Advanced batchID uploadMaxBytes object task p after := by
  cases entry with
  | confirmImportUpload userID other =>
      obtain rfl : other = batchID := own
      exact .inl (core_confirm alone)
  | work number job draws =>
      obtain ⟨task, other⟩ := job
      obtain ⟨rfl, -⟩ : other = batchID ∧ _ := own
      obtain ⟨result, -, attempted⟩ := alone_map.mp alone
      rcases stage_attempt settled attempted with ⟨same, -⟩ | ⟨rfl, advanced⟩
      · exact .inl same
      · exact .inr ⟨task, draws, attempted, advanced⟩
  | expireBatch other => exact own.elim

/-! ## Every run of confirms and redeliveries -/

theorem rehearsed_body {p : Pipeline} (entry : Entry) (own : OfBatch batchID p entry) :
    Rehearsed (importScript batchID uploadMaxBytes object Finished)
      (pipelineBody site uploadMaxBytes entry) := by
  cases entry with
  | confirmImportUpload userID other => exact rehearsed_confirm userID other
  | work number job draws =>
      obtain ⟨task, other⟩ := job
      obtain ⟨rfl, -⟩ : other = batchID ∧ _ := own
      refine rehearsed_map ?_ (rehearsed_attempt site task draws)
      rintro _ ⟨e, rfl⟩
      exact ⟨e, rfl⟩
  | expireBatch other => exact own.elim

theorem ofBatch_lasting {p q : Pipeline} (grown : ∃ more, q.queue = p.queue ++ more) (entry : Entry)
    (own : OfBatch batchID p entry) : OfBatch batchID q entry := by
  cases entry with
  | confirmImportUpload userID other => exact own
  | work number job draws =>
      obtain ⟨more, same⟩ := grown
      refine ⟨own.1, ?_⟩
      rw [same, List.getElem?_append_left (List.getElem?_eq_some_iff.mp own.2).1]
      exact own.2
  | expireBatch other => exact own

theorem queue_grows (p : Pipeline) (changes : List Change) :
    ∃ more, (visible p changes).queue = p.queue ++ more := by
  induction changes generalizing p with
  | nil => exact ⟨[], (List.append_nil _).symm⟩
  | cons change changes ih =>
      obtain ⟨more, same⟩ := ih (p.apply change)
      cases change with
      | enqueue job => exact ⟨job :: more, same.trans (List.append_assoc ..)⟩
      | _ => exact ⟨more, same⟩

/-- What holds throughout: the committed pipeline is one that attempts by themselves lead to, each
client first saw one no further, and replays its body from there. -/
structure Standing (site : Site) (batchID : UUID) (uploadMaxBytes : Nat)
    (object : Option UploadedObject) (start : Pipeline) (firsts : Firsts Pipeline)
    (sys : PipelineSystem) : Prop where
  chain : Chain site batchID uploadMaxBytes object start sys.committed
  seen : ∀ i first, firsts i = some first → Settled batchID uploadMaxBytes object first ∧
    (first.core batchID = sys.committed.core batchID ∨
      rank (first.statusOf batchID) < rank (sys.committed.statusOf batchID))
  acts : Each (Client.Acts (importScript batchID uploadMaxBytes object Finished)
    (pipelineBody site uploadMaxBytes) (OfBatch batchID) sys.committed) firsts sys

section Runs

variable {start : Pipeline} {firsts : Firsts Pipeline} {sys after : PipelineSystem}
  {event : PipelineEvent}

/-- One event leaves what the jobs read, or commits an attempt that takes the batch further. -/
theorem standing_advances
    (standing : Standing site batchID uploadMaxBytes object start firsts sys)
    (unmoved : Unmoved batchID firsts sys event)
    (step : Step (pipelineBody site uploadMaxBytes) sys event after) :
    after.committed.core batchID = sys.committed.core batchID ∨
      Chain site batchID uploadMaxBytes object start after.committed ∧
        rank (sys.committed.statusOf batchID) < rank (after.committed.statusOf batchID) := by
  obtain ⟨chain, seen, -, acts⟩ := standing
  cases split_of_step step with
  | spawn entry same started =>
      subst started
      exact .inl rfl
  | move i client moved found moves clients =>
      have replays := acts i client found
      generalize after.committed = later at moves ⊢
      cases moves with
      | publish head checked =>
          cases first : firsts i with
          | none =>
              rw [first] at replays
              rcases acts_before (fun entry => rehearsed_body entry) replays head with
                quits | ⟨_, _, ⟨⟩⟩ | ⟨_, _, _, _, -, ⟨⟩⟩
              exact quits.elim
          | some p =>
              rw [first] at replays
              obtain ⟨entry, own, -, replays⟩ := replays
              obtain ⟨-, quits | ⟨tame, -⟩⟩ := replays _ head
              · exact quits.elim
              rcases tame.1 with quiet | ⟨marked, outcome, last⟩
              · exact .inl (quiet sys.committed)
              -- The status is the one the job first saw, so nothing it read has changed.
              have still : (firsts i).map (·.statusOf batchID) =
                  some (sys.committed.statusOf batchID) := by
                apply unmoved
                rw [System.writesOf_eq found]
                exact marked
              rw [first] at still
              obtain ⟨known, same | further⟩ := seen i p first
              · obtain ⟨other, agrees, alone⟩ := replays.published head checked same.symm last
                rcases body_alone known own alone with quiet | ⟨task, draws, attempted, advanced⟩
                · exact .inl (agrees.trans (quiet.trans same))
                · refine .inr ⟨.step (chain.of_core same) attempted advanced agrees, ?_⟩
                  rw [statusOf_of_core agrees, ← statusOf_of_core same, advanced.worked]
                  exact advanced.further
              · have status : p.statusOf batchID = sys.committed.statusOf batchID :=
                  Option.some.inj still
                rw [status] at further
                exact absurd further (Nat.lt_irrefl _)
      | _ => exact .inl rfl

theorem standing_step (settled : Settled batchID uploadMaxBytes object start)
    (standing : Standing site batchID uploadMaxBytes object start firsts sys)
    (redelivered : Redelivered batchID uploadMaxBytes object firsts sys event)
    (unmoved : Unmoved batchID firsts sys event)
    (step : Step (pipelineBody site uploadMaxBytes) sys event after) :
    Standing site batchID uploadMaxBytes object start (firsts.after sys.committed event) after := by
  have advances := standing_advances standing unmoved step
  obtain ⟨chain, seen, acts⟩ := standing
  have lasting (entry : Entry) (own : OfBatch batchID sys.committed entry) :
      OfBatch batchID after.committed entry := by
    apply ofBatch_lasting ?_ entry own
    cases split_of_step step with
    | spawn entry same started =>
        subst started
        exact ⟨[], (List.append_nil _).symm⟩
    | move i client moved found moves clients =>
        rcases moves.committed_eq with same | ⟨-, published⟩
        · rw [same]
          exact ⟨[], (List.append_nil _).symm⟩
        · rw [published]
          exact queue_grows _ _
  -- What a client saw, before this event or by it, was settled and no further than is committed now.
  have before (i : Nat) (first : Pipeline) (known : firsts.after sys.committed event i = some first) :
      Settled batchID uploadMaxBytes object first ∧
        (first.core batchID = sys.committed.core batchID ∨
          rank (first.statusOf batchID) < rank (sys.committed.statusOf batchID)) := by
    rcases firsts.after_eq sys.committed event i with same | same
    · exact seen i first (same ▸ known)
    · obtain rfl := Option.some.inj (same.symm.trans known)
      exact ⟨chain.settled settled, .inl rfl⟩
  refine ⟨?_, fun i first known => ?_, ?_⟩
  · rcases advances with same | ⟨further, -⟩
    · exact chain.of_core same
    · exact further
  · obtain ⟨known, place⟩ := before i first known
    refine ⟨known, ?_⟩
    rcases advances with same | ⟨-, further⟩
    · rw [same, statusOf_of_core same]
      exact place
    · rcases place with same | earlier
      · rw [statusOf_of_core same]
        exact .inr further
      · exact .inr (Nat.lt_trans earlier further)
  · refine acts_step (core_respects batchID) (fun entry => rehearsed_body entry) lasting
      (fun entry same => ?_) redelivered.1 step (fun i first known back => ?_) acts
    · subst same
      exact redelivered.2
    · change sys.committed.core batchID = first.core batchID
      have back : after.committed.core batchID = first.core batchID := back
      rcases advances with same | ⟨-, further⟩
      · exact same.symm.trans back
      · rw [statusOf_of_core back] at further
        obtain ⟨-, same | earlier⟩ := before i first known
        · exact same.symm
        · exact absurd (Nat.lt_trans earlier further) (Nat.lt_irrefl _)

theorem standing_of_watched (settled : Settled batchID uploadMaxBytes object start)
    (watched : Watched (pipelineBody site uploadMaxBytes)
      (fun firsts sys event => Redelivered batchID uploadMaxBytes object firsts sys event ∧
        Unmoved batchID firsts sys event) (fun _ => none) start.idle firsts sys) :
    Standing site batchID uploadMaxBytes object start firsts sys := by
  refine watched.invariant ⟨.start rfl, nofun, fun _ _ => rfl, by simp [Pipeline.idle]⟩ ?_
  intro firsts sys event after admitted step standing
  exact standing_step settled standing admitted.1 admitted.2 step

theorem may_inTx {α : Type} {next : Except Failure α → PipelineJob} {p : PipelineTx α}
    {outcome : PipelineOutcome} (may : (inTx next p).May outcome) :
    ∃ result, (next result).May outcome := by
  induction p with
  | ret answer =>
      obtain ⟨result, may⟩ := may
      cases result <;> exact ⟨_, may⟩
  | fail e => exact ⟨_, may⟩
  | stmt emit rest ih =>
      simp only [inTx, Job.May] at may
      obtain ⟨answer, may⟩ := may
      cases answer with
      | ok p => exact ih p may
      | error e => exact ⟨_, may⟩

theorem may_map {f : Except Failure Unit → PipelineOutcome} {job : Attempt}
    {outcome : PipelineOutcome} (may : (job.map f).May outcome) :
    ∃ result, f result = outcome := by
  induction job with
  | done result => exact ⟨result, may⟩
  | jump label => exact may.elim
  | ask request next ih =>
      obtain ⟨response, may⟩ := may
      exact ih response may
  | stmt emit next ih =>
      obtain ⟨answer, may⟩ := may
      exact ih answer may
  | commit next ih =>
      obtain ⟨answer, may⟩ := may
      exact ih answer may
  | rollback next ih => exact ih may

/-- Only an attempt at a job reports it as worked. -/
theorem work_of_may {p : Pipeline} {entry : Entry} {number : Nat} (own : OfBatch batchID p entry)
    (may : (pipelineBody site uploadMaxBytes entry).May (.ok (.worked number))) :
    ∃ job draws, entry = .work number job draws := by
  cases entry with
  | confirmImportUpload userID other =>
      obtain ⟨result, may⟩ := may_inTx may
      cases result with
      | error e => cases may
      | ok _ =>
          obtain ⟨result, may⟩ := may_inTx may
          split at may <;> cases may
  | work other job draws =>
      obtain ⟨result, same⟩ := may_map may
      cases result with
      | error e => cases same
      | ok _ =>
          cases same
          exact ⟨job, draws, rfl⟩
  | expireBatch other => exact own.elim

/-- A job worked to success leaves the batch past what the job works from. -/
theorem worked_past (standing : Standing site batchID uploadMaxBytes object start firsts sys)
    {i number : Nat} {client : Client Pipeline Change Failure StoreQuestion StoreReply Entry
      PipelineOutcome} {task : Task} (queued : sys.committed.queue[number]? = some ⟨task, batchID⟩)
    (found : sys.clients[i]? = some client)
    (worked : client.job = some (.done (.ok (.worked number)))) :
    rank (some task.due) < rank (sys.committed.statusOf batchID) := by
  obtain ⟨-, seen, -, acts⟩ := standing
  have replays := acts i client found
  cases first : firsts i with
  | none =>
      rw [first] at replays
      rcases acts_before (fun entry => rehearsed_body entry) replays worked with
        quits | ⟨_, -, same⟩ | ⟨_, _, _, -, -, same⟩
      · obtain ⟨e, same⟩ : ∃ e, Except.ok (Finished.worked number) = Except.error e := quits
        cases same
      · cases same
      · cases same
  | some p =>
      rw [first] at replays
      obtain ⟨entry, own, now, replays⟩ := replays
      obtain ⟨job, draws, rfl⟩ := work_of_may own ((replays _ worked).1 _ rfl)
      obtain rfl : ⟨task, batchID⟩ = job := Option.some.inj (queued.symm.trans now.2)
      obtain ⟨settled, place⟩ := seen i p first
      have reached := settled.due (List.mem_of_getElem? own.2)
      rcases place with same | earlier
      · obtain ⟨other, agrees, alone⟩ := replays.ended worked (by rintro ⟨_, ⟨⟩⟩) same.symm
        obtain ⟨result, ended, attempted⟩ := alone_map.mp alone
        rcases stage_attempt settled attempted with ⟨-, past⟩ | ⟨-, advanced⟩
        · cases result with
          | ok =>
              rw [← statusOf_of_core same]
              exact rank_past reached (past rfl)
          | error e => cases ended
        · rw [statusOf_of_core agrees]
          exact advanced.further
      · exact Nat.lt_of_le_of_lt reached earlier

/-- With every job of the batch worked to success, nothing is left to do for it. -/
theorem all_worked (settled : Settled batchID uploadMaxBytes object start)
    (standing : Standing site batchID uploadMaxBytes object start firsts sys)
    (confirmed : ∃ job ∈ sys.committed.queue, job.batchID = batchID)
    (worked : AllWorked batchID sys) :
    2 < rank (sys.committed.statusOf batchID) := by
  have past (task : Task) (queued : ⟨task, batchID⟩ ∈ sys.committed.queue) :
      rank (some task.due) < rank (sys.committed.statusOf batchID) := by
    obtain ⟨number, place⟩ := List.mem_iff_getElem?.mp queued
    obtain ⟨client, member, done_⟩ := worked number _ place rfl
    obtain ⟨i, found⟩ := List.mem_iff_getElem?.mp member
    exact worked_past standing place found done_
  have here := standing.chain.settled settled
  obtain ⟨⟨task, own⟩, queued, rfl⟩ := confirmed
  have further := past task queued
  have validated := fun now => past .validateImport (here.validateDue now)
  have persisted := fun now => past .persistImport (here.persistDue now)
  cases now : sys.committed.statusOf own with
  | none => exact Nat.lt_succ_self 2
  | some status =>
      cases status with
      | awaitingUpload =>
          rw [now] at further
          exact absurd further (Nat.not_lt_zero _)
      | uploaded =>
          have later := validated now
          rw [now] at later
          exact absurd later (Nat.lt_irrefl _)
      | validated =>
          have later := persisted now
          rw [now] at later
          exact absurd later (Nat.lt_irrefl _)
      | _ => exact Nat.lt_succ_self 2

end Runs

/-! ## The single run beside it -/

/-- The jobs of the batch the queue still ends in, at a status. -/
def pending (batchID : UUID) : Option BatchStatus → List QueuedJob
  | some .awaitingUpload => [⟨.measureUpload, batchID⟩]
  | status => following batchID status

theorem pending_due (task : Task) : pending batchID (some task.due) = [⟨task, batchID⟩] := by
  cases task <;> rfl

theorem pending_of_further {task : Task} {status : Option BatchStatus}
    (further : rank (some task.due) < rank status) :
    pending batchID status = following batchID status := by
  cases status with
  | none => rfl
  | some status =>
      cases status with
      | awaitingUpload => exact absurd further (Nat.not_lt_zero _)
      | _ => rfl

/-- Stage by stage a single confirm's jobs go where the batch went. -/
theorem worked_of_chain {start confirmed p : Pipeline}
    (settled : Settled batchID uploadMaxBytes object start)
    (same : confirmed.core batchID = start.core batchID)
    (awaiting : start.statusOf batchID = some .awaitingUpload)
    (queue : confirmed.queue = start.queue ++ [⟨.measureUpload, batchID⟩])
    (chain : Chain site batchID uploadMaxBytes object start p) :
    ∃ worked once, once.core batchID = p.core batchID ∧
      WorkedTo site uploadMaxBytes object start.queue.length confirmed
        (start.queue.length + worked.length) once ∧
      once.queue = (start.queue ++ worked) ++ pending batchID (once.statusOf batchID) := by
  induction chain with
  | start first =>
      refine ⟨[], confirmed, same.trans first.symm, .start, ?_⟩
      rw [statusOf_of_core same, awaiting, List.append_nil]
      exact queue
  | @step p reached after task draws chain alone advanced last ih =>
      obtain ⟨worked, once, agrees, run, left⟩ := ih
      have status : once.statusOf batchID = some task.due :=
        (statusOf_of_core agrees).trans advanced.worked
      rw [status, pending_due] at left
      obtain ⟨other, ends, replayed⟩ := alone_core (core_respects batchID)
        (rehearsed_attempt site task draws).tame agrees.symm alone
      have here : Settled batchID uploadMaxBytes object once :=
        (chain.settled settled).of_core agrees
      rcases stage_attempt here replayed with ⟨-, idle⟩ | ⟨-, further⟩
      · exact absurd status (idle rfl)
      · have queued : once.queue[start.queue.length + worked.length]? = some ⟨task, batchID⟩ := by
          rw [left, ← List.length_append, List.getElem?_append_right (Nat.le_refl _), Nat.sub_self]
          rfl
        have done_ : (pipelineBody site uploadMaxBytes
              (.work (start.queue.length + worked.length) ⟨task, batchID⟩ draws)).Alone
            (StoreAnswers uploadMaxBytes object) once []
              (.ok (.worked (start.queue.length + worked.length))) other :=
          alone_map.mpr ⟨.ok (), rfl, replayed⟩
        refine ⟨worked ++ [⟨task, batchID⟩], other, ends.symm.trans last.symm, ?_, ?_⟩
        · rw [List.length_append, ← Nat.add_assoc]
          exact .next run queued done_
        · have later := further.further
          rw [pending_of_further later, further.queue, left, List.append_assoc start.queue]

theorem pending_head {status : Option BatchStatus} {job : QueuedJob}
    (first : (pending batchID status)[0]? = some job) :
    ∃ task, job = ⟨task, batchID⟩ ∧ status = some task.due := by
  cases status with
  | none => cases first
  | some status =>
      cases status with
      | awaitingUpload => exact ⟨.measureUpload, (Option.some.inj first).symm, rfl⟩
      | uploaded => exact ⟨.validateImport, (Option.some.inj first).symm, rfl⟩
      | validated => exact ⟨.persistImport, (Option.some.inj first).symm, rfl⟩
      | _ => cases first

/-- A single confirm's jobs store transactions only where they leave the batch imported. -/
theorem worked_stores {confirmed p : Pipeline} {number reached : Nat} {earlier : List QueuedJob}
    (settled : Settled batchID uploadMaxBytes object confirmed)
    (awaiting : confirmed.statusOf batchID = some .awaitingUpload)
    (queue : confirmed.queue = earlier ++ [⟨.measureUpload, batchID⟩])
    (length : earlier.length = number)
    (worked : WorkedTo site uploadMaxBytes object number confirmed reached p) :
    Settled batchID uploadMaxBytes object p ∧
      (∃ done_ : List QueuedJob, done_.length = reached ∧
        p.queue = done_ ++ pending batchID (p.statusOf batchID)) ∧
      (p.statusOf batchID = some .imported ∨
        p.ledger.transactions = confirmed.ledger.transactions) := by
  induction worked with
  | start => exact ⟨settled, ⟨earlier, length, awaiting ▸ queue⟩, .inr rfl⟩
  | @next reached p after job draws worked queued alone ih =>
      obtain ⟨here, ⟨done_, rfl, left⟩, stored⟩ := ih
      rw [left, List.getElem?_append_right (Nat.le_refl _), Nat.sub_self] at queued
      obtain ⟨task, rfl, due⟩ := pending_head queued
      obtain ⟨result, ended, attempted⟩ := alone_map.mp alone
      rcases stage_attempt here attempted with ⟨-, idle⟩ | ⟨rfl, advanced⟩
      · cases result with
        | ok => exact absurd due (idle rfl)
        | error e => cases ended
      · refine ⟨advanced.settled here, ⟨done_ ++ [⟨task, batchID⟩], by simp, ?_⟩, ?_⟩
        · rw [pending_of_further advanced.further, advanced.queue, left, due, pending_due]
        · rcases stored with imported | same
          · rw [due] at imported
            cases task <;> cases imported
          · exact advanced.stored.imp_right fun kept => kept.trans same

/-- While no status is published over another than the job first saw, confirming a batch any number
of times and delivering its jobs any number of times comes, once every job has succeeded, to what a
single confirm and one success of each job come to. -/
theorem confirming_again_changes_nothing {start : Pipeline} {userID : UUID}
    {firsts : Firsts Pipeline} {sys : PipelineSystem}
    (awaiting : start.statusOf batchID = some .awaitingUpload)
    (unqueued : ∀ job ∈ start.queue, job.batchID ≠ batchID)
    (member : start.ledger.members.any (·.userID = userID) = true)
    (watched : Watched (pipelineBody site uploadMaxBytes)
      (fun firsts sys event => Redelivered batchID uploadMaxBytes object firsts sys event ∧
        Unmoved batchID firsts sys event) (fun _ => none) start.idle firsts sys)
    (confirmed : ∃ job ∈ sys.committed.queue, job.batchID = batchID)
    (worked : AllWorked batchID sys) :
    ∃ once, ConfirmedOnce site uploadMaxBytes object batchID userID start once ∧
      sys.committed.statusOf batchID = once.statusOf batchID ∧
      sys.committed.validations = once.validations ∧ sys.committed.rawRows = once.rawRows ∧
      sys.committed.ledger.transactions = once.ledger.transactions := by
  have settled : Settled batchID uploadMaxBytes object start := by
    constructor
    · exact fun queued => absurd rfl (unqueued _ queued)
    · exact fun queued => absurd rfl (unqueued _ queued)
    · exact fun now => nomatch awaiting.symm.trans now
    · exact fun now => nomatch awaiting.symm.trans now
    · exact fun now => nomatch awaiting.symm.trans now
  have standing := standing_of_watched settled watched
  have far := all_worked settled standing confirmed worked
  obtain ⟨batch, found⟩ : ∃ batch, getImportBatch start.ledger batchID = .ok batch := by
    unfold getImportBatch
    unfold Pipeline.statusOf at awaiting
    split
    next row _ => exact ⟨row, rfl⟩
    next absent => simp [absent] at awaiting
  have confirm : (confirmImportUpload userID batchID).Alone (StoreAnswers uploadMaxBytes object)
    start [] (.ok (.confirmed batch)) _ := confirm_alone member found
  obtain ⟨jobs, once, agrees, run, left⟩ :=
    worked_of_chain settled (enqueue_quiet batchID start) awaiting rfl standing.chain
  have ended : pending batchID (once.statusOf batchID) = [] := by
    rw [statusOf_of_core agrees]
    revert far
    cases sys.committed.statusOf batchID with
    | none => exact fun _ => rfl
    | some status => cases status <;> simp [rank, pending, following]
  rw [ended, List.append_nil] at left
  refine ⟨once, ⟨batch, _, confirm, ?_⟩, (statusOf_of_core agrees).symm, ?_, ?_, ?_⟩
  · rw [left, List.length_append]
    exact run
  · exact (congrArg Core.validations agrees).symm
  · exact (congrArg Core.rawRows agrees).symm
  · rw [core_ledger agrees]

/-! ## A second confirm that undoes the first -/

def sampleObject : UploadedObject where
  content := ⟨64, "digest"⟩
  parsed := some (sampleStatement, fun _ => ⟨.valid, 1, [], [], none⟩)

instance (uploadMaxBytes : Nat) (object : Option UploadedObject) :
    Decidable (TooLarge uploadMaxBytes object) :=
  match object with
  | none => isFalse (by simp [TooLarge])
  | some o => decidable_of_iff (uploadMaxBytes < o.content.length) (by simp [TooLarge])

instance (uploadMaxBytes : Nat) (o : UploadedObject) (request : StoreQuestion) (reply : StoreReply) :
    Decidable (StoreAnswers uploadMaxBytes (some o) request reply) := by
  unfold StoreAnswers
  split
  · infer_instance
  · infer_instance
  · infer_instance
  next now parsed =>
    exact decidable_of_iff (parsed = o.parsed.map fun result => (result.1, result.2 now)) (by simp)
  next parsed => exact decidable_of_iff (parsed = o.parsed.map Prod.fst) (by simp)
  · infer_instance

instance (batchID : UUID) (p : Pipeline) (entry : Entry) : Decidable (OfBatch batchID p entry) := by
  unfold OfBatch
  split <;> infer_instance

instance (batchID : UUID) (uploadMaxBytes : Nat) (o : UploadedObject) (firsts : Firsts Pipeline)
    (sys : PipelineSystem) (event : PipelineEvent) :
    Decidable (Redelivered batchID uploadMaxBytes (some o) firsts sys event) := by
  have answers : ∀ request reply, Decidable
      ((importScript batchID uploadMaxBytes (some o) Finished).answers request reply) :=
    fun request reply => inferInstanceAs (Decidable (StoreAnswers uploadMaxBytes (some o) request reply))
  have lost : ∀ e, Decidable ((importScript batchID uploadMaxBytes (some o) Finished).lost e) :=
    fun e => inferInstanceAs (Decidable (e = .transient))
  exact match event with
  | .spawn entry => inferInstanceAs (Decidable (_ ∧ OfBatch batchID sys.committed entry))
  | .jump _ | .exec _ | .check _ | .publish _ | .rollback _ | .answer _ _ | .fault _ _ | .crash _ =>
      inferInstanceAs (Decidable (_ ∧ True))

/-- The numbers of the queue's jobs that attempts have succeeded at. -/
def numbersWorked (sys : PipelineSystem) : List Nat :=
  sys.clients.filterMap fun client => match client.job with
    | some (.done (.ok (.worked number))) => some number
    | _ => none

theorem allWorked_of_numbers {sys : PipelineSystem}
    (every : ∀ number ∈ List.range sys.committed.queue.length, number ∈ numbersWorked sys) :
    AllWorked batchID sys := by
  intro number job queued _
  have inside := (List.getElem?_eq_some_iff.mp queued).1
  obtain ⟨client, member, worked⟩ := List.mem_filterMap.mp (every number (List.mem_range.mpr inside))
  refine ⟨client, member, ?_⟩
  split at worked
  next head => exact Option.some.inj worked ▸ head
  next => cases worked

/-- Two confirms, and the jobs of both: a measurement and a validation are done again. -/
def redeliveredEvents : List PipelineEvent :=
  confirmEvents 0 ++ confirmEvents 1 ++
    attemptEvents 2 0 .measureUpload ++ objectEvents 2 ++ recordEvents 2 ++
    attemptEvents 3 1 .measureUpload ++ objectEvents 3 ++ recordEvents 3 ++
    attemptEvents 4 2 .validateImport ++ landEvents 4 ++
    attemptEvents 5 3 .validateImport ++
    attemptEvents 6 4 .persistImport ++ importEvents 6

theorem confirming_again_changes_nothing_sample :
    ∃ firsts sys once,
      Watched (pipelineBody sampleSite 100) (fun firsts sys event =>
        Redelivered 1 100 (some sampleObject) firsts sys event ∧ Unmoved 1 firsts sys event)
        (fun _ => none) reservedBatch.idle firsts sys ∧
      ConfirmedOnce sampleSite 100 (some sampleObject) 1 7 reservedBatch once ∧
      sys.committed.statusOf 1 = once.statusOf 1 ∧
      sys.committed.validations = once.validations ∧ sys.committed.rawRows = once.rawRows ∧
      sys.committed.ledger.transactions = once.ledger.transactions ∧
      sys.committed.queue.length = 5 := by
  have evaluated : (fireAll (pipelineBody sampleSite 100) reservedBatch.idle
      redeliveredEvents).map (fun sys => (numbersWorked sys, sys.committed.queue)) =
      some ([0, 1, 2, 3, 4], [⟨.measureUpload, 1⟩, ⟨.measureUpload, 1⟩, ⟨.validateImport, 1⟩,
        ⟨.validateImport, 1⟩, ⟨.persistImport, 1⟩]) := by decide +kernel
  obtain ⟨sys, fired, same⟩ := Option.map_eq_some_iff.mp evaluated
  obtain ⟨worked, queue⟩ := Prod.mk.inj same
  obtain ⟨firsts, watched⟩ : ∃ firsts, Watched (pipelineBody sampleSite 100) (fun firsts sys event =>
      Redelivered 1 100 (some sampleObject) firsts sys event ∧ Unmoved 1 firsts sys event)
      (fun _ => none) reservedBatch.idle firsts sys := Watched.of_fireAll (by decide +kernel) fired
  have every : AllWorked 1 sys := allWorked_of_numbers (by rw [queue, worked]; decide)
  obtain ⟨once, confirmed, results⟩ := confirming_again_changes_nothing
    (by decide : reservedBatch.statusOf 1 = some .awaitingUpload) (by decide)
    (by decide : reservedBatch.ledger.members.any (·.userID = 7) = true) watched
    (by rw [queue]; decide) every
  exact ⟨firsts, sys, once, watched, confirmed, results.1, results.2.1, results.2.2.1,
    results.2.2.2, by rw [queue]; rfl⟩

theorem confirming_twice_fails :
    ¬ ∀ (firsts : Firsts Pipeline) (sys : PipelineSystem),
      Watched (pipelineBody sampleSite 100) (Redelivered 1 100 (some sampleObject))
        (fun _ => none) reservedBatch.idle firsts sys →
      (∃ job ∈ sys.committed.queue, job.batchID = 1) → AllWorked 1 sys →
      ∃ once, ConfirmedOnce sampleSite 100 (some sampleObject) 1 7 reservedBatch once ∧
        sys.committed.statusOf 1 = once.statusOf 1 ∧
        sys.committed.validations = once.validations ∧ sys.committed.rawRows = once.rawRows ∧
        sys.committed.ledger.transactions = once.ledger.transactions := by
  intro claimed
  have evaluated : (fireAll (pipelineBody sampleSite 100) reservedBatch.idle
      (confirmedTwiceEvents ++ resurrectEvents)).map (fun sys => (numbersWorked sys,
        sys.committed.queue, sys.committed.statusOf 1, sys.committed.ledger.transactions.length)) =
      some ([0, 1, 2, 3], [⟨.measureUpload, 1⟩, ⟨.measureUpload, 1⟩, ⟨.validateImport, 1⟩,
        ⟨.persistImport, 1⟩], some .failed, 1) := by decide +kernel
  obtain ⟨sys, fired, same⟩ := Option.map_eq_some_iff.mp evaluated
  obtain ⟨worked, same⟩ := Prod.mk.inj same
  obtain ⟨queue, same⟩ := Prod.mk.inj same
  obtain ⟨failed, stored⟩ := Prod.mk.inj same
  obtain ⟨firsts, watched⟩ : ∃ firsts, Watched (pipelineBody sampleSite 100)
      (Redelivered 1 100 (some sampleObject)) (fun _ => none) reservedBatch.idle firsts sys :=
    Watched.of_fireAll (by decide +kernel) fired
  obtain ⟨once, ⟨batch, confirmed, alone, run⟩, status, -, -, transactions⟩ :=
    claimed firsts sys watched (by rw [queue]; decide)
      (allWorked_of_numbers (by rw [queue, worked]; decide))
  rcases confirm_cases alone with rfl | ⟨⟨_, ⟨⟩⟩, -⟩
  have settled : Settled 1 100 (some sampleObject)
      (reservedBatch.apply (.enqueue ⟨.measureUpload, 1⟩)) := by
    constructor <;> simp [reservedBatch, Pipeline.apply, Pipeline.statusOf]
  obtain ⟨-, -, imported | unstored⟩ := worked_stores settled rfl rfl rfl run
  · rw [← status, failed] at imported
    cases imported
  · rw [transactions, unstored] at stored
    cases stored

end Vekst.Ingest
