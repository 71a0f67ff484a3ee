import Vekst.Isolation.Watch

namespace Isolation

variable {σ τ ω ε κ q a ℓ β α γ : Type}

/-! ## Jobs with the database to themselves -/

/-- How a job may end that runs by itself from the committed state, over its pending writes: its
outcome and the state it leaves, for some answers of the other service. -/
def Job.Alone [Store σ ω ε κ] (answers : q → a → Prop) :
    Job σ ω ε q a ℓ β → σ → List ω → β → σ → Prop
  | .done outcome, committed, _, result, last => outcome = result ∧ committed = last
  | .jump _, _, _, _, _ => False
  | .ask request next, committed, writes, result, last =>
      ∃ response, answers request response ∧
        (next (.ok response)).Alone answers committed writes result last
  | .stmt emit next, committed, writes, result, last =>
      match emit (visible committed writes) with
      | .ok more =>
          (next (.ok (visible committed writes))).Alone answers committed (writes ++ more) result last
      | .error e => (next (.error e)).Alone answers committed writes result last
  | .commit next, committed, writes, result, last =>
      match Store.check (visible committed writes) writes with
      | .ok () => (next (.ok ())).Alone answers (visible committed writes) [] result last
      | .error e => (next (.error e)).Alone answers committed [] result last
  | .rollback next, committed, _, result, last => next.Alone answers committed [] result last

/-- An outcome the job may have, whatever it is answered. -/
def Job.May : Job σ ω ε q a ℓ β → β → Prop
  | .done outcome, result => outcome = result
  | .jump _, _ => False
  | .ask _ next, result => ∃ response, (next response).May result
  | .stmt _ next, result => ∃ answer, (next answer).May result
  | .commit next, result => ∃ answer, (next answer).May result
  | .rollback next, result => next.May result

/-- What the replay of a job is told in: the part of the state its statements read, the answers of
the other service, the failures that may strike, how a struck job ends, and the writes that only
its last commit makes. -/
structure Script (σ τ ω ε q a β : Type) where
  core : σ → τ
  answers : q → a → Prop
  lost : ε → Prop
  gaveUp : β → Prop
  marked : List ω → Prop

/-- The job only rolls back and gives up. -/
def Job.Quits (gaveUp : β → Prop) : Job σ ω ε q a ℓ β → Prop
  | .done outcome => gaveUp outcome
  | .rollback next => next.Quits gaveUp
  | _ => False

/-- The writes leave what statements read as it was. -/
def Quiet [Store σ ω ε κ] (core : σ → τ) (writes : List ω) : Prop :=
  ∀ s, core (visible s writes) = core s

/-- Statements read the core alone, a struck job gives up, and a commit that changes the core is
marked and the last. -/
def Job.Tame [Store σ ω ε κ] (script : Script σ τ ω ε q a β) : Job σ ω ε q a ℓ β → List ω → Prop
  | .done _, _ => True
  | .jump _, _ => False
  | .ask _ next, writes =>
      (∀ response, (next (.ok response)).Tame script writes) ∧
      ∀ e, script.lost e → (next (.error e)).Quits script.gaveUp
  | .stmt emit next, writes =>
      (∀ s t, script.core s = script.core t → emit s = emit t ∧ next (.ok s) = next (.ok t)) ∧
      (∀ s more, emit s = .ok more → (next (.ok s)).Tame script (writes ++ more)) ∧
      (∀ s e, emit s = .error e → (next (.error e)).Tame script writes) ∧
      ∀ e, script.lost e → (next (.error e)).Quits script.gaveUp
  | .commit next, writes =>
      (Quiet script.core writes ∨
        script.marked writes ∧ ∃ outcome, next (.ok ()) = .done outcome) ∧
      (∀ result, (next result).Tame script []) ∧
      ∀ e, script.lost e → (next (.error e)).Quits script.gaveUp
  | .rollback next, _ => next.Tame script []

/-- Writes and deferred checks depend on the core alone. -/
structure Respects [Store σ ω ε κ] (core : σ → τ) : Prop where
  apply : ∀ (s t : σ) (w : ω), core s = core t → core (Store.apply s w) = core (Store.apply t w)
  check : ∀ (s t : σ) (writes : List ω), core s = core t →
    Store.check s writes = Store.check t writes

section Cores

variable [Store σ ω ε κ] {script : Script σ τ ω ε q a β}

theorem Respects.visible {core : σ → τ} (respects : Respects core) {s t : σ} (same : core s = core t)
    (writes : List ω) : core (visible s writes) = core (visible t writes) := by
  induction writes generalizing s t with
  | nil => exact same
  | cons w writes ih => exact ih (respects.apply s t w same)

/-- From states of one core a job may end alike, in states of one core. -/
theorem alone_core (respects : Respects script.core) {job : Job σ ω ε q a ℓ β} {s t last : σ}
    {writes : List ω} {result : β} (tame : job.Tame script writes)
    (same : script.core s = script.core t)
    (alone : job.Alone script.answers s writes result last) :
    ∃ other, script.core last = script.core other ∧
      job.Alone script.answers t writes result other := by
  induction job generalizing s t writes with
  | done outcome =>
      obtain ⟨rfl, rfl⟩ := alone
      exact ⟨t, same, rfl, rfl⟩
  | jump label => exact alone.elim
  | ask request next ih =>
      obtain ⟨response, answered, rest⟩ := alone
      obtain ⟨other, agrees, replayed⟩ := ih _ (tame.1 response) same rest
      exact ⟨other, agrees, response, answered, replayed⟩
  | stmt emit next ih =>
      obtain ⟨reads, goes, fails, -⟩ := tame
      have sight := respects.visible same writes
      obtain ⟨emits, continues⟩ := reads _ _ sight
      simp only [Job.Alone] at alone ⊢
      rw [← emits, ← continues]
      cases answer : emit (visible s writes) with
      | ok more =>
          simp only [answer] at alone ⊢
          exact ih _ (goes _ _ answer) same alone
      | error e =>
          simp only [answer] at alone ⊢
          exact ih _ (fails _ _ answer) same alone
  | commit next ih =>
      obtain ⟨-, goes, -⟩ := tame
      have sight := respects.visible same writes
      simp only [Job.Alone] at alone ⊢
      rw [← respects.check _ _ writes sight]
      cases answer : Store.check (visible s writes) writes with
      | ok =>
          simp only [answer] at alone ⊢
          exact ih _ (goes _) sight alone
      | error e =>
          simp only [answer] at alone ⊢
          exact ih _ (goes _) same alone
  | rollback next ih => exact ih tame same alone

end Cores

/-! ## Clients of a run, replayed alone -/

section Clients

variable [Store σ ω ε κ] {script : Script σ τ ω ε q a β}

/-- The client has given up; or as long as the core is the one it first saw, whatever it may still
do alone its whole job may do alone from there. -/
def Client.Replays (script : Script σ τ ω ε q a β) (whole : Job σ ω ε q a ℓ β)
    (first committed : σ) (client : Client σ ω ε q a ℓ β) : Prop :=
  ∀ job, client.job = some job → (∀ outcome, job.May outcome → whole.May outcome) ∧
    (job.Quits script.gaveUp ∨
      (job.Tame script client.writes ∧
        (client.checked = true → (∃ next, job = .commit next) ∧
          (script.core committed = script.core first →
            Store.check (visible committed client.writes) client.writes = .ok ())) ∧
        (script.core committed = script.core first → ∀ result last,
          job.Alone script.answers committed client.writes result last →
          ∃ other, script.core last = script.core other ∧
            whole.Alone script.answers first [] result other)))

variable {whole : Job σ ω ε q a ℓ β} {first committed later : σ} {client : Client σ ω ε q a ℓ β}

/-- The moves of others do not matter, unless they bring a core back. -/
theorem Client.Replays.unmoved (respects : Respects script.core)
    (replays : client.Replays script whole first committed)
    (gone : script.core later = script.core first → script.core committed = script.core first) :
    client.Replays script whole first later := by
  intro job head
  obtain ⟨may, quits | ⟨tame, checks, ends⟩⟩ := replays job head
  · exact ⟨may, .inl quits⟩
  · refine ⟨may, .inr ⟨tame, fun checked => ⟨(checks checked).1, fun back => ?_⟩,
      fun back result last alone => ?_⟩⟩
    · have same := gone back
      have sight := respects.visible (back.trans same.symm) client.writes
      exact (respects.check _ _ _ sight).trans ((checks checked).2 same)
    · have same := gone back
      obtain ⟨middle, agrees, here⟩ := alone_core respects tame (back.trans same.symm) alone
      obtain ⟨other, agree, there⟩ := ends same result middle here
      exact ⟨other, agrees.trans agree, there⟩

/-- A last commit, made while the core is the one first seen, ends as the whole job does alone. -/
theorem Client.Replays.published (replays : client.Replays script whole first committed)
    {next : Except ε Unit → Job σ ω ε q a ℓ β} (head : client.job = some (.commit next))
    (checked : client.checked = true) (same : script.core committed = script.core first)
    {outcome : β} (last : next (.ok ()) = .done outcome) :
    ∃ other, script.core (visible committed client.writes) = script.core other ∧
      whole.Alone script.answers first [] outcome other := by
  obtain ⟨-, quits | ⟨-, checks, ends⟩⟩ := replays _ head
  · exact quits.elim
  · apply ends same
    simp only [Job.Alone, (checks checked).2 same, last]
    trivial

/-- A client that ended without giving up, while the core is the one it first saw. -/
theorem Client.Replays.ended (replays : client.Replays script whole first committed) {outcome : β}
    (head : client.job = some (.done outcome)) (succeeded : ¬ script.gaveUp outcome)
    (same : script.core committed = script.core first) :
    ∃ other, script.core committed = script.core other ∧
      whole.Alone script.answers first [] outcome other := by
  obtain ⟨-, quits | ⟨-, -, ends⟩⟩ := replays _ head
  · exact absurd quits succeeded
  · exact ends same outcome committed ⟨rfl, rfl⟩

variable {body : ℓ → Job σ ω ε q a ℓ β} {i : Nat} {moved : Client σ ω ε q a ℓ β}
  {event : Event ε a ℓ}

/-- The answers are those of the other service, and what strikes is lost. -/
def Script.Admits (script : Script σ τ ω ε q a β) (sys : System σ ω ε q a ℓ β) :
    Event ε a ℓ → Prop
  | .answer i response => ∀ client request next, sys.clients[i]? = some client →
      client.job = some (.ask request next) → script.answers request response
  | .fault _ e => script.lost e
  | _ => True

/-- The request a client waits on. -/
def System.requestOf (sys : System σ ω ε q a ℓ β) (i : Nat) : Option q :=
  sys.clients[i]?.bind fun client => match client.job with
    | some (.ask request _) => some request
    | _ => none

omit [Store σ ω ε κ] in
theorem Script.admits_answer {sys : System σ ω ε q a ℓ β} {response : a} :
    script.Admits sys (.answer i response) ↔
      ∀ request ∈ sys.requestOf i, script.answers request response := by
  simp only [Script.Admits, System.requestOf, Option.mem_def, Option.bind_eq_some_iff]
  constructor
  · rintro answered request ⟨client, found, waits⟩
    split at waits
    next head => exact Option.some.inj waits ▸ answered client _ _ found head
    next => cases waits
  · intro answered client request next found head
    exact answered request ⟨client, found, by rw [head]⟩

instance [∀ request response, Decidable (script.answers request response)]
    [∀ e, Decidable (script.lost e)] (sys : System σ ω ε q a ℓ β) (event : Event ε a ℓ) :
    Decidable (script.Admits sys event) :=
  match event with
  | .answer _ _ => decidable_of_iff _ Script.admits_answer.symm
  | .fault _ e => inferInstanceAs (Decidable (script.lost e))
  | .spawn _ | .jump _ | .exec _ | .check _ | .publish _ | .rollback _ | .crash _ => isTrue trivial

theorem Client.Replays.moves (replays : client.Replays script whole first committed)
    (moves : Moves body committed i client event moved later)
    (answered : ∀ request next response, event = .answer i response →
      client.job = some (.ask request next) → script.answers request response)
    (struck : ∀ e, event = .fault i e → script.lost e)
    (gone : script.core later = script.core first → script.core committed = script.core first) :
    moved.Replays script whole first later := by
  cases moves with
  | jump head =>
      obtain ⟨-, quits | ⟨tame, -⟩⟩ := replays _ head
      · exact quits.elim
      · exact tame.elim
  | refused head answer =>
      obtain ⟨may, quits | ⟨tame, checks, ends⟩⟩ := replays _ head
      · exact quits.elim
      · rintro _ ⟨⟩
        refine ⟨fun outcome may_ => may outcome ⟨_, may_⟩, .inr ⟨tame.2.2.1 _ _ answer,
          fun checked => ?_, fun same result last alone => ?_⟩⟩
        · obtain ⟨⟨_, ⟨⟩⟩, -⟩ := checks checked
        · apply ends same
          simpa only [Job.Alone, answer] using alone
  | exec head answer =>
      obtain ⟨may, quits | ⟨tame, checks, ends⟩⟩ := replays _ head
      · exact quits.elim
      · rintro _ ⟨⟩
        refine ⟨fun outcome may_ => may outcome ⟨_, may_⟩, .inr ⟨tame.2.1 _ _ answer,
          fun checked => ?_, fun same result last alone => ?_⟩⟩
        · obtain ⟨⟨_, ⟨⟩⟩, -⟩ := checks checked
        · apply ends same
          simpa only [Job.Alone, answer] using alone
  | passed head unchecked holds =>
      rintro job now
      have same : client.job = some job := now
      obtain ⟨may, quits | ⟨tame, -, ends⟩⟩ := replays job same
      · exact ⟨may, .inl quits⟩
      · obtain rfl := Option.some.inj (head.symm.trans same)
        exact ⟨may, .inr ⟨tame, fun _ => ⟨⟨_, rfl⟩, fun _ => holds⟩, ends⟩⟩
  | violated head unchecked fails =>
      obtain ⟨may, quits | ⟨tame, checks, ends⟩⟩ := replays _ head
      · exact quits.elim
      · rintro _ ⟨⟩
        refine ⟨fun outcome may_ => may outcome ⟨_, may_⟩, .inr ⟨tame.2.1 _,
          fun checked => ?_, fun same result last alone => ?_⟩⟩
        · exact nomatch unchecked.symm.trans checked
        · apply ends same
          simpa only [Job.Alone, fails] using alone
  | publish head checked =>
      obtain ⟨may, quits | ⟨tame, checks, ends⟩⟩ := replays _ head
      · exact quits.elim
      · rintro _ ⟨⟩
        refine ⟨fun outcome may_ => may outcome ⟨_, may_⟩, .inr ⟨tame.2.1 _,
          (fun checked => nomatch checked), fun back result last alone => ?_⟩⟩
        apply ends (gone back)
        simpa only [Job.Alone, (checks checked).2 (gone back)] using alone
  | rollback head =>
      obtain ⟨may, quits | ⟨tame, checks, ends⟩⟩ := replays _ head
      · have rest : Job.Quits script.gaveUp _ := quits
        rintro _ ⟨⟩
        exact ⟨may, .inl rest⟩
      · have rest : Job.Tame script _ [] := tame
        rintro _ ⟨⟩
        refine ⟨may, .inr ⟨rest, fun checked => ?_, ends⟩⟩
        obtain ⟨⟨_, ⟨⟩⟩, -⟩ := checks checked
  | answer response head =>
      have replied := answered _ _ response rfl head
      obtain ⟨may, quits | ⟨tame, checks, ends⟩⟩ := replays _ head
      · exact quits.elim
      · rintro _ ⟨⟩
        refine ⟨fun outcome may_ => may outcome ⟨_, may_⟩, .inr ⟨tame.1 _,
          fun checked => ?_, fun same result last alone => ?_⟩⟩
        · obtain ⟨⟨_, ⟨⟩⟩, -⟩ := checks checked
        · exact ends same result last ⟨response, replied, alone⟩
  | faultStmt e head =>
      obtain ⟨may, quits | ⟨tame, -⟩⟩ := replays _ head
      · exact quits.elim
      · rintro _ ⟨⟩
        exact ⟨fun outcome may_ => may outcome ⟨_, may_⟩, .inl (tame.2.2.2 e (struck e rfl))⟩
  | faultCommit e head =>
      obtain ⟨may, quits | ⟨tame, -⟩⟩ := replays _ head
      · exact quits.elim
      · rintro _ ⟨⟩
        exact ⟨fun outcome may_ => may outcome ⟨_, may_⟩, .inl (tame.2.2 e (struck e rfl))⟩
  | faultAsk e head =>
      obtain ⟨may, quits | ⟨tame, -⟩⟩ := replays _ head
      · exact quits.elim
      · rintro _ ⟨⟩
        exact ⟨fun outcome may_ => may outcome ⟨_, may_⟩, .inl (tame.2 e (struck e rfl))⟩
  | crash =>
      rintro _ ⟨⟩

/-- A client before its first statement is at its label's body; after, it replays it. -/
def Client.Acts (script : Script σ τ ω ε q a β) (body : ℓ → Job σ ω ε q a ℓ β)
    (allowed : σ → ℓ → Prop) (committed : σ) : Option σ → Client σ ω ε q a ℓ β → Prop
  | none, client => client.writes = [] ∧ client.checked = false ∧
      ∀ job, client.job = some job → job.Quits script.gaveUp ∨
        ∃ label, allowed committed label ∧ (job = .jump label ∨ job = body label)
  | some first, client => ∃ label, allowed first label ∧ allowed committed label ∧
      client.Replays script (body label) first committed

/-- A job that starts with a statement and is tame from there. -/
structure Rehearsed (script : Script σ τ ω ε q a β) (job : Job σ ω ε q a ℓ β) : Prop where
  opens : ∃ emit next, job = .stmt emit next
  tame : job.Tame script []

omit [Store σ ω ε κ] in
theorem firstAfter_some (committed first : σ) (event : Event ε a ℓ) :
    firstAfter committed (some first) event = some first := by
  cases event <;> rfl

/-- About to run its first statement, a client replays its label's body from what is committed. -/
theorem replays_start {job : Job σ ω ε q a ℓ β} (rehearsed : Rehearsed script job)
    (head : client.job = some job) (unwritten : client.writes = []) (unchecked : client.checked = false) :
    client.Replays script job committed committed := by
  intro other now
  obtain rfl := Option.some.inj (head.symm.trans now)
  refine ⟨fun _ may => may, .inr ⟨unwritten ▸ rehearsed.tame,
    (fun checked => nomatch unchecked.symm.trans checked), ?_⟩⟩
  intro _ result last alone
  exact ⟨last, rfl, unwritten ▸ alone⟩

/-- Before its first statement a client has no other move than to reach it, or to give up. -/
theorem acts_before {allowed : σ → ℓ → Prop} {job : Job σ ω ε q a ℓ β}
    (bodies : ∀ label, allowed committed label → Rehearsed script (body label))
    (acts : client.Acts script body allowed committed none) (head : client.job = some job) :
    job.Quits script.gaveUp ∨ (∃ label, allowed committed label ∧ job = .jump label) ∨
      ∃ label emit next, allowed committed label ∧ job = body label ∧ job = .stmt emit next := by
  rcases acts.2.2 job head with quits | ⟨label, permitted, rfl | rfl⟩
  · exact .inl quits
  · exact .inr (.inl ⟨label, permitted, rfl⟩)
  · obtain ⟨emit, next, opens⟩ := (bodies label permitted).opens
    exact .inr (.inr ⟨label, emit, next, permitted, rfl, opens⟩)

theorem Client.Acts.moves {allowed : σ → ℓ → Prop} {seen : Option σ}
    (bodies : ∀ label, allowed committed label → Rehearsed script (body label))
    (lasting : ∀ label, allowed committed label → allowed later label)
    (acts : client.Acts script body allowed committed seen)
    (moves : Moves body committed i client event moved later)
    (answered : ∀ request next response, event = .answer i response →
      client.job = some (.ask request next) → script.answers request response)
    (struck : ∀ e, event = .fault i e → script.lost e)
    (gone : ∀ first, firstAfter committed seen event = some first →
      script.core later = script.core first → script.core committed = script.core first) :
    moved.Acts script body allowed later (firstAfter committed seen event) := by
  cases seen with
  | some first =>
      rw [firstAfter_some] at gone ⊢
      obtain ⟨label, then_, now, replays⟩ := acts
      exact ⟨label, then_, lasting label now,
        replays.moves moves answered struck (gone first rfl)⟩
  | none =>
      have whole := acts
      obtain ⟨unwritten, unchecked, -⟩ := acts
      -- The first statement is where the replay starts.
      have starts {emit : σ → Except ε (List ω)} {next : Except ε σ → Job σ ω ε q a ℓ β}
          (head : client.job = some (.stmt emit next)) :
          ∃ label, allowed committed label ∧ client.Replays script (body label) committed committed := by
        rcases acts_before bodies whole head with quits | ⟨_, _, ⟨⟩⟩ | ⟨label, _, _, permitted, same, -⟩
        · exact quits.elim
        · exact ⟨label, permitted,
            replays_start (bodies label permitted) (same ▸ head) unwritten unchecked⟩
      have own := moves
      cases moves with
      | jump head =>
          rcases acts_before bodies whole head with quits | ⟨_, permitted, ⟨⟩⟩ | ⟨_, _, _, _, -, ⟨⟩⟩
          · exact quits.elim
          · refine ⟨unwritten, unchecked, ?_⟩
            rintro _ ⟨⟩
            exact .inr ⟨_, lasting _ permitted, .inr rfl⟩
      | refused head answer =>
          obtain ⟨label, permitted, replays⟩ := starts head
          exact ⟨label, permitted, permitted,
            replays.moves own answered struck fun _ => rfl⟩
      | exec head answer =>
          obtain ⟨label, permitted, replays⟩ := starts head
          exact ⟨label, permitted, permitted,
            replays.moves own answered struck fun _ => rfl⟩
      | passed head unchecked holds =>
          rcases acts_before bodies whole head with quits | ⟨_, _, ⟨⟩⟩ | ⟨_, _, _, _, -, ⟨⟩⟩
          exact quits.elim
      | violated head unchecked fails =>
          rcases acts_before bodies whole head with quits | ⟨_, _, ⟨⟩⟩ | ⟨_, _, _, _, -, ⟨⟩⟩
          exact quits.elim
      | publish head checked =>
          rcases acts_before bodies whole head with quits | ⟨_, _, ⟨⟩⟩ | ⟨_, _, _, _, -, ⟨⟩⟩
          exact quits.elim
      | rollback head =>
          rcases acts_before bodies whole head with quits | ⟨_, _, ⟨⟩⟩ | ⟨_, _, _, _, -, ⟨⟩⟩
          have rest : Job.Quits script.gaveUp _ := quits
          refine ⟨rfl, unchecked, ?_⟩
          rintro _ ⟨⟩
          exact .inl rest
      | answer response head =>
          rcases acts_before bodies whole head with quits | ⟨_, _, ⟨⟩⟩ | ⟨_, _, _, _, -, ⟨⟩⟩
          exact quits.elim
      | faultStmt e head =>
          obtain ⟨label, permitted, replays⟩ := starts head
          obtain ⟨-, quits | ⟨tame, -⟩⟩ := replays _ head
          · exact quits.elim
          · refine ⟨unwritten, unchecked, ?_⟩
            rintro _ ⟨⟩
            exact .inl (tame.2.2.2 e (struck e rfl))
      | faultCommit e head =>
          rcases acts_before bodies whole head with quits | ⟨_, _, ⟨⟩⟩ | ⟨_, _, _, _, -, ⟨⟩⟩
          exact quits.elim
      | faultAsk e head =>
          rcases acts_before bodies whole head with quits | ⟨_, _, ⟨⟩⟩ | ⟨_, _, _, _, -, ⟨⟩⟩
          exact quits.elim
      | crash =>
          refine ⟨rfl, rfl, ?_⟩
          rintro _ ⟨⟩

/-- The moves of others leave what a client replays, unless they bring a core back. -/
theorem Client.Acts.unmoved {allowed : σ → ℓ → Prop} {seen : Option σ}
    (respects : Respects script.core)
    (lasting : ∀ label, allowed committed label → allowed later label)
    (acts : client.Acts script body allowed committed seen)
    (gone : ∀ first, seen = some first →
      script.core later = script.core first → script.core committed = script.core first) :
    client.Acts script body allowed later seen := by
  cases seen with
  | some first =>
      obtain ⟨label, then_, now, replays⟩ := acts
      exact ⟨label, then_, lasting label now, replays.unmoved respects (gone first rfl)⟩
  | none =>
      obtain ⟨unwritten, unchecked, heads⟩ := acts
      refine ⟨unwritten, unchecked, fun job head => ?_⟩
      rcases heads job head with quits | ⟨label, permitted, place⟩
      · exact .inl quits
      · exact .inr ⟨label, lasting label permitted, place⟩

/-- One event keeps what every client replays, unless it brings a core back. -/
theorem acts_step {allowed : σ → ℓ → Prop} {firsts : Firsts σ} {sys after : System σ ω ε q a ℓ β}
    [DecidableEq κ] (respects : Respects script.core)
    (bodies : ∀ label, allowed sys.committed label → Rehearsed script (body label))
    (lasting : ∀ label, allowed sys.committed label → allowed after.committed label)
    (spawned : ∀ label, event = .spawn label → allowed sys.committed label)
    (admitted : script.Admits sys event) (step : Step body sys event after)
    (gone : ∀ i first, firsts.after sys.committed event i = some first →
      script.core after.committed = script.core first →
      script.core sys.committed = script.core first)
    (each : Each (Client.Acts script body allowed sys.committed) firsts sys) :
    Each (Client.Acts script body allowed after.committed) (firsts.after sys.committed event)
      after := by
  refine each_step step each ?_ ?_ ?_
  · intro label same
    refine ⟨rfl, rfl, ?_⟩
    rintro _ ⟨⟩
    exact .inr ⟨label, lasting label (spawned label same), .inl rfl⟩
  · intro j client same acts
    exact acts.unmoved respects lasting fun first seen => gone j first (same.trans seen)
  · intro i client next found moves acts
    refine acts.moves bodies lasting moves ?_ ?_ fun first seen => gone i first ?_
    · rintro request next response rfl head
      generalize after.committed = later at moves
      cases moves with
      | answer response _ => exact admitted client request next found head
    · rintro e rfl
      generalize after.committed = later at moves
      cases moves with
      | faultStmt e _ => exact admitted
      | faultCommit e _ => exact admitted
      | faultAsk e _ => exact admitted
    · rw [Firsts.after_self moves]
      exact seen

end Clients

end Isolation
