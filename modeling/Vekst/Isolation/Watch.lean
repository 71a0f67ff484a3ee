import Vekst.Isolation.Embed
import Vekst.Isolation.Moves

namespace Isolation

variable {σ ω ε κ q a ℓ β α : Type}

/-! ## Jobs whose writes depend on what they first saw -/

/-- Without another turn of a loop, every write the job makes is one it may make. -/
def Job.Writes (may : ω → Prop) : Job σ ω ε q a ℓ β → Prop
  | .done _ => True
  | .jump _ => False
  | .ask _ next => ∀ response, (next response).Writes may
  | .stmt emit next =>
      (∀ s writes, emit s = .ok writes → ∀ w ∈ writes, may w) ∧ ∀ answer, (next answer).Writes may
  | .commit next => ∀ result, (next result).Writes may
  | .rollback next => next.Writes may

/-- The same of a job about to run its first statement, for the state that statement sees. -/
def Job.First (may : σ → ω → Prop) : Job σ ω ε q a ℓ β → Prop
  | .stmt emit next =>
      (∀ s, (∀ writes, emit s = .ok writes → ∀ w ∈ writes, may s w) ∧
        (next (.ok s)).Writes (may s)) ∧
      ∀ e s, (next (.error e)).Writes (may s)
  | job => ∀ s, job.Writes (may s)

theorem Job.Writes.mono {may weaker : ω → Prop} {job : Job σ ω ε q a ℓ β} (writes : job.Writes may)
    (weaken : ∀ w, may w → weaker w) : job.Writes weaker := by
  induction job with
  | done outcome => trivial
  | jump label => exact writes
  | ask request next ih => exact fun response => ih response (writes response)
  | stmt emit next ih =>
      refine ⟨fun s made emitted w member => weaken w (writes.1 s made emitted w member), ?_⟩
      exact fun answer => ih answer (writes.2 answer)
  | commit next ih => exact fun result => ih result (writes result)
  | rollback next ih => exact ih writes

theorem first_of_writes {may : σ → ω → Prop} {job : Job σ ω ε q a ℓ β}
    (always : ∀ s, job.Writes (may s)) : job.First may := by
  cases job with
  | stmt emit next => exact ⟨fun s => ⟨(always s).1 s, (always s).2 _⟩, fun e s => (always s).2 _⟩
  | _ => exact always

theorem writes_inTx {may : ω → Prop} {next : Except ε α → Job σ ω ε q a ℓ β} {p : Prog σ ω ε α}
    (emits : p.Emits fun _ writes => ∀ w ∈ writes, may w)
    (rest : ∀ result, (next result).Writes may) : (inTx next p).Writes may := by
  induction p with
  | ret answer =>
      intro result
      cases result <;> exact rest _
  | fail e => exact rest _
  | stmt emit after ih =>
      simp only [inTx, Job.Writes]
      refine ⟨fun s => (emits s).1, fun answer => ?_⟩
      cases answer with
      | error e => exact rest _
      | ok s => exact ih s (emits s).2

theorem writes_lift {σ' ω' q' a' ℓ' β' : Type}
    {into : Embedding σ σ' ω ω' ε q q' a a' ℓ ℓ' β β'} {may : ω → Prop} {mayLarger : ω' → Prop}
    {job : Job σ ω ε q a ℓ β} (writes : job.Writes may)
    (allowed : ∀ w, may w → mayLarger (into.inject w)) : (job.lift into).Writes mayLarger := by
  induction job with
  | done outcome => trivial
  | jump label => exact writes.elim
  | ask request next ih => exact fun response => ih _ (writes _)
  | stmt emit next ih =>
      refine ⟨fun s made emitted w member => ?_, fun answer => ih _ (writes.2 _)⟩
      cases found : emit (into.view s) with
      | error e => simp [found, Except.map] at emitted
      | ok smaller =>
          obtain rfl : smaller.map into.inject = made := by simpa [found, Except.map] using emitted
          obtain ⟨small, known, rfl⟩ := List.mem_map.mp member
          exact allowed small (writes.1 _ _ found small known)
  | commit next ih => exact fun result => ih _ (writes result)
  | rollback next ih => exact ih writes

theorem writes_map {β' : Type} {f : β → β'} {may : ω → Prop} {job : Job σ ω ε q a ℓ β}
    (writes : job.Writes may) : (job.map f).Writes may := by
  induction job with
  | done outcome => trivial
  | jump label => exact writes.elim
  | ask request next ih => exact fun response => ih response (writes response)
  | stmt emit next ih => exact ⟨writes.1, fun answer => ih answer (writes.2 answer)⟩
  | commit next ih => exact fun result => ih result (writes result)
  | rollback next ih => exact ih writes

theorem first_map {β' : Type} {f : β → β'} {may : σ → ω → Prop} {job : Job σ ω ε q a ℓ β}
    (first : job.First may) : (job.map f).First may := by
  cases job with
  | stmt emit next =>
      exact ⟨fun s => ⟨(first.1 s).1, writes_map (first.1 s).2⟩, fun e s => writes_map (first.2 e s)⟩
  | _ => exact fun s => writes_map (first s)

/-- A transaction of one statement, whose answer tells what the statement saw. -/
theorem first_exec {may : σ → ω → Prop} {next : Except ε α → Job σ ω ε q a ℓ β}
    {f : σ → Except ε (List ω × α)}
    (made : ∀ s writes answer, f s = .ok (writes, answer) →
      (∀ w ∈ writes, may s w) ∧ (next (.ok answer)).Writes (may s))
    (failed : ∀ e s, (next (.error e)).Writes (may s)) : (inTx next (Prog.exec f)).First may := by
  simp only [Prog.exec, inTx, Job.First]
  refine ⟨fun s => ?_, failed⟩
  cases found : f s with
  | error e => exact ⟨by simp [Except.map], failed e s⟩
  | ok result =>
      obtain ⟨allowed, after⟩ := made s result.1 result.2 found
      refine ⟨?_, ?_⟩
      · intro writes emitted
        obtain rfl : result.1 = writes := by simpa [found, Except.map] using emitted
        exact allowed
      · simp only [inTx]
        intro committed
        cases committed with
        | ok => exact after
        | error e => exact failed e s

theorem first_query {may : σ → ω → Prop} {next : Except ε α → Job σ ω ε q a ℓ β}
    {f : σ → Except ε α} (found : ∀ s answer, f s = .ok answer → (next (.ok answer)).Writes (may s))
    (failed : ∀ e s, (next (.error e)).Writes (may s)) : (inTx next (Prog.query f)).First may := by
  simp only [Prog.query, inTx, Job.First]
  refine ⟨fun s => ?_, failed⟩
  cases seen : f s with
  | error e => exact ⟨by simp [Except.map], failed e s⟩
  | ok answer =>
      refine ⟨?_, ?_⟩
      · intro writes emitted
        obtain rfl : [] = writes := by simpa [seen, Except.map] using emitted
        simp
      · simp only [inTx]
        intro committed
        cases committed with
        | ok => exact found s answer seen
        | error e => exact failed e s

/-- A job whose every write a discipline guarantees, whatever the state. -/
theorem keeps_of_writes {rules : Discipline σ ω a ℓ} {may : ω → Prop} {job : Job σ ω ε q a ℓ β}
    {pending : List ω} (writes : job.Writes may)
    (guaranteed : ∀ pending s made, (∀ w ∈ made, may w) → rules.guarantee pending s made) :
    job.Keeps rules pending := by
  induction job generalizing pending with
  | done outcome => trivial
  | jump label => exact writes.elim
  | ask request next ih => exact ⟨fun _ _ => ih _ (writes _), fun _ => ih _ (writes _)⟩
  | stmt emit next ih =>
      refine ⟨fun s made emitted => ?_, fun e => ih _ (writes.2 _)⟩
      exact ⟨guaranteed pending s made (writes.1 s made emitted), ih _ (writes.2 _)⟩
  | commit next ih => exact fun result => ih _ (writes result)
  | rollback next ih => exact ih writes

/-! ## Runs that remember what each client first saw -/

/-- The committed state each client's first statement saw. -/
abbrev Firsts (σ : Type) := Nat → Option σ

/-- The first state a client has seen, after an event of its own. -/
def firstAfter (committed : σ) (first : Option σ) : Event ε a ℓ → Option σ
  | .exec _ => first.or (some committed)
  | _ => first

def Firsts.after (firsts : Firsts σ) (committed : σ) (event : Event ε a ℓ) : Firsts σ :=
  match event with
  | .exec i => Function.update firsts i (firstAfter committed (firsts i) event)
  | _ => firsts

theorem Firsts.after_eq (firsts : Firsts σ) (committed : σ) (event : Event ε a ℓ) (i : Nat) :
    firsts.after committed event i = firsts i ∨ firsts.after committed event i = some committed := by
  cases event with
  | exec j =>
      simp only [Firsts.after, firstAfter]
      by_cases same : i = j
      · subst same
        rw [Function.update_self]
        cases firsts i with
        | none => exact .inr rfl
        | some s => exact .inl rfl
      · exact .inl (Function.update_of_ne same _ _)
  | _ => exact .inl rfl

variable [Store σ ω ε κ] [DecidableEq κ]

inductive Watched (body : ℓ → Job σ ω ε q a ℓ β)
    (admits : Firsts σ → System σ ω ε q a ℓ β → Event ε a ℓ → Prop) (seen : Firsts σ)
    (start : System σ ω ε q a ℓ β) : Firsts σ → System σ ω ε q a ℓ β → Prop
  | refl : Watched body admits seen start seen start
  | step {firsts : Firsts σ} {sys after : System σ ω ε q a ℓ β} {event : Event ε a ℓ}
      (watched : Watched body admits seen start firsts sys) (admitted : admits firsts sys event)
      (fired : fire body sys event = some after) :
      Watched body admits seen start (firsts.after sys.committed event) after

variable {body : ℓ → Job σ ω ε q a ℓ β}
  {admits : Firsts σ → System σ ω ε q a ℓ β → Event ε a ℓ → Prop} {seen firsts later : Firsts σ}
  {start sys last : System σ ω ε q a ℓ β}

theorem Watched.trans (watched : Watched body admits seen start firsts sys)
    (rest : Watched body admits firsts sys later last) :
    Watched body admits seen start later last := by
  induction rest with
  | refl => exact watched
  | step _ admitted fired ih => exact .step ih admitted fired

theorem Watched.invariant {Inv : Firsts σ → System σ ω ε q a ℓ β → Prop}
    (watched : Watched body admits seen start firsts sys) (initially : Inv seen start)
    (kept : ∀ firsts sys event after, admits firsts sys event → Step body sys event after →
      Inv firsts sys → Inv (firsts.after sys.committed event) after) : Inv firsts sys := by
  induction watched with
  | refl => exact initially
  | step _ admitted fired ih => exact kept _ _ _ _ admitted (step_of_fire fired) ih

/-- Every event of a list is admitted where it happens. -/
def WatchesAll (body : ℓ → Job σ ω ε q a ℓ β)
    (admits : Firsts σ → System σ ω ε q a ℓ β → Event ε a ℓ → Prop) (firsts : Firsts σ)
    (sys : System σ ω ε q a ℓ β) : List (Event ε a ℓ) → Prop
  | [] => True
  | event :: rest => admits firsts sys event ∧
      ∀ next, fire body sys event = some next →
        WatchesAll body admits (firsts.after sys.committed event) next rest

instance decidableWatchesAll {body : ℓ → Job σ ω ε q a ℓ β}
    {admits : Firsts σ → System σ ω ε q a ℓ β → Event ε a ℓ → Prop}
    [decided : ∀ firsts sys event, Decidable (admits firsts sys event)] (firsts : Firsts σ)
    (sys : System σ ω ε q a ℓ β) :
    (events : List (Event ε a ℓ)) → Decidable (WatchesAll body admits firsts sys events)
  | [] => isTrue trivial
  | event :: rest =>
      have further : Decidable (∀ next, fire body sys event = some next →
          WatchesAll body admits (firsts.after sys.committed event) next rest) :=
        decideNext fun next => decidableWatchesAll _ next rest
      @instDecidableAnd _ _ (decided firsts sys event) further

theorem Watched.of_fireAll {events : List (Event ε a ℓ)}
    (admitted : WatchesAll body admits seen start events)
    (fired : fireAll body start events = some last) :
    ∃ firsts, Watched body admits seen start firsts last := by
  induction events generalizing seen start with
  | nil =>
      obtain rfl := Option.some.inj fired
      exact ⟨_, .refl⟩
  | cons event rest ih =>
      obtain ⟨next, first, further⟩ := Option.bind_eq_some_iff.mp fired
      have one : Watched body admits seen start (seen.after start.committed event) next :=
        .step .refl admitted.1 first
      obtain ⟨firsts, watched⟩ := ih (admitted.2 next first) further
      exact ⟨firsts, one.trans watched⟩

/-! ## What the clients hold -/

/-- A property of each client beside what it first saw. -/
def Each (holds : Option σ → Client σ ω ε q a ℓ β → Prop) (firsts : Firsts σ)
    (sys : System σ ω ε q a ℓ β) : Prop :=
  (∀ i, sys.clients.length ≤ i → firsts i = none) ∧
  ∀ i client, sys.clients[i]? = some client → holds (firsts i) client

omit [Store σ ω ε κ] [DecidableEq κ] in
theorem Firsts.after_other {i j : Nat} {committed : σ} {client moved : Client σ ω ε q a ℓ β}
    {event : Event ε a ℓ} [Store σ ω ε κ] {later : σ}
    (moves : Moves body committed i client event moved later) (different : j ≠ i) :
    firsts.after committed event j = firsts j := by
  cases moves with
  | refused head answer => exact Function.update_of_ne different _ _
  | exec head answer => exact Function.update_of_ne different _ _
  | _ => rfl

omit [Store σ ω ε κ] [DecidableEq κ] in
theorem Firsts.after_self {i : Nat} {committed : σ} {client moved : Client σ ω ε q a ℓ β}
    {event : Event ε a ℓ} [Store σ ω ε κ] {later : σ}
    (moves : Moves body committed i client event moved later) :
    firsts.after committed event i = firstAfter committed (firsts i) event := by
  cases moves with
  | refused head answer => exact Function.update_self _ _ _
  | exec head answer => exact Function.update_self _ _ _
  | _ => rfl

/-- What a new client has, a client's own move keeps and the moves of the others leave. -/
theorem each_step {holds holdsAfter : Option σ → Client σ ω ε q a ℓ β → Prop}
    {event : Event ε a ℓ} {after : System σ ω ε q a ℓ β} (step : Step body sys event after)
    (each : Each holds firsts sys)
    (spawned : ∀ label, event = .spawn label → holdsAfter none (.started label))
    (unmoved : ∀ j client, firsts.after sys.committed event j = firsts j →
      holds (firsts j) client → holdsAfter (firsts j) client)
    (moved : ∀ i client next, sys.clients[i]? = some client →
      Moves body sys.committed i client event next after.committed →
      holds (firsts i) client → holdsAfter (firstAfter sys.committed (firsts i) event) next) :
    Each holdsAfter (firsts.after sys.committed event) after := by
  obtain ⟨fresh, all⟩ := each
  cases split_of_step step with
  | spawn label same started =>
      subst same started
      refine ⟨fun i past => fresh i ?_, fun i client found => ?_⟩
      · simp only [List.length_append, List.length_singleton] at past
        exact Nat.le_of_succ_le past
      change holdsAfter (firsts i) client
      rcases Nat.lt_trichotomy i sys.clients.length with old | rfl | past
      · rw [List.getElem?_append_left old] at found
        exact unmoved i client rfl (all i client found)
      · obtain rfl : Client.started label = client := by simpa using found
        rw [fresh _ (Nat.le_refl _)]
        exact spawned label rfl
      · have outside : (sys.clients ++ [Client.started label]).length ≤ i := by
          rw [List.length_append]
          exact past
        rw [List.getElem?_eq_none outside] at found
        cases found
  | move i client next found moves clients =>
      refine ⟨fun j past => ?_, fun j other place => ?_⟩
      · rw [clients, List.length_set] at past
        have different : j ≠ i := by
          rintro rfl
          exact Nat.lt_irrefl _ (Nat.lt_of_lt_of_le (List.getElem?_eq_some_iff.mp found).1 past)
        rw [Firsts.after_other moves different]
        exact fresh j past
      · rw [clients, List.getElem?_set] at place
        split at place
        next same =>
          subst same
          split at place
          next =>
            obtain rfl := Option.some.inj place
            rw [Firsts.after_self moves]
            exact moved i client next found moves (all i client found)
          next => cases place
        next different =>
          have same : firsts.after _ _ j = firsts j := Firsts.after_other moves (Ne.symm different)
          rw [same]
          exact unmoved j other same (all j other place)

/-- What a client has written and still may write, given what it first saw. -/
def Client.Bound (may : σ → ω → Prop) : Option σ → Client σ ω ε q a ℓ β → Prop
  | none, client => client.writes = [] ∧
      ∀ job, client.job = some job → (∃ label, job = .jump label) ∨ job.First may
  | some s, client => (∀ w ∈ client.writes, may s w) ∧
      ∀ job, client.job = some job → job.Writes (may s)

omit [DecidableEq κ] in
theorem Client.Bound.moves {may : σ → ω → Prop} {committed next : σ} {first : Option σ} {i : Nat}
    {client moved : Client σ ω ε q a ℓ β} {event : Event ε a ℓ}
    (bodies : ∀ label, (body label).First may) (bound : client.Bound may first)
    (moves : Moves body committed i client event moved next) :
    moved.Bound may (firstAfter committed first event) := by
  cases first with
  | none =>
      obtain ⟨unwritten, head⟩ := bound
      have ready : ∀ job, client.job = some job → (∃ label, job = .jump label) ∨ job.First may := head
      cases moves with
      | jump head =>
          refine ⟨unwritten, ?_⟩
          rintro _ ⟨⟩
          exact .inr (bodies _)
      | refused head answer =>
          rcases ready _ head with ⟨_, ⟨⟩⟩ | opens
          refine ⟨by simp [unwritten], ?_⟩
          rintro _ ⟨⟩
          exact opens.2 _ _
      | exec head answer =>
          rcases ready _ head with ⟨_, ⟨⟩⟩ | opens
          rw [unwritten] at answer
          refine ⟨?_, ?_⟩
          · rw [unwritten]
            exact (opens.1 committed).1 _ answer
          · rw [unwritten]
            rintro _ ⟨⟩
            exact (opens.1 committed).2
      | passed head unchecked holds => exact ⟨unwritten, ready⟩
      | violated head unchecked fails =>
          rcases ready _ head with ⟨_, ⟨⟩⟩ | opens
          refine ⟨rfl, ?_⟩
          rintro _ ⟨⟩
          exact .inr (first_of_writes fun s => opens s _)
      | publish head checked =>
          rcases ready _ head with ⟨_, ⟨⟩⟩ | opens
          refine ⟨rfl, ?_⟩
          rintro _ ⟨⟩
          exact .inr (first_of_writes fun s => opens s _)
      | rollback head =>
          rcases ready _ head with ⟨_, ⟨⟩⟩ | opens
          refine ⟨rfl, ?_⟩
          rintro _ ⟨⟩
          exact .inr (first_of_writes fun s => opens s)
      | answer response head =>
          rcases ready _ head with ⟨_, ⟨⟩⟩ | opens
          refine ⟨unwritten, ?_⟩
          rintro _ ⟨⟩
          exact .inr (first_of_writes fun s => opens s _)
      | faultStmt e head =>
          rcases ready _ head with ⟨_, ⟨⟩⟩ | opens
          refine ⟨unwritten, ?_⟩
          rintro _ ⟨⟩
          exact .inr (first_of_writes fun s => opens.2 _ s)
      | faultCommit e head =>
          rcases ready _ head with ⟨_, ⟨⟩⟩ | opens
          refine ⟨rfl, ?_⟩
          rintro _ ⟨⟩
          exact .inr (first_of_writes fun s => opens s _)
      | faultAsk e head =>
          rcases ready _ head with ⟨_, ⟨⟩⟩ | opens
          refine ⟨unwritten, ?_⟩
          rintro _ ⟨⟩
          exact .inr (first_of_writes fun s => opens s _)
      | crash =>
          refine ⟨rfl, ?_⟩
          rintro _ ⟨⟩
  | some s =>
      obtain ⟨written, ready⟩ := bound
      have same : firstAfter committed (some s) event = some s := by cases event <;> rfl
      rw [same]
      cases moves with
      | jump head => exact (ready _ head).elim
      | refused head answer =>
          refine ⟨written, ?_⟩
          rintro _ ⟨⟩
          exact (ready _ head).2 _
      | exec head answer =>
          refine ⟨?_, ?_⟩
          · intro w member
            rcases List.mem_append.mp member with old | new
            · exact written w old
            · exact (ready _ head).1 _ _ answer w new
          · rintro _ ⟨⟩
            exact (ready _ head).2 _
      | passed head unchecked holds => exact ⟨written, ready⟩
      | violated head unchecked fails =>
          refine ⟨by simp, ?_⟩
          rintro _ ⟨⟩
          exact ready _ head _
      | publish head checked =>
          refine ⟨by simp, ?_⟩
          rintro _ ⟨⟩
          exact ready _ head _
      | rollback head =>
          have rest : Job.Writes (may s) _ := ready _ head
          refine ⟨by simp, ?_⟩
          rintro _ ⟨⟩
          exact rest
      | answer response head =>
          refine ⟨written, ?_⟩
          rintro _ ⟨⟩
          exact ready _ head _
      | faultStmt e head =>
          refine ⟨written, ?_⟩
          rintro _ ⟨⟩
          exact (ready _ head).2 _
      | faultCommit e head =>
          refine ⟨by simp, ?_⟩
          rintro _ ⟨⟩
          exact ready _ head _
      | faultAsk e head =>
          refine ⟨written, ?_⟩
          rintro _ ⟨⟩
          exact ready _ head _
      | crash =>
          refine ⟨by simp, ?_⟩
          rintro _ ⟨⟩

/-- Every client of a run from an idle system is bound by what it first saw. -/
theorem Watched.bound {may : σ → ω → Prop} (bodies : ∀ label, (body label).First may)
    (watched : Watched body admits (fun _ => none) start firsts sys) (idle : start.clients = []) :
    Each (Client.Bound may) firsts sys := by
  refine watched.invariant ⟨fun _ _ => rfl, by simp [idle]⟩ ?_
  intro firsts sys event after _ step each
  refine each_step step each ?_ (fun _ _ _ held => held) ?_
  · intro label _
    refine ⟨rfl, ?_⟩
    rintro _ ⟨⟩
    exact .inl ⟨label, rfl⟩
  · intro i client next _ moves bound
    exact bound.moves bodies moves

end Isolation
