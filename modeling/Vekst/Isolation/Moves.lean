import Vekst.Isolation.View

namespace Isolation

variable {σ ω ε κ q a ℓ β : Type} [Store σ ω ε κ] [DecidableEq κ]

/-! ## One client's events -/

/-- What an event of its own does to a client and to the committed state. -/
inductive Moves (body : ℓ → Job σ ω ε q a ℓ β) (committed : σ) (i : Nat)
    (client : Client σ ω ε q a ℓ β) : Event ε a ℓ → Client σ ω ε q a ℓ β → σ → Prop
  | jump {label} (head : client.job = some (.jump label)) :
      Moves body committed i client (.jump i) { client with job := some (body label) } committed
  | refused {emit next e} (head : client.job = some (.stmt emit next))
      (answer : emit (visible committed client.writes) = .error e) :
      Moves body committed i client (.exec i) { client with job := some (next (.error e)) } committed
  | exec {emit next writes} (head : client.job = some (.stmt emit next))
      (answer : emit (visible committed client.writes) = .ok writes) :
      Moves body committed i client (.exec i) { client with
        job := some (next (.ok (visible committed client.writes)))
        writes := client.writes ++ writes } committed
  | passed {next} (head : client.job = some (.commit next)) (unchecked : client.checked = false)
      (holds : Store.check (visible committed client.writes) client.writes = .ok ()) :
      Moves body committed i client (.check i) { client with checked := true } committed
  | violated {next e} (head : client.job = some (.commit next)) (unchecked : client.checked = false)
      (fails : Store.check (visible committed client.writes) client.writes = .error e) :
      Moves body committed i client (.check i)
        { client with job := some (next (.error e)), writes := [] } committed
  | publish {next} (head : client.job = some (.commit next)) (checked : client.checked = true) :
      Moves body committed i client (.publish i)
        { client with job := some (next (.ok ())), writes := [], checked := false }
        (visible committed client.writes)
  | rollback {next} (head : client.job = some (.rollback next)) :
      Moves body committed i client (.rollback i)
        { client with job := some next, writes := [] } committed
  | answer {request next} (response : a) (head : client.job = some (.ask request next)) :
      Moves body committed i client (.answer i response) { client with
        job := some (next (.ok response)), asked := client.asked ++ [request] } committed
  | faultStmt {emit next} (e : ε) (head : client.job = some (.stmt emit next)) :
      Moves body committed i client (.fault i e)
        { client with job := some (next (.error e)) } committed
  | faultCommit {next} (e : ε) (head : client.job = some (.commit next)) :
      Moves body committed i client (.fault i e)
        { client with job := some (next (.error e)), writes := [], checked := false } committed
  | faultAsk {request next} (e : ε) (head : client.job = some (.ask request next)) :
      Moves body committed i client (.fault i e) { client with
        job := some (next (.error e)), asked := client.asked ++ [request] } committed
  | crash : Moves body committed i client (.crash i)
      { client with job := none, writes := [], checked := false } committed

variable {body : ℓ → Job σ ω ε q a ℓ β} {admits : System σ ω ε q a ℓ β → Event ε a ℓ → Prop}
  {start sys after : System σ ω ε q a ℓ β} {event : Event ε a ℓ}

/-- An event starts a client, or is the move of one and leaves the others as they were. -/
inductive Split (body : ℓ → Job σ ω ε q a ℓ β) (sys : System σ ω ε q a ℓ β) (event : Event ε a ℓ)
    (after : System σ ω ε q a ℓ β) : Prop
  | spawn (label : ℓ) (same : event = .spawn label)
      (started : after = { sys with clients := sys.clients ++ [.started label] })
  | move (i : Nat) (client moved : Client σ ω ε q a ℓ β) (found : sys.clients[i]? = some client)
      (moves : Moves body sys.committed i client event moved after.committed)
      (clients : after.clients = sys.clients.set i moved)

theorem split_of_step (step : Step body sys event after) : Split body sys event after := by
  cases step with
  | spawn label => exact .spawn label rfl rfl
  | jump found head => exact .move _ _ _ found (.jump head) rfl
  | refused found head answer => exact .move _ _ _ found (.refused head answer) rfl
  | exec found head answer free => exact .move _ _ _ found (.exec head answer) rfl
  | passed found head unchecked holds => exact .move _ _ _ found (.passed head unchecked holds) rfl
  | violated found head unchecked fails => exact .move _ _ _ found (.violated head unchecked fails) rfl
  | publish found head checked => exact .move _ _ _ found (.publish head checked) rfl
  | rollback found head => exact .move _ _ _ found (.rollback head) rfl
  | answer response found head => exact .move _ _ _ found (.answer response head) rfl
  | faultStmt e found head => exact .move _ _ _ found (.faultStmt e head) rfl
  | faultCommit e found head => exact .move _ _ _ found (.faultCommit e head) rfl
  | faultAsk e found head => exact .move _ _ _ found (.faultAsk e head) rfl
  | crash found => exact .move _ _ _ found .crash rfl

omit [DecidableEq κ] in
/-- Only a commit changes what is committed, to what its client sees. -/
theorem Moves.committed_eq {committed later : σ} {i : Nat} {client moved : Client σ ω ε q a ℓ β}
    (moves : Moves body committed i client event moved later) :
    later = committed ∨ event = .publish i ∧ later = visible committed client.writes := by
  cases moves with
  | publish head checked => exact .inr ⟨rfl, rfl⟩
  | _ => exact .inl rfl

omit [DecidableEq κ] in
theorem Moves.of_publish {committed later : σ} {i k : Nat} {client moved : Client σ ω ε q a ℓ β}
    (moves : Moves body committed i client event moved later) (fired : event = .publish k) :
    k = i ∧ later = visible committed client.writes ∧ ∃ next, client.job = some (.commit next) := by
  cases moves with
  | publish head checked =>
      obtain rfl := Event.publish.inj fired
      exact ⟨rfl, rfl, _, head⟩
  | _ => cases fired

omit [DecidableEq κ] in
/-- A client that has ended can do nothing but crash. -/
theorem Moves.of_done {committed later : σ} {i : Nat} {client moved : Client σ ω ε q a ℓ β}
    {outcome : β} (moves : Moves body committed i client event moved later)
    (ended : client.job = some (.done outcome)) : event = .crash i := by
  cases moves with
  | crash => rfl
  | jump head => cases head.symm.trans ended
  | refused head answer => cases head.symm.trans ended
  | exec head answer => cases head.symm.trans ended
  | passed head unchecked holds => cases head.symm.trans ended
  | violated head unchecked fails => cases head.symm.trans ended
  | publish head checked => cases head.symm.trans ended
  | rollback head => cases head.symm.trans ended
  | answer response head => cases head.symm.trans ended
  | faultStmt e head => cases head.symm.trans ended
  | faultCommit e head => cases head.symm.trans ended
  | faultAsk e head => cases head.symm.trans ended

section Heads

variable {committed later : σ} {i : Nat} {client moved : Client σ ω ε q a ℓ β}

omit [DecidableEq κ] in
theorem Moves.of_jump {label : ℓ} (moves : Moves body committed i client event moved later)
    (head : client.job = some (.jump label)) :
    moved = { client with job := some (body label) } ∨ moved.job = none := by
  cases moves with
  | crash => exact .inr rfl
  | jump other =>
      obtain rfl := Job.jump.inj (Option.some.inj (head.symm.trans other))
      exact .inl rfl
  | refused other answer => cases head.symm.trans other
  | exec other answer => cases head.symm.trans other
  | passed other unchecked holds => cases head.symm.trans other
  | violated other unchecked fails => cases head.symm.trans other
  | publish other checked => cases head.symm.trans other
  | rollback other => cases head.symm.trans other
  | answer response other => cases head.symm.trans other
  | faultStmt e other => cases head.symm.trans other
  | faultCommit e other => cases head.symm.trans other
  | faultAsk e other => cases head.symm.trans other

omit [DecidableEq κ] in
/-- A statement is executed on what its client sees, or its failure is handed on. -/
theorem Moves.of_stmt {emit : σ → Except ε (List ω)} {next : Except ε σ → Job σ ω ε q a ℓ β}
    (moves : Moves body committed i client event moved later)
    (head : client.job = some (.stmt emit next)) :
    (∃ writes, event = .exec i ∧ emit (visible committed client.writes) = .ok writes ∧
      moved = { client with
        job := some (next (.ok (visible committed client.writes)))
        writes := client.writes ++ writes }) ∨
    (∃ e, event = .exec i ∧ emit (visible committed client.writes) = .error e ∧
      moved = { client with job := some (next (.error e)) }) ∨
    (∃ e, event = .fault i e ∧ moved = { client with job := some (next (.error e)) }) ∨
    moved.job = none := by
  cases moves with
  | crash => exact .inr (.inr (.inr rfl))
  | exec other answer =>
      obtain ⟨rfl, rfl⟩ := Job.stmt.inj (Option.some.inj (head.symm.trans other))
      exact .inl ⟨_, rfl, answer, rfl⟩
  | refused other answer =>
      obtain ⟨rfl, rfl⟩ := Job.stmt.inj (Option.some.inj (head.symm.trans other))
      exact .inr (.inl ⟨_, rfl, answer, rfl⟩)
  | faultStmt e other =>
      obtain ⟨rfl, rfl⟩ := Job.stmt.inj (Option.some.inj (head.symm.trans other))
      exact .inr (.inr (.inl ⟨e, rfl, rfl⟩))
  | jump other => cases head.symm.trans other
  | passed other unchecked holds => cases head.symm.trans other
  | violated other unchecked fails => cases head.symm.trans other
  | publish other checked => cases head.symm.trans other
  | rollback other => cases head.symm.trans other
  | answer response other => cases head.symm.trans other
  | faultCommit e other => cases head.symm.trans other
  | faultAsk e other => cases head.symm.trans other

omit [DecidableEq κ] in
/-- A commit waits on its check, publishes what is pending, or drops it. -/
theorem Moves.of_commit {next : Except ε Unit → Job σ ω ε q a ℓ β}
    (moves : Moves body committed i client event moved later)
    (head : client.job = some (.commit next)) :
    (later = committed ∧ moved = { client with checked := true }) ∨
    (event = .publish i ∧ later = visible committed client.writes ∧
      moved = { client with job := some (next (.ok ())), writes := [], checked := false }) ∨
    (∃ e checked, later = committed ∧ (Store.check (visible committed client.writes) client.writes = .error e ∨
        event = .fault i e) ∧
      moved = { client with job := some (next (.error e)), writes := [], checked }) ∨
    moved.job = none := by
  cases moves with
  | crash => exact .inr (.inr (.inr rfl))
  | passed other unchecked holds => exact .inl ⟨rfl, rfl⟩
  | publish other checked =>
      obtain rfl := Job.commit.inj (Option.some.inj (head.symm.trans other))
      exact .inr (.inl ⟨rfl, rfl, rfl⟩)
  | violated other unchecked fails =>
      obtain rfl := Job.commit.inj (Option.some.inj (head.symm.trans other))
      exact .inr (.inr (.inl ⟨_, client.checked, rfl, .inl fails, rfl⟩))
  | faultCommit e other =>
      obtain rfl := Job.commit.inj (Option.some.inj (head.symm.trans other))
      exact .inr (.inr (.inl ⟨e, false, rfl, .inr rfl, rfl⟩))
  | jump other => cases head.symm.trans other
  | refused other answer => cases head.symm.trans other
  | exec other answer => cases head.symm.trans other
  | rollback other => cases head.symm.trans other
  | answer response other => cases head.symm.trans other
  | faultStmt e other => cases head.symm.trans other
  | faultAsk e other => cases head.symm.trans other

omit [DecidableEq κ] in
theorem Moves.of_ask {request : q} {next : Except ε a → Job σ ω ε q a ℓ β}
    (moves : Moves body committed i client event moved later)
    (head : client.job = some (.ask request next)) :
    (∃ result, moved = { client with
      job := some (next result), asked := client.asked ++ [request] }) ∨ moved.job = none := by
  cases moves with
  | crash => exact .inr rfl
  | answer response other =>
      obtain ⟨rfl, rfl⟩ := Job.ask.inj (Option.some.inj (head.symm.trans other))
      exact .inl ⟨_, rfl⟩
  | faultAsk e other =>
      obtain ⟨rfl, rfl⟩ := Job.ask.inj (Option.some.inj (head.symm.trans other))
      exact .inl ⟨_, rfl⟩
  | jump other => cases head.symm.trans other
  | refused other answer => cases head.symm.trans other
  | exec other answer => cases head.symm.trans other
  | passed other unchecked holds => cases head.symm.trans other
  | violated other unchecked fails => cases head.symm.trans other
  | publish other checked => cases head.symm.trans other
  | rollback other => cases head.symm.trans other
  | faultStmt e other => cases head.symm.trans other
  | faultCommit e other => cases head.symm.trans other

omit [DecidableEq κ] in
theorem Moves.of_rollback {next : Job σ ω ε q a ℓ β}
    (moves : Moves body committed i client event moved later)
    (head : client.job = some (.rollback next)) :
    moved = { client with job := some next, writes := [] } ∨ moved.job = none := by
  cases moves with
  | crash => exact .inr rfl
  | rollback other =>
      obtain rfl : next = _ := Job.rollback.inj (Option.some.inj (head.symm.trans other))
      exact .inl rfl
  | jump other => cases head.symm.trans other
  | refused other answer => cases head.symm.trans other
  | exec other answer => cases head.symm.trans other
  | passed other unchecked holds => cases head.symm.trans other
  | violated other unchecked fails => cases head.symm.trans other
  | publish other checked => cases head.symm.trans other
  | answer response other => cases head.symm.trans other
  | faultStmt e other => cases head.symm.trans other
  | faultCommit e other => cases head.symm.trans other
  | faultAsk e other => cases head.symm.trans other

variable {α γ : Type} {next : Except ε α → Job σ ω ε q a ℓ β}

omit [DecidableEq κ] [Store σ ω ε κ] in
theorem inTx_ne_done (p : Prog σ ω ε α) (outcome : β) : inTx next p ≠ .done outcome := by
  cases p <;> simp [inTx]

omit [DecidableEq κ] in
/-- A transaction whose next statement writes goes on with its answer, or rolls back. -/
theorem Moves.of_exec {f : σ → Except ε (List ω × γ)} {rest : γ → Prog σ ω ε α}
    (moves : Moves body committed i client event moved later)
    (head : client.job = some (inTx next (Prog.exec f >>= rest))) :
    (∃ writes answer, event = .exec i ∧
      f (visible committed client.writes) = .ok (writes, answer) ∧
      moved = { client with
        job := some (inTx next (rest answer)), writes := client.writes ++ writes }) ∨
    (∃ e, (event = .exec i ∧ f (visible committed client.writes) = .error e ∨ event = .fault i e) ∧
      moved = { client with job := some (.rollback (next (.error e))) }) ∨
    moved.job = none := by
  rw [Prog.exec, Prog.stmt_bind, inTx] at head
  rcases moves.of_stmt head with ⟨writes, fired, answer, rfl⟩ | ⟨e, fired, answer, rfl⟩ |
    ⟨e, fired, rfl⟩ | crashed
  · cases made : f (visible committed client.writes) with
    | error e => simp [made, Except.map] at answer
    | ok result =>
        obtain rfl : result.1 = writes := by simpa [made, Except.map] using answer
        refine .inl ⟨result.1, result.2, fired, rfl, ?_⟩
        simp only [made]
        rfl
  · cases made : f (visible committed client.writes) with
    | error e' =>
        obtain rfl : e' = e := by simpa [made, Except.map] using answer
        exact .inr (.inl ⟨e', .inl ⟨fired, rfl⟩, rfl⟩)
    | ok result => simp [made, Except.map] at answer
  · exact .inr (.inl ⟨e, .inr fired, rfl⟩)
  · exact .inr (.inr crashed)

omit [DecidableEq κ] in
/-- A read that cannot fail of itself. -/
theorem Moves.of_query {f : σ → γ} {rest : γ → Prog σ ω ε α}
    (moves : Moves body committed i client event moved later)
    (head : client.job = some (inTx next ((Prog.query fun s => .ok (f s)) >>= rest))) :
    (event = .exec i ∧ moved = { client with
      job := some (inTx next (rest (f (visible committed client.writes)))) }) ∨
    (∃ e, event = .fault i e ∧ moved = { client with job := some (.rollback (next (.error e))) }) ∨
    moved.job = none := by
  rw [Prog.query, Prog.stmt_bind, inTx] at head
  rcases moves.of_stmt head with ⟨writes, fired, answer, rfl⟩ | ⟨e, fired, answer, rfl⟩ |
    ⟨e, fired, rfl⟩ | crashed
  · obtain rfl : [] = writes := by simpa [Except.map] using answer
    rw [List.append_nil]
    exact .inl ⟨fired, rfl⟩
  · simp [Except.map] at answer
  · exact .inr (.inl ⟨e, fired, rfl⟩)
  · exact .inr (.inr crashed)

omit [DecidableEq κ] in
/-- A transaction that has its answer commits it, or fails at its commit. -/
theorem Moves.of_ret {answer : α} (moves : Moves body committed i client event moved later)
    (head : client.job = some (inTx next (.ret answer))) :
    (later = committed ∧ moved = { client with checked := true }) ∨
    (event = .publish i ∧ later = visible committed client.writes ∧
      moved = { client with job := some (next (.ok answer)), writes := [], checked := false }) ∨
    (∃ e checked, later = committed ∧ (Store.check (visible committed client.writes) client.writes = .error e ∨
        event = .fault i e) ∧
      moved = { client with job := some (next (.error e)), writes := [], checked }) ∨
    moved.job = none :=
  moves.of_commit head

omit [DecidableEq κ] in
theorem Moves.of_none (moves : Moves body committed i client event moved later)
    (gone : client.job = none) : moved.job = none := by
  cases moves with
  | crash => rfl
  | passed other unchecked holds => exact gone
  | jump other => cases gone.symm.trans other
  | refused other answer => cases gone.symm.trans other
  | exec other answer => cases gone.symm.trans other
  | violated other unchecked fails => cases gone.symm.trans other
  | publish other checked => cases gone.symm.trans other
  | rollback other => cases gone.symm.trans other
  | answer response other => cases gone.symm.trans other
  | faultStmt e other => cases gone.symm.trans other
  | faultCommit e other => cases gone.symm.trans other
  | faultAsk e other => cases gone.symm.trans other

omit [DecidableEq κ] in
/-- Only a client at its commit publishes anything. -/
theorem Moves.committed_of (moves : Moves body committed i client event moved later)
    (busy : ∀ next, client.job ≠ some (.commit next)) : later = committed := by
  cases moves with
  | publish head checked => exact absurd head (busy _)
  | _ => rfl

omit [DecidableEq κ] in
theorem Moves.committed_of_stmt {emit : σ → Except ε (List ω)} {rest : σ → Prog σ ω ε α}
    (moves : Moves body committed i client event moved later)
    (head : client.job = some (inTx next (.stmt emit rest))) : later = committed := by
  apply moves.committed_of
  intro _ commits
  rw [head, inTx] at commits
  cases commits

end Heads

/-! ## Runs with the systems they pass through -/

/-- A run and the systems before its events. -/
inductive Trace (body : ℓ → Job σ ω ε q a ℓ β)
    (admits : System σ ω ε q a ℓ β → Event ε a ℓ → Prop) (start : System σ ω ε q a ℓ β) :
    List (System σ ω ε q a ℓ β) → System σ ω ε q a ℓ β → Prop
  | refl : Trace body admits start [] start
  | step {passed : List (System σ ω ε q a ℓ β)} {sys after : System σ ω ε q a ℓ β}
      {event : Event ε a ℓ} (trace : Trace body admits start passed sys)
      (admitted : admits sys event) (fired : fire body sys event = some after) :
      Trace body admits start (passed ++ [sys]) after

/-- The systems before each of the events. -/
def passing (body : ℓ → Job σ ω ε q a ℓ β) (sys : System σ ω ε q a ℓ β) :
    List (Event ε a ℓ) → List (System σ ω ε q a ℓ β)
  | [] => []
  | event :: rest => sys :: (fire body sys event).elim [] fun next => passing body next rest

/-- What holds of every system passed and of every event is what the run was admitted by. -/
theorem AdmitsAll.of_passing {known : System σ ω ε q a ℓ β → Prop} {takes : Event ε a ℓ → Prop}
    {events : List (Event ε a ℓ)} (passed : ∀ before ∈ passing body start events, known before)
    (each : ∀ event ∈ events, takes event) :
    AdmitsAll body (fun sys event => known sys ∧ takes event) start events := by
  induction events generalizing start with
  | nil => trivial
  | cons event rest ih =>
      refine ⟨⟨passed start (by simp [passing]), each event (by simp)⟩, fun next fired => ?_⟩
      apply ih
      · intro before member
        exact passed before (by simp [passing, fired, member])
      · intro later member
        exact each later (by simp [member])

theorem Trace.trans {first later : List (System σ ω ε q a ℓ β)} {last : System σ ω ε q a ℓ β}
    (trace : Trace body admits start first sys) (rest : Trace body admits sys later last) :
    Trace body admits start (first ++ later) last := by
  induction rest with
  | refl => simpa using trace
  | step _ admitted fired ih =>
      rw [← List.append_assoc]
      exact .step ih admitted fired

theorem Trace.of_fireAll {events : List (Event ε a ℓ)}
    (admitted : AdmitsAll body admits start events)
    (fired : fireAll body start events = some after) :
    Trace body admits start (passing body start events) after := by
  induction events generalizing start with
  | nil =>
      obtain rfl := Option.some.inj fired
      exact .refl
  | cons event rest ih =>
      obtain ⟨next, first, later⟩ := Option.bind_eq_some_iff.mp fired
      have one : Trace body admits start [start] next := .step .refl admitted.1 first
      have all := one.trans (ih (admitted.2 next first) later)
      simpa [passing, first] using all

/-! ## Jobs that may only end in some ways -/

/-- Without another turn of a loop, the job ends in an outcome that has the property. -/
def Job.Returns (post : β → Prop) : Job σ ω ε q a ℓ β → Prop
  | .done outcome => post outcome
  | .jump _ => False
  | .ask _ next => ∀ response, (next response).Returns post
  | .stmt _ next => ∀ answer, (next answer).Returns post
  | .commit next => ∀ result, (next result).Returns post
  | .rollback next => next.Returns post

def Client.Returns (post : β → Prop) (client : Client σ ω ε q a ℓ β) : Prop :=
  ∀ job, client.job = some job → job.Returns post

theorem Job.Returns.mono {post weaker : β → Prop} {job : Job σ ω ε q a ℓ β}
    (returns : job.Returns post) (weaken : ∀ outcome, post outcome → weaker outcome) :
    job.Returns weaker := by
  induction job with
  | done outcome => exact weaken outcome returns
  | jump label => exact returns.elim
  | ask request next ih => exact fun response => ih response (returns response)
  | stmt emit next ih => exact fun answer => ih answer (returns answer)
  | commit next ih => exact fun result => ih result (returns result)
  | rollback next ih => exact ih returns

omit [DecidableEq κ] in
theorem Client.Returns.moves {post : β → Prop} {committed later : σ} {i : Nat}
    {client moved : Client σ ω ε q a ℓ β} (returns : client.Returns post)
    (moves : Moves body committed i client event moved later) : moved.Returns post := by
  cases moves with
  | jump head => exact (returns _ head).elim
  | refused head answer =>
      rintro _ ⟨⟩
      exact returns _ head _
  | exec head answer =>
      rintro _ ⟨⟩
      exact returns _ head _
  | passed head unchecked holds => exact returns
  | violated head unchecked fails =>
      rintro _ ⟨⟩
      exact returns _ head _
  | publish head checked =>
      rintro _ ⟨⟩
      exact returns _ head _
  | rollback head =>
      have rest : Job.Returns post _ := returns _ head
      rintro _ ⟨⟩
      exact rest
  | answer response head =>
      rintro _ ⟨⟩
      exact returns _ head _
  | faultStmt e head =>
      rintro _ ⟨⟩
      exact returns _ head _
  | faultCommit e head =>
      rintro _ ⟨⟩
      exact returns _ head _
  | faultAsk e head =>
      rintro _ ⟨⟩
      exact returns _ head _
  | crash =>
      rintro _ ⟨⟩

end Isolation
