import Vekst.Isolation.Program

namespace Isolation

/-- What a database does with the writes of a transaction: how one changes the state, which locks
it takes, and the checks deferred to the commit, made on the state the transaction then sees. -/
class Store (σ : Type) (ω ε κ : outParam Type) where
  apply : σ → ω → σ
  locks : ω → List κ
  check : σ → List ω → Except ε Unit

/-- The rest of a client's work: statements and commits of its transactions, requests to another
service, and jumps to the labels its loops return to. -/
inductive Job (σ ω ε q a ℓ β : Type) where
  | done (outcome : β)
  | jump (label : ℓ)
  | ask (request : q) (next : Except ε a → Job σ ω ε q a ℓ β)
  | stmt (emit : σ → Except ε (List ω)) (next : Except ε σ → Job σ ω ε q a ℓ β)
  | commit (next : Except ε Unit → Job σ ω ε q a ℓ β)
  | rollback (next : Job σ ω ε q a ℓ β)

/-- One transaction around a body: commit when the body answers, roll back when it fails. -/
def inTx {σ ω ε q a ℓ β α : Type} (next : Except ε α → Job σ ω ε q a ℓ β) :
    Prog σ ω ε α → Job σ ω ε q a ℓ β
  | .ret answer => .commit fun
      | .ok () => next (.ok answer)
      | .error e => next (.error e)
  | .fail e => .rollback (next (.error e))
  | .stmt emit rest => .stmt emit fun
      | .ok s => inTx next (rest s)
      | .error e => .rollback (next (.error e))

structure Client (σ ω ε q a ℓ β : Type) where
  /-- Absent once the client has crashed. -/
  job : Option (Job σ ω ε q a ℓ β)
  /-- The writes of its open transaction. -/
  writes : List ω
  /-- Its deferred checks have passed and its commit is under way. -/
  checked : Bool
  /-- The requests it has sent. -/
  asked : List q

structure System (σ ω ε q a ℓ β : Type) where
  committed : σ
  clients : List (Client σ ω ε q a ℓ β)

inductive Event (ε a ℓ : Type) where
  | spawn (label : ℓ)
  | jump (i : Nat)
  | exec (i : Nat)
  | check (i : Nat)
  | publish (i : Nat)
  | rollback (i : Nat)
  | answer (i : Nat) (response : a)
  | fault (i : Nat) (failure : ε)
  | crash (i : Nat)
deriving DecidableEq, Repr

variable {σ ω ε κ q a ℓ β : Type} [Store σ ω ε κ]

/-- Every statement sees what is committed when it starts, under its transaction's own writes. -/
def visible (committed : σ) (writes : List ω) : σ := writes.foldl Store.apply committed

@[simp] theorem visible_nil (committed : σ) : visible committed ([] : List ω) = committed := rfl

theorem visible_append (committed : σ) (earlier later : List ω) :
    visible committed (earlier ++ later) = visible (visible committed earlier) later := by
  simp [visible]

def Client.started (label : ℓ) : Client σ ω ε q a ℓ β where
  job := some (.jump label)
  writes := []
  checked := false
  asked := []

def System.put (sys : System σ ω ε q a ℓ β) (i : Nat) (client : Client σ ω ε q a ℓ β) :
    System σ ω ε q a ℓ β :=
  { sys with clients := sys.clients.set i client }

variable [DecidableEq κ]

/-- No other open transaction holds a lock these writes need. -/
def System.free (sys : System σ ω ε q a ℓ β) (i : Nat) (writes : List ω) : Bool :=
  sys.clients.zipIdx.all fun (client, j) =>
    j == i || (client.writes.flatMap (Store.locks σ)).all fun lock =>
      !(writes.flatMap (Store.locks σ)).contains lock

/-- One event. A statement whose locks are taken waits: it has no step until they are free. -/
def fire (body : ℓ → Job σ ω ε q a ℓ β) (sys : System σ ω ε q a ℓ β) :
    Event ε a ℓ → Option (System σ ω ε q a ℓ β)
  | .spawn label => some { sys with clients := sys.clients ++ [.started label] }
  | .jump i => do
      let client ← sys.clients[i]?
      match client.job with
      | some (.jump label) => some (sys.put i { client with job := some (body label) })
      | _ => none
  | .exec i => do
      let client ← sys.clients[i]?
      match client.job with
      | some (.stmt emit next) =>
          let seen := visible sys.committed client.writes
          match emit seen with
          | .error e => some (sys.put i { client with job := some (next (.error e)) })
          | .ok writes =>
              if sys.free i writes then
                some (sys.put i { client with
                  job := some (next (.ok seen)), writes := client.writes ++ writes })
              else none
      | _ => none
  | .check i => do
      let client ← sys.clients[i]?
      match client.job, client.checked with
      | some (.commit next), false =>
          match Store.check (visible sys.committed client.writes) client.writes with
          | .ok () => some (sys.put i { client with checked := true })
          | .error e => some (sys.put i { client with job := some (next (.error e)), writes := [] })
      | _, _ => none
  | .publish i => do
      let client ← sys.clients[i]?
      match client.job, client.checked with
      | some (.commit next), true =>
          some ({ sys with committed := visible sys.committed client.writes }.put i
            { client with job := some (next (.ok ())), writes := [], checked := false })
      | _, _ => none
  | .rollback i => do
      let client ← sys.clients[i]?
      match client.job with
      | some (.rollback next) => some (sys.put i { client with job := some next, writes := [] })
      | _ => none
  | .answer i response => do
      let client ← sys.clients[i]?
      match client.job with
      | some (.ask request next) =>
          some (sys.put i { client with
            job := some (next (.ok response)), asked := client.asked ++ [request] })
      | _ => none
  | .fault i e => do
      let client ← sys.clients[i]?
      match client.job with
      | some (.stmt _ next) => some (sys.put i { client with job := some (next (.error e)) })
      | some (.commit next) =>
          some (sys.put i { client with
            job := some (next (.error e)), writes := [], checked := false })
      | some (.ask request next) =>
          some (sys.put i { client with
            job := some (next (.error e)), asked := client.asked ++ [request] })
      | _ => none
  | .crash i => do
      let client ← sys.clients[i]?
      some (sys.put i { client with job := none, writes := [], checked := false })

/-- Events in order, each required to be possible. -/
def fireAll (body : ℓ → Job σ ω ε q a ℓ β) (sys : System σ ω ε q a ℓ β) :
    List (Event ε a ℓ) → Option (System σ ω ε q a ℓ β)
  | [] => some sys
  | event :: rest => (fire body sys event).bind fun next => fireAll body next rest

/-- What an event did, case by case. -/
inductive Step (body : ℓ → Job σ ω ε q a ℓ β) (sys : System σ ω ε q a ℓ β) :
    Event ε a ℓ → System σ ω ε q a ℓ β → Prop
  | spawn (label : ℓ) :
      Step body sys (.spawn label) { sys with clients := sys.clients ++ [.started label] }
  | jump {i : Nat} {client : Client σ ω ε q a ℓ β} {label : ℓ}
      (found : sys.clients[i]? = some client) (head : client.job = some (.jump label)) :
      Step body sys (.jump i) (sys.put i { client with job := some (body label) })
  | refused {i : Nat} {client : Client σ ω ε q a ℓ β} {emit next e}
      (found : sys.clients[i]? = some client) (head : client.job = some (.stmt emit next))
      (answer : emit (visible sys.committed client.writes) = .error e) :
      Step body sys (.exec i) (sys.put i { client with job := some (next (.error e)) })
  | exec {i : Nat} {client : Client σ ω ε q a ℓ β} {emit next writes}
      (found : sys.clients[i]? = some client) (head : client.job = some (.stmt emit next))
      (answer : emit (visible sys.committed client.writes) = .ok writes)
      (free : sys.free i writes) :
      Step body sys (.exec i) (sys.put i { client with
        job := some (next (.ok (visible sys.committed client.writes)))
        writes := client.writes ++ writes })
  | passed {i : Nat} {client : Client σ ω ε q a ℓ β} {next}
      (found : sys.clients[i]? = some client) (head : client.job = some (.commit next))
      (unchecked : client.checked = false)
      (holds : Store.check (visible sys.committed client.writes) client.writes = .ok ()) :
      Step body sys (.check i) (sys.put i { client with checked := true })
  | violated {i : Nat} {client : Client σ ω ε q a ℓ β} {next e}
      (found : sys.clients[i]? = some client) (head : client.job = some (.commit next))
      (unchecked : client.checked = false)
      (fails : Store.check (visible sys.committed client.writes) client.writes = .error e) :
      Step body sys (.check i)
        (sys.put i { client with job := some (next (.error e)), writes := [] })
  | publish {i : Nat} {client : Client σ ω ε q a ℓ β} {next}
      (found : sys.clients[i]? = some client) (head : client.job = some (.commit next))
      (checked : client.checked = true) :
      Step body sys (.publish i)
        ({ sys with committed := visible sys.committed client.writes }.put i
          { client with job := some (next (.ok ())), writes := [], checked := false })
  | rollback {i : Nat} {client : Client σ ω ε q a ℓ β} {next}
      (found : sys.clients[i]? = some client) (head : client.job = some (.rollback next)) :
      Step body sys (.rollback i) (sys.put i { client with job := some next, writes := [] })
  | answer {i : Nat} {client : Client σ ω ε q a ℓ β} {request next} (response : a)
      (found : sys.clients[i]? = some client) (head : client.job = some (.ask request next)) :
      Step body sys (.answer i response) (sys.put i { client with
        job := some (next (.ok response)), asked := client.asked ++ [request] })
  | faultStmt {i : Nat} {client : Client σ ω ε q a ℓ β} {emit next} (e : ε)
      (found : sys.clients[i]? = some client) (head : client.job = some (.stmt emit next)) :
      Step body sys (.fault i e) (sys.put i { client with job := some (next (.error e)) })
  | faultCommit {i : Nat} {client : Client σ ω ε q a ℓ β} {next} (e : ε)
      (found : sys.clients[i]? = some client) (head : client.job = some (.commit next)) :
      Step body sys (.fault i e) (sys.put i { client with
        job := some (next (.error e)), writes := [], checked := false })
  | faultAsk {i : Nat} {client : Client σ ω ε q a ℓ β} {request next} (e : ε)
      (found : sys.clients[i]? = some client) (head : client.job = some (.ask request next)) :
      Step body sys (.fault i e) (sys.put i { client with
        job := some (next (.error e)), asked := client.asked ++ [request] })
  | crash {i : Nat} {client : Client σ ω ε q a ℓ β}
      (found : sys.clients[i]? = some client) :
      Step body sys (.crash i)
        (sys.put i { client with job := none, writes := [], checked := false })

theorem step_of_fire {body : ℓ → Job σ ω ε q a ℓ β} {sys after : System σ ω ε q a ℓ β}
    {event : Event ε a ℓ} (fired : fire body sys event = some after) :
    Step body sys event after := by
  cases event with
  | spawn label =>
      simp only [fire, Option.some.injEq] at fired
      exact fired ▸ .spawn label
  | jump i =>
      simp only [fire, bind, Option.bind_eq_some_iff] at fired
      obtain ⟨client, found, fired⟩ := fired
      split at fired
      next label head => exact Option.some.inj fired ▸ .jump found head
      next => cases fired
  | exec i =>
      simp only [fire, bind, Option.bind_eq_some_iff] at fired
      obtain ⟨client, found, fired⟩ := fired
      split at fired
      next emit next head =>
        split at fired
        next e answer => exact Option.some.inj fired ▸ .refused found head answer
        next writes answer =>
          split at fired
          next free => exact Option.some.inj fired ▸ .exec found head answer free
          next => cases fired
      next => cases fired
  | check i =>
      simp only [fire, bind, Option.bind_eq_some_iff] at fired
      obtain ⟨client, found, fired⟩ := fired
      split at fired
      next next head unchecked =>
        split at fired
        next holds => exact Option.some.inj fired ▸ .passed found head unchecked holds
        next e fails => exact Option.some.inj fired ▸ .violated found head unchecked fails
      next => cases fired
  | publish i =>
      simp only [fire, bind, Option.bind_eq_some_iff] at fired
      obtain ⟨client, found, fired⟩ := fired
      split at fired
      next next head checked => exact Option.some.inj fired ▸ .publish found head checked
      next => cases fired
  | rollback i =>
      simp only [fire, bind, Option.bind_eq_some_iff] at fired
      obtain ⟨client, found, fired⟩ := fired
      split at fired
      next next head => exact Option.some.inj fired ▸ .rollback found head
      next => cases fired
  | answer i response =>
      simp only [fire, bind, Option.bind_eq_some_iff] at fired
      obtain ⟨client, found, fired⟩ := fired
      split at fired
      next request next head => exact Option.some.inj fired ▸ .answer response found head
      next => cases fired
  | fault i e =>
      simp only [fire, bind, Option.bind_eq_some_iff] at fired
      obtain ⟨client, found, fired⟩ := fired
      split at fired
      next emit next head => exact Option.some.inj fired ▸ .faultStmt e found head
      next next head => exact Option.some.inj fired ▸ .faultCommit e found head
      next request next head => exact Option.some.inj fired ▸ .faultAsk e found head
      next => cases fired
  | crash i =>
      simp only [fire, bind, Option.bind_eq_some_iff, Option.some.injEq] at fired
      obtain ⟨client, found, rfl⟩ := fired
      exact .crash found

/-! ## Runs -/

/-- The runs whose every event is admitted. -/
inductive Run (body : ℓ → Job σ ω ε q a ℓ β)
    (admits : System σ ω ε q a ℓ β → Event ε a ℓ → Prop) (start : System σ ω ε q a ℓ β) :
    System σ ω ε q a ℓ β → Prop
  | refl : Run body admits start start
  | step {sys after : System σ ω ε q a ℓ β} {event : Event ε a ℓ} (run : Run body admits start sys)
      (admitted : admits sys event) (fired : fire body sys event = some after) :
      Run body admits start after

variable {body : ℓ → Job σ ω ε q a ℓ β} {admits : System σ ω ε q a ℓ β → Event ε a ℓ → Prop}
  {start sys : System σ ω ε q a ℓ β}

theorem Run.trans {later : System σ ω ε q a ℓ β} (first : Run body admits start sys)
    (second : Run body admits sys later) : Run body admits start later := by
  induction second with
  | refl => exact first
  | step _ admitted fired ih => exact .step ih admitted fired

/-- What the start has and every admitted step keeps, every system reached has. -/
theorem Run.invariant {Inv : System σ ω ε q a ℓ β → Prop} (run : Run body admits start sys)
    (initially : Inv start)
    (kept : ∀ sys event after, admits sys event → Step body sys event after → Inv sys → Inv after) :
    Inv sys := by
  induction run with
  | refl => exact initially
  | step _ admitted fired ih => exact kept _ _ _ admitted (step_of_fire fired) ih

/-- Every event of a list of events is admitted where it happens. -/
def AdmitsAll (body : ℓ → Job σ ω ε q a ℓ β)
    (admits : System σ ω ε q a ℓ β → Event ε a ℓ → Prop) (sys : System σ ω ε q a ℓ β) :
    List (Event ε a ℓ) → Prop
  | [] => True
  | event :: rest => admits sys event ∧
      ∀ next, fire body sys event = some next → AdmitsAll body admits next rest

theorem admitsAll (every : ∀ sys event, admits sys event) {sys : System σ ω ε q a ℓ β}
    {events : List (Event ε a ℓ)} : AdmitsAll body admits sys events := by
  induction events generalizing sys with
  | nil => trivial
  | cons event rest ih => exact ⟨every sys event, fun _ _ => ih⟩

theorem AdmitsAll.mono {weaker : System σ ω ε q a ℓ β → Event ε a ℓ → Prop}
    {events : List (Event ε a ℓ)} (all : AdmitsAll body admits sys events)
    (weaken : ∀ sys event, admits sys event → weaker sys event) :
    AdmitsAll body weaker sys events := by
  induction events generalizing sys with
  | nil => trivial
  | cons event rest ih =>
      exact ⟨weaken sys event all.1, fun next fired => ih (all.2 next fired)⟩

/-- The rest of the events, from where the first of them lead. -/
theorem AdmitsAll.rest {first later : List (Event ε a ℓ)} {after : System σ ω ε q a ℓ β}
    (all : AdmitsAll body admits sys (first ++ later))
    (fired : fireAll body sys first = some after) : AdmitsAll body admits after later := by
  induction first generalizing sys with
  | nil => exact Option.some.inj fired ▸ all
  | cons event first ih =>
      obtain ⟨next, one, further⟩ := Option.bind_eq_some_iff.mp fired
      exact ih (all.2 next one) further

/-- A condition on what the next system satisfies, decided by firing the event. -/
def decideNext {body : ℓ → Job σ ω ε q a ℓ β} {sys : System σ ω ε q a ℓ β} {event : Event ε a ℓ}
    {holds : System σ ω ε q a ℓ β → Prop} (decided : ∀ next, Decidable (holds next)) :
    Decidable (∀ next, fire body sys event = some next → holds next) :=
  match fire body sys event with
  | none => isTrue fun _ some_ => nomatch some_
  | some next =>
      match decided next with
      | isTrue yes => isTrue fun _ same => Option.some.inj same ▸ yes
      | isFalse no => isFalse fun all => no (all next rfl)

instance decidableAdmitsAll {body : ℓ → Job σ ω ε q a ℓ β}
    {admits : System σ ω ε q a ℓ β → Event ε a ℓ → Prop}
    [decided : ∀ sys event, Decidable (admits sys event)] (sys : System σ ω ε q a ℓ β) :
    (events : List (Event ε a ℓ)) → Decidable (AdmitsAll body admits sys events)
  | [] => isTrue trivial
  | event :: rest =>
      have later : Decidable (∀ next, fire body sys event = some next →
          AdmitsAll body admits next rest) :=
        decideNext fun next => decidableAdmitsAll next rest
      @instDecidableAnd _ _ (decided sys event) later

theorem Run.of_fireAll {events : List (Event ε a ℓ)} {after : System σ ω ε q a ℓ β}
    (admitted : AdmitsAll body admits start events)
    (fired : fireAll body start events = some after) : Run body admits start after := by
  induction events generalizing start with
  | nil =>
      obtain rfl := Option.some.inj fired
      exact .refl
  | cons event rest ih =>
      obtain ⟨next, first, later⟩ := Option.bind_eq_some_iff.mp fired
      have one : Run body admits start next := .step .refl admitted.1 first
      exact one.trans (ih (admitted.2 next first) later)

end Isolation
