import Vekst.Isolation.Locks

namespace Isolation

variable {σ ω ε κ q a ℓ β α : Type}

/-! ## What a job has published when it ends -/

/-- The job's statements keep the guarantee, and it ends in an outcome that goes with the writes
its transactions have published. -/
def Job.Posts (guarantee : List ω → σ → List ω → Prop) (post : β → List ω → Prop) :
    Job σ ω ε q a ℓ β → List ω → List ω → Prop
  | .done outcome, sent, _ => post outcome sent
  | .jump _, sent, pending => sent = [] ∧ pending = []
  | .ask _ next, sent, pending => ∀ response, (next response).Posts guarantee post sent pending
  | .stmt emit next, sent, pending =>
      (∀ s writes, emit s = .ok writes → guarantee pending s writes ∧
        (next (.ok s)).Posts guarantee post sent (pending ++ writes)) ∧
      ∀ e, (next (.error e)).Posts guarantee post sent pending
  | .commit next, sent, pending =>
      (next (.ok ())).Posts guarantee post (sent ++ pending) [] ∧
      ∀ e, (next (.error e)).Posts guarantee post sent []
  | .rollback next, sent, _ => next.Posts guarantee post sent []

variable {guarantee : List ω → σ → List ω → Prop} {post : β → List ω → Prop}

theorem posts_inTx {next : Except ε α → Job σ ω ε q a ℓ β} {p : Prog σ ω ε α}
    {sent pending : List ω}
    (answered : p.wp guarantee (fun answer writes =>
      (next (.ok answer)).Posts guarantee post (sent ++ writes) []) pending)
    (failed : ∀ e, (next (.error e)).Posts guarantee post sent []) :
    (inTx next p).Posts guarantee post sent pending := by
  induction p generalizing pending with
  | ret answer => exact ⟨answered, failed⟩
  | fail e => exact failed e
  | stmt emit rest ih =>
      simp only [inTx, Job.Posts]
      refine ⟨fun s writes emitted => ?_, failed⟩
      exact ⟨(answered s writes emitted).1, ih s (answered s writes emitted).2⟩

/-! ## Runs that remember what each client has published -/

abbrev Sent (ω : Type) := Nat → List ω

def Sent.after (sent : Sent ω) (sys : System σ ω ε q a ℓ β) : Event ε a ℓ → Sent ω
  | .publish i => Function.update sent i (sent i ++ sys.writesOf i)
  | _ => sent

theorem Sent.after_of_unpublished {sent : Sent ω} {sys : System σ ω ε q a ℓ β}
    {event : Event ε a ℓ} (unpublished : ∀ i, event ≠ .publish i) : sent.after sys event = sent := by
  cases event with
  | publish i => exact absurd rfl (unpublished i)
  | _ => rfl

variable [Store σ ω ε κ] [DecidableEq κ]
variable {body : ℓ → Job σ ω ε q a ℓ β} {admits : System σ ω ε q a ℓ β → Event ε a ℓ → Prop}
  {start sys after : System σ ω ε q a ℓ β} {event : Event ε a ℓ} {sent : Sent ω}

inductive Logged (body : ℓ → Job σ ω ε q a ℓ β)
    (admits : System σ ω ε q a ℓ β → Event ε a ℓ → Prop) (start : System σ ω ε q a ℓ β) :
    Sent ω → System σ ω ε q a ℓ β → Prop
  | refl : Logged body admits start (fun _ => []) start
  | step {sent : Sent ω} {sys after : System σ ω ε q a ℓ β} {event : Event ε a ℓ}
      (logged : Logged body admits start sent sys) (admitted : admits sys event)
      (fired : fire body sys event = some after) :
      Logged body admits start (sent.after sys event) after

theorem Run.logged (run : Run body admits start sys) :
    ∃ sent, Logged body admits start sent sys := by
  induction run with
  | refl => exact ⟨_, .refl⟩
  | step _ admitted fired ih =>
      obtain ⟨sent, logged⟩ := ih
      exact ⟨_, .step logged admitted fired⟩

theorem Logged.invariant {Inv : Sent ω → System σ ω ε q a ℓ β → Prop}
    (logged : Logged body admits start sent sys) (initially : Inv (fun _ => []) start)
    (kept : ∀ sent sys event after, admits sys event → Step body sys event after →
      Inv sent sys → Inv (sent.after sys event) after) : Inv sent sys := by
  induction logged with
  | refl => exact initially
  | step _ admitted fired ih => exact kept _ _ _ _ admitted (step_of_fire fired) ih

/-- Every client's job posts what is asked, from what it has published and has pending. -/
structure Posting (guarantee : List ω → σ → List ω → Prop) (post : β → List ω → Prop)
    (sent : Sent ω) (sys : System σ ω ε q a ℓ β) : Prop where
  unstarted : ∀ i, sys.clients.length ≤ i → sent i = []
  jobs : ∀ (i : Nat) (client : Client σ ω ε q a ℓ β) (job : Job σ ω ε q a ℓ β),
    sys.clients[i]? = some client → client.job = some job →
      job.Posts guarantee post (sent i) client.writes

omit [DecidableEq κ] in
theorem Posting.guaranteed (posting : Posting guarantee post sent sys) {i : Nat} {writes : List ω}
    (emitted : sys.emits i = some writes) :
    guarantee (sys.writesOf i) (visible sys.committed (sys.writesOf i)) writes := by
  obtain ⟨client, found, emitted⟩ := Option.bind_eq_some_iff.mp emitted
  split at emitted
  next emit next head =>
    cases answer : emit (visible sys.committed client.writes) with
    | error e => simp [answer, Except.toOption] at emitted
    | ok made =>
        obtain rfl : made = writes := by simpa [answer, Except.toOption] using emitted
        rw [System.writesOf_eq found]
        exact ((posting.jobs i client _ found head).1 _ _ answer).1
  next => cases emitted

omit [Store σ ω ε κ] [DecidableEq κ] in
/-- One client moves, and publishes if anyone does. -/
theorem Posting.moved {i : Nat} {client next : Client σ ω ε q a ℓ β} {later : Sent ω}
    (posting : Posting guarantee post sent sys) (found : sys.clients[i]? = some client)
    (placed : after.clients = sys.clients.set i next) (others : ∀ j, j ≠ i → later j = sent j)
    (posts : ∀ job, next.job = some job → job.Posts guarantee post (later i) next.writes) :
    Posting guarantee post later after where
  unstarted j past := by
    rw [placed, List.length_set] at past
    have different : j ≠ i := by
      rintro rfl
      exact Nat.lt_irrefl _ (Nat.lt_of_lt_of_le (List.getElem?_eq_some_iff.mp found).1 past)
    rw [others j different]
    exact posting.unstarted j past
  jobs j other job place head := by
    rw [placed, List.getElem?_set] at place
    split at place
    next same =>
      subst same
      split at place
      next =>
        obtain rfl := Option.some.inj place
        exact posts job head
      next => cases place
    next different =>
      rw [others j (Ne.symm different)]
      exact posting.jobs j other job place head

theorem posting_step (bodies : ∀ label, (body label).Posts guarantee post [] [])
    (step : Step body sys event after) (posting : Posting guarantee post sent sys) :
    Posting guarantee post (sent.after sys event) after := by
  have known {i : Nat} {client : Client σ ω ε q a ℓ β} {job : Job σ ω ε q a ℓ β}
      (found : sys.clients[i]? = some client) (head : client.job = some job) :
      job.Posts guarantee post (sent i) client.writes := posting.jobs i client job found head
  cases step with
  | spawn label =>
      refine ⟨fun i past => posting.unstarted i ?_, fun i client job found head => ?_⟩
      · simp only [List.length_append, List.length_singleton] at past
        exact Nat.le_of_succ_le past
      rcases Nat.lt_trichotomy i sys.clients.length with old | rfl | past
      · rw [List.getElem?_append_left old] at found
        exact posting.jobs i client job found head
      · obtain rfl : Client.started label = client := by simpa using found
        obtain rfl := Option.some.inj head
        exact ⟨posting.unstarted _ (Nat.le_refl _), rfl⟩
      · have outside : (sys.clients ++ [Client.started label]).length ≤ i := by
          rw [List.length_append]
          exact past
        rw [List.getElem?_eq_none outside] at found
        cases found
  | jump found head =>
      refine posting.moved found rfl (fun _ _ => rfl) ?_
      rintro job ⟨⟩
      obtain ⟨unsent, unwritten⟩ := known found head
      show Job.Posts guarantee post _ (sent _) _
      rw [unsent, unwritten]
      exact bodies _
  | refused found head answer =>
      refine posting.moved found rfl (fun _ _ => rfl) ?_
      rintro job ⟨⟩
      exact (known found head).2 _
  | exec found head answer free =>
      refine posting.moved found rfl (fun _ _ => rfl) ?_
      rintro job ⟨⟩
      exact ((known found head).1 _ _ answer).2
  | passed found head unchecked holds =>
      have posts := fun job same => posting.jobs _ _ job found same
      exact posting.moved found rfl (fun _ _ => rfl) posts
  | violated found head unchecked fails =>
      refine posting.moved found rfl (fun _ _ => rfl) ?_
      rintro job ⟨⟩
      exact (known found head).2 _
  | publish found head checked =>
      refine posting.moved found rfl (fun j different => Function.update_of_ne different _ _) ?_
      rintro job ⟨⟩
      have posts := (known found head).1
      rw [← System.writesOf_eq found] at posts
      simpa only [Sent.after, Function.update_self] using posts
  | rollback found head =>
      refine posting.moved found rfl (fun _ _ => rfl) ?_
      have posts : Job.Posts guarantee post _ _ [] := known found head
      rintro job ⟨⟩
      exact posts
  | answer response found head =>
      refine posting.moved found rfl (fun _ _ => rfl) ?_
      rintro job ⟨⟩
      exact known found head _
  | faultStmt e found head =>
      refine posting.moved found rfl (fun _ _ => rfl) ?_
      rintro job ⟨⟩
      exact (known found head).2 _
  | faultCommit e found head =>
      refine posting.moved found rfl (fun _ _ => rfl) ?_
      rintro job ⟨⟩
      exact (known found head).2 _
  | faultAsk e found head =>
      refine posting.moved found rfl (fun _ _ => rfl) ?_
      rintro job ⟨⟩
      exact known found head _
  | crash found =>
      refine posting.moved found rfl (fun _ _ => rfl) ?_
      rintro job ⟨⟩

theorem Logged.posting (bodies : ∀ label, (body label).Posts guarantee post [] [])
    (logged : Logged body admits start sent sys) (idle : start.clients = []) :
    Posting guarantee post sent sys := by
  refine logged.invariant ⟨fun _ _ => rfl, ?_⟩ fun _ _ _ _ _ step held => posting_step bodies step held
  intro i client job found
  simp [idle] at found

end Isolation
