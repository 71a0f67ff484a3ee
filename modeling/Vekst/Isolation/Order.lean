import Mathlib.Data.List.Nodup
import Vekst.Isolation.Moves
import Vekst.Isolation.Posted

namespace Isolation

variable {σ ω ε κ q a ℓ β α : Type}

/-! ## Jobs that publish once -/

/-- The job publishes nothing, or once and then something whole. -/
def Job.Single (whole : List ω → Prop) : Job σ ω ε q a ℓ β → List ω → List ω → Prop
  | .done _, _, _ => True
  | .jump _, sent, pending => sent = [] ∧ pending = []
  | .ask _ next, sent, pending => ∀ response, (next response).Single whole sent pending
  | .stmt emit next, sent, pending =>
      (∀ s writes, emit s = .ok writes → (next (.ok s)).Single whole sent (pending ++ writes)) ∧
      ∀ e, (next (.error e)).Single whole sent pending
  | .commit next, sent, pending =>
      (pending ≠ [] → sent = [] ∧ whole pending) ∧
      (next (.ok ())).Single whole (sent ++ pending) [] ∧ ∀ e, (next (.error e)).Single whole sent []
  | .rollback next, sent, _ => next.Single whole sent []

variable {whole : List ω → Prop}

theorem single_inTx {next : Except ε α → Job σ ω ε q a ℓ β} {p : Prog σ ω ε α}
    {sent pending : List ω}
    (answered : p.wp (fun _ _ _ => True) (fun answer writes =>
      (writes ≠ [] → sent = [] ∧ whole writes) ∧
        (next (.ok answer)).Single whole (sent ++ writes) []) pending)
    (failed : ∀ e, (next (.error e)).Single whole sent []) :
    (inTx next p).Single whole sent pending := by
  induction p generalizing pending with
  | ret answer => exact ⟨answered.1, answered.2, failed⟩
  | fail e => exact failed e
  | stmt emit rest ih =>
      simp only [inTx, Job.Single]
      refine ⟨fun s writes emitted => ?_, failed⟩
      exact ih s (answered s writes emitted).2

/-! ## The order of the commits -/

variable [Store σ ω ε κ] [DecidableEq κ]
variable {body : ℓ → Job σ ω ε q a ℓ β} {admits : System σ ω ε q a ℓ β → Event ε a ℓ → Prop}
  {start sys after : System σ ω ε q a ℓ β} {event : Event ε a ℓ} {sent : Sent ω}

/-- A client publishes once, from what it has published and has pending. -/
def Client.Single (whole : List ω → Prop) (sent : List ω) (client : Client σ ω ε q a ℓ β) : Prop :=
  ∀ job, client.job = some job → job.Single whole sent client.writes

omit [DecidableEq κ] in
/-- What its own event makes of it, the published writes beside those of before. -/
theorem Client.Single.moves {committed later : σ} {i : Nat} {client moved : Client σ ω ε q a ℓ β}
    {published now : List ω} (single : client.Single whole published)
    (bodies : ∀ label, (body label).Single whole [] [])
    (moves : Moves body committed i client event moved later)
    (sends : event = .publish i → now = published ++ client.writes)
    (keeps : event ≠ .publish i → now = published) : moved.Single whole now := by
  cases moves with
  | publish head checked =>
      rintro job ⟨⟩
      rw [sends rfl]
      exact (single _ head).2.1
  | jump head =>
      rintro job ⟨⟩
      obtain ⟨unsent, unwritten⟩ := single _ head
      show Job.Single whole _ now client.writes
      rw [keeps (by simp), unsent, unwritten]
      exact bodies _
  | refused head answer =>
      rintro job ⟨⟩
      rw [keeps (by simp)]
      exact (single _ head).2 _
  | exec head answer =>
      rintro job ⟨⟩
      rw [keeps (by simp)]
      exact (single _ head).1 _ _ answer
  | passed head unchecked holds =>
      rw [keeps (by simp)]
      exact single
  | violated head unchecked fails =>
      rintro job ⟨⟩
      rw [keeps (by simp)]
      exact (single _ head).2.2 _
  | rollback head =>
      rintro job same
      obtain rfl := Option.some.inj same
      rw [keeps (by simp)]
      exact single _ head
  | answer response head =>
      rintro job ⟨⟩
      rw [keeps (by simp)]
      exact single _ head _
  | faultStmt e head =>
      rintro job ⟨⟩
      rw [keeps (by simp)]
      exact (single _ head).2 _
  | faultCommit e head =>
      rintro job ⟨⟩
      rw [keeps (by simp)]
      exact (single _ head).2.2 _
  | faultAsk e head =>
      rintro job ⟨⟩
      rw [keeps (by simp)]
      exact single _ head _
  | crash => rintro job ⟨⟩

/-- Clients that publish once do so in some order: what is committed is their writes in it, and each
commit was admitted over what those before it had published. -/
structure Ordered (whole : List ω → Prop) (admits : System σ ω ε q a ℓ β → Event ε a ℓ → Prop)
    (start : System σ ω ε q a ℓ β) (sent : Sent ω) (sys : System σ ω ε q a ℓ β)
    (order : List Nat) : Prop where
  nodup : order.Nodup
  whole : ∀ i ∈ order, whole (sent i)
  unsent : ∀ i, i ∉ order → sent i = []
  committed : sys.committed = visible start.committed (order.flatMap sent)
  admitted : ∀ earlier i later, order = earlier ++ i :: later → ∃ before : System σ ω ε q a ℓ β,
    before.committed = visible start.committed (earlier.flatMap sent) ∧
      before.writesOf i = sent i ∧ admits before (.publish i)

omit [DecidableEq κ] in
theorem Ordered.unmoved {order : List Nat} (ordered : Ordered whole admits start sent sys order)
    (same : after.committed = sys.committed) : Ordered whole admits start sent after order :=
  { ordered with committed := same.trans ordered.committed }

omit [DecidableEq κ] in
theorem Ordered.published {order : List Nat} {i : Nat}
    (ordered : Ordered whole admits start sent sys order) (some_ : ¬ whole [])
    (unsent : sent i = []) (complete : whole (sys.writesOf i)) (admitted : admits sys (.publish i))
    (published : after.committed = visible sys.committed (sys.writesOf i)) :
    Ordered whole admits start (sent.after sys (.publish i)) after (order ++ [i]) := by
  have new : i ∉ order := fun known => some_ (unsent ▸ ordered.whole i known)
  have sends : sent.after sys (.publish i) i = sys.writesOf i := by
    rw [Sent.after, Function.update_self, unsent, List.nil_append]
  have keeps {j : Nat} (other : j ≠ i) : sent.after sys (.publish i) j = sent j :=
    Function.update_of_ne other _ _
  have old {some_ : List Nat} (absent : i ∉ some_) :
      some_.flatMap (sent.after sys (.publish i)) = some_.flatMap sent := by
    apply List.flatMap_congr
    intro j known
    exact keeps fun same => absent (same ▸ known)
  refine ⟨?_, fun j known => ?_, fun j unknown => ?_, ?_, fun earlier j later split => ?_⟩
  · rw [List.nodup_append]
    refine ⟨ordered.nodup, List.nodup_singleton i, fun j known k last same => ?_⟩
    rw [List.mem_singleton.mp last] at same
    exact new (same ▸ known)
  · rcases List.mem_append.mp known with before | last
    · rw [keeps fun same => new (same ▸ before)]
      exact ordered.whole j before
    · rw [List.mem_singleton.mp last, sends]
      exact complete
  · rw [List.mem_append, not_or] at unknown
    rw [keeps fun same => unknown.2 (List.mem_singleton.mpr same)]
    exact ordered.unsent j unknown.1
  · rw [List.flatMap_append, old new, visible_append, List.flatMap_cons, List.flatMap_nil,
      List.append_nil, sends, published, ordered.committed]
  · rcases List.eq_nil_or_concat later with rfl | ⟨rest, last, rfl⟩
    · obtain ⟨rfl, same⟩ := List.append_inj' split rfl
      obtain rfl := List.singleton_inj.mp same
      exact ⟨sys, by rw [old new]; exact ordered.committed, sends.symm, admitted⟩
    · have before : order = earlier ++ j :: rest := by
        have ended : order ++ [i] = (earlier ++ j :: rest) ++ [last] := by
          simpa using split
        exact (List.append_inj' ended rfl).1
      have known : j ∈ order := by simp [before]
      have absent : i ∉ earlier := fun member => new (by simp [before, member])
      obtain ⟨sys', same, wrote, was⟩ := ordered.admitted earlier j rest before
      refine ⟨sys', ?_, ?_, was⟩
      · rw [old absent, same]
      · rw [keeps fun same => new (same ▸ known), wrote]

/-- Every client publishes once, and those that have are in order. -/
structure Serial (whole : List ω → Prop) (admits : System σ ω ε q a ℓ β → Event ε a ℓ → Prop)
    (start : System σ ω ε q a ℓ β) (sent : Sent ω) (sys : System σ ω ε q a ℓ β) : Prop where
  unstarted : ∀ i, sys.clients.length ≤ i → sent i = []
  singles : ∀ (i : Nat) (client : Client σ ω ε q a ℓ β), sys.clients[i]? = some client →
    client.Single whole (sent i)
  ordered : ∃ order, Ordered whole admits start sent sys order

theorem serial_step (bodies : ∀ label, (body label).Single whole [] []) (some_ : ¬ whole [])
    (step : Step body sys event after) (admitted : admits sys event)
    (serial : Serial whole admits start sent sys) :
    Serial whole admits start (sent.after sys event) after := by
  obtain ⟨unstarted, singles, order, ordered⟩ := serial
  cases split_of_step step with
  | spawn label same started =>
      subst same started
      refine ⟨fun i past => unstarted i ?_, fun i client found => ?_, order, ordered.unmoved rfl⟩
      · simp only [List.length_append, List.length_singleton] at past
        exact Nat.le_of_succ_le past
      · rcases Nat.lt_trichotomy i sys.clients.length with old | rfl | past
        · rw [List.getElem?_append_left old] at found
          exact singles i client found
        · obtain rfl : Client.started label = client := by simpa using found
          rintro job ⟨⟩
          exact ⟨unstarted _ (Nat.le_refl _), rfl⟩
        · have outside : (sys.clients ++ [Client.started label]).length ≤ i := by
            rw [List.length_append]
            exact past
          rw [List.getElem?_eq_none outside] at found
          cases found
  | move i client moved found moves clients =>
      have inside := (List.getElem?_eq_some_iff.mp found).1
      have stays (unpublished : event ≠ .publish i) : sent.after sys event = sent := by
        apply Sent.after_of_unpublished
        intro k fired
        exact unpublished ((moves.of_publish fired).1 ▸ fired)
      have keeps {j : Nat} (other : j ≠ i) : sent.after sys event j = sent j := by
        by_cases fired : event = .publish i
        · rw [fired]
          exact Function.update_of_ne other _ _
        · rw [stays fired]
      refine ⟨fun j past => ?_, fun j other place => ?_, ?_⟩
      · rw [clients, List.length_set] at past
        rw [keeps (by omega)]
        exact unstarted j past
      · by_cases own : j = i
        · subst own
          rw [clients, List.getElem?_set_self inside] at place
          obtain rfl := Option.some.inj place
          refine (singles j client found).moves bodies moves ?_ fun unpublished => by rw [stays unpublished]
          rintro rfl
          rw [Sent.after, Function.update_self, System.writesOf_eq found]
        · rw [clients, List.getElem?_set_ne (Ne.symm own)] at place
          rw [keeps own]
          exact singles j other place
      · by_cases fired : event = .publish i
        · subst fired
          obtain ⟨-, published, next, head⟩ := moves.of_publish rfl
          rw [← System.writesOf_eq found] at published
          by_cases quiet : client.writes = []
          · have same : sent.after sys (.publish i) = sent := by
              rw [Sent.after, System.writesOf_eq found, quiet, List.append_nil]
              exact Function.update_eq_self i sent
            rw [System.writesOf_eq found, quiet] at published
            rw [same]
            exact ⟨order, ordered.unmoved published⟩
          · obtain ⟨unsent, complete⟩ := (singles i client found _ head).1 quiet
            rw [← System.writesOf_eq found] at complete
            exact ⟨_, ordered.published some_ unsent complete admitted published⟩
        · rw [stays fired]
          rcases moves.committed_eq with same | ⟨published, -⟩
          · exact ⟨order, ordered.unmoved same⟩
          · exact absurd published fired

/-- The commits of a run from nobody connected, in their order. -/
theorem Logged.ordered (bodies : ∀ label, (body label).Single whole [] []) (some_ : ¬ whole [])
    (logged : Logged body admits start sent sys) (idle : start.clients = []) :
    ∃ order, Ordered whole admits start sent sys order := by
  have serial : Serial whole admits start sent sys := by
    refine logged.invariant ?_ fun _ _ _ _ admitted step held =>
      serial_step bodies some_ step admitted held
    refine ⟨fun _ _ => rfl, fun i client found => ?_, [], .nil, ?_, fun _ _ => rfl, rfl, ?_⟩
    · simp [idle] at found
    · simp
    · simp
  exact serial.ordered

end Isolation
