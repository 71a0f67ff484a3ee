import Vekst.Isolation.System

namespace Isolation

variable {σ ω ε κ q a ℓ β α γ : Type}

/-! ## Bodies -/

/-- From the pending writes on, every write is guaranteed and every answer meets `post`. The
guarantee relates the pending writes, the state a statement sees and the writes it makes of it. -/
def Prog.wp (guarantee : List ω → σ → List ω → Prop) (post : α → List ω → Prop) :
    Prog σ ω ε α → List ω → Prop
  | .ret answer, pending => post answer pending
  | .fail _, _ => True
  | .stmt emit next, pending => ∀ s writes, emit s = .ok writes →
      guarantee pending s writes ∧ (next s).wp guarantee post (pending ++ writes)

section Bodies

variable {guarantee : List ω → σ → List ω → Prop} {post : α → List ω → Prop}

theorem Prog.wp_mono {weaker : α → List ω → Prop} {p : Prog σ ω ε α} {pending : List ω}
    (proved : p.wp guarantee post pending)
    (weaken : ∀ answer writes, post answer writes → weaker answer writes) :
    p.wp guarantee weaker pending := by
  induction p generalizing pending with
  | ret answer => exact weaken answer pending proved
  | fail e => trivial
  | stmt emit next ih =>
      intro s writes answer
      exact ⟨(proved s writes answer).1, ih s (proved s writes answer).2⟩

theorem Prog.wp_bind {p : Prog σ ω ε γ} {f : γ → Prog σ ω ε α} {pending : List ω}
    (first : p.wp guarantee (fun c writes => (f c).wp guarantee post writes) pending) :
    (p >>= f).wp guarantee post pending := by
  induction p generalizing pending with
  | ret c => exact first
  | fail e => trivial
  | stmt emit next ih =>
      intro s writes answer
      exact ⟨(first s writes answer).1, ih s (first s writes answer).2⟩

theorem Prog.wp_query {f : σ → Except ε α} {pending : List ω}
    (reads : ∀ s answer, f s = .ok answer →
      guarantee pending s [] ∧ post answer pending) :
    (Prog.query f).wp guarantee post pending := by
  intro s writes emitted
  cases answer : f s with
  | error e => simp [answer, Except.map] at emitted
  | ok value =>
      obtain rfl : [] = writes := by simpa [answer, Except.map] using emitted
      simpa [answer, Prog.wp] using reads s value answer

theorem Prog.wp_exec {f : σ → Except ε (List ω × α)} {pending : List ω}
    (does : ∀ s writes answer, f s = .ok (writes, answer) →
      guarantee pending s writes ∧ post answer (pending ++ writes)) :
    (Prog.exec f).wp guarantee post pending := by
  intro s writes emitted
  cases answer : f s with
  | error e => simp [answer, Except.map] at emitted
  | ok result =>
      obtain ⟨made, value⟩ := result
      obtain rfl : made = writes := by simpa [answer, Except.map] using emitted
      simpa [answer, Prog.wp] using does s made value answer

theorem Prog.wp_ofExcept {outcome : Except ε α} {pending : List ω}
    (known : ∀ answer, outcome = .ok answer → post answer pending) :
    (Prog.ofExcept outcome : Prog σ ω ε α).wp guarantee post pending := by
  cases outcome with
  | error e => trivial
  | ok answer => exact known answer rfl

/-- A loop over a list: the invariant may speak of the elements already done. -/
theorem Prog.wp_foldlM {f : α → γ → Prog σ ω ε α} {inv : List γ → α → List ω → Prop}
    (items : List γ) (before : List γ) {acc : α} {pending : List ω}
    (initially : inv before acc pending)
    (step : ∀ earlier item later, before ++ items = earlier ++ item :: later →
      ∀ acc pending, inv earlier acc pending →
        (f acc item).wp guarantee (inv (earlier ++ [item])) pending) :
    (items.foldlM f acc).wp guarantee (inv (before ++ items)) pending := by
  induction items generalizing before acc pending with
  | nil => simpa [Prog.wp] using initially
  | cons item items ih =>
      rw [List.foldlM_cons]
      apply Prog.wp_bind
      apply Prog.wp_mono (step before item items rfl acc pending initially)
      intro next writes held
      have rest := ih (before ++ [item]) held fun earlier other later split =>
        step earlier other later (by simpa using split)
      simpa using rest

/-- A statement for each item of a list: the invariant may speak of the items already done. -/
theorem Prog.wp_mapM {f : γ → Prog σ ω ε α} {inv : List γ → List ω → Prop}
    (items : List γ) (before : List γ) {pending : List ω} (initially : inv before pending)
    (step : ∀ earlier item later, before ++ items = earlier ++ item :: later →
      ∀ pending, inv earlier pending →
        (f item).wp guarantee (fun _ writes => inv (earlier ++ [item]) writes) pending) :
    (items.mapM f).wp guarantee (fun _ writes => inv (before ++ items) writes) pending := by
  induction items generalizing before pending with
  | nil => simpa [Prog.wp] using initially
  | cons item items ih =>
      rw [List.mapM_cons]
      apply Prog.wp_bind
      apply Prog.wp_mono (step before item items rfl pending initially)
      intro answer writes held
      apply Prog.wp_bind
      have rest := ih (before ++ [item]) held fun earlier other later split =>
        step earlier other later (by simpa using split)
      apply Prog.wp_mono rest
      intro answers writes held
      simpa [Prog.wp] using held

end Bodies

/-! ## Clients -/

/-- Which labels may run, what the other service may answer, and what a statement may write. -/
structure Discipline (σ ω a ℓ : Type) where
  allowed : ℓ → Prop
  answered : a → Prop
  guarantee : List ω → σ → List ω → Prop

/-- Every transaction of the job keeps the guarantee, and it only jumps to labels that may run. -/
def Job.Keeps (rules : Discipline σ ω a ℓ) : Job σ ω ε q a ℓ β → List ω → Prop
  | .done _, _ => True
  | .jump label, pending => rules.allowed label ∧ pending = []
  | .ask _ next, pending =>
      (∀ response, rules.answered response → (next (.ok response)).Keeps rules pending) ∧
      ∀ e, (next (.error e)).Keeps rules pending
  | .stmt emit next, pending =>
      (∀ s writes, emit s = .ok writes →
        rules.guarantee pending s writes ∧ (next (.ok s)).Keeps rules (pending ++ writes)) ∧
      ∀ e, (next (.error e)).Keeps rules pending
  | .commit next, _ => ∀ result, (next result).Keeps rules []
  | .rollback next, _ => next.Keeps rules []

theorem keeps_inTx {rules : Discipline σ ω a ℓ} {next : Except ε α → Job σ ω ε q a ℓ β}
    {body : Prog σ ω ε α} {pending : List ω}
    (proved : body.wp rules.guarantee (fun answer _ => (next (.ok answer)).Keeps rules []) pending)
    (failed : ∀ e, (next (.error e)).Keeps rules []) :
    (inTx next body).Keeps rules pending := by
  induction body generalizing pending with
  | ret answer =>
      intro result
      cases result with
      | ok => exact proved
      | error e => exact failed e
  | fail e => exact failed e
  | stmt emit rest ih =>
      simp only [inTx, Job.Keeps]
      refine ⟨fun s writes emitted => ?_, failed⟩
      exact ⟨(proved s writes emitted).1, ih s (proved s writes emitted).2⟩

def Client.Keeps (rules : Discipline σ ω a ℓ) (client : Client σ ω ε q a ℓ β) : Prop :=
  ∀ job, client.job = some job → job.Keeps rules client.writes

theorem mem_put {sys : System σ ω ε q a ℓ β} {i : Nat} {client other : Client σ ω ε q a ℓ β}
    (member : other ∈ (sys.put i client).clients) : other = client ∨ other ∈ sys.clients := by
  rcases List.mem_or_eq_of_mem_set member with known | rfl
  · exact .inr known
  · exact .inl rfl

section Runs

variable [Store σ ω ε κ] [DecidableEq κ]
variable {body : ℓ → Job σ ω ε q a ℓ β} {admits : System σ ω ε q a ℓ β → Event ε a ℓ → Prop}
  {start sys : System σ ω ε q a ℓ β}
variable {rules : Discipline σ ω a ℓ}

/-- An invariant of clients survives an event that touches one of them. -/
theorem forall_put {inv : Client σ ω ε q a ℓ β → Prop} {i : Nat} {client : Client σ ω ε q a ℓ β}
    (all : ∀ other ∈ sys.clients, inv other) (new : inv client) :
    ∀ other ∈ (sys.put i client).clients, inv other := by
  intro other member
  rcases mem_put member with rfl | known
  · exact new
  · exact all other known

theorem keeps_step {event : Event ε a ℓ} {after : System σ ω ε q a ℓ β}
    (bodies : ∀ label, rules.allowed label → (body label).Keeps rules [])
    (spawned : ∀ label, event = .spawn label → rules.allowed label)
    (replied : ∀ i response, event = .answer i response → rules.answered response)
    (step : Step body sys event after)
    (held : ∀ client ∈ sys.clients, client.Keeps rules) :
    ∀ client ∈ after.clients, client.Keeps rules := by
  have known {i : Nat} {client : Client σ ω ε q a ℓ β} {job : Job σ ω ε q a ℓ β}
      (found : sys.clients[i]? = some client) (head : client.job = some job) :
      job.Keeps rules client.writes :=
    held client (List.mem_of_getElem? found) job head
  cases step with
  | spawn label =>
      intro client member
      rcases List.mem_append.mp member with old | new
      · exact held client old
      · obtain rfl := List.mem_singleton.mp new
        rintro job ⟨⟩
        exact ⟨spawned label rfl, rfl⟩
  | jump found head =>
      refine forall_put held ?_
      rintro job ⟨⟩
      obtain ⟨permitted, empty⟩ := known found head
      rw [empty]
      exact bodies _ permitted
  | refused found head answer =>
      refine forall_put held ?_
      rintro job ⟨⟩
      exact (known found head).2 _
  | exec found head answer free =>
      refine forall_put held ?_
      rintro job ⟨⟩
      exact ((known found head).1 _ _ answer).2
  | passed found head unchecked holds =>
      have same := held _ (List.mem_of_getElem? found)
      exact forall_put held same
  | violated found head unchecked fails =>
      refine forall_put held ?_
      rintro job ⟨⟩
      exact known found head _
  | publish found head checked =>
      refine forall_put held ?_
      rintro job ⟨⟩
      exact known found head _
  | rollback found head =>
      have rest := known found head
      refine forall_put held ?_
      rintro job ⟨⟩
      exact rest
  | answer response found head =>
      refine forall_put held ?_
      rintro job ⟨⟩
      exact (known found head).1 _ (replied _ _ rfl)
  | faultStmt e found head =>
      refine forall_put held ?_
      rintro job ⟨⟩
      exact (known found head).2 _
  | faultCommit e found head =>
      refine forall_put held ?_
      rintro job ⟨⟩
      exact known found head _
  | faultAsk e found head =>
      refine forall_put held ?_
      rintro job ⟨⟩
      exact (known found head).2 _
  | crash found =>
      refine forall_put held ?_
      rintro job ⟨⟩

/-- The events a discipline lets happen. -/
def Discipline.Admits (rules : Discipline σ ω a ℓ) : Event ε a ℓ → Prop
  | .spawn label => rules.allowed label
  | .answer _ response => rules.answered response
  | _ => True

/-- Clients started at labels that may run keep the guarantee throughout every run. -/
theorem Run.keeps (bodies : ∀ label, rules.allowed label → (body label).Keeps rules [])
    (within : ∀ sys event, admits sys event → rules.Admits event)
    (run : Run body admits start sys)
    (initially : ∀ client ∈ start.clients, client.Keeps rules) :
    ∀ client ∈ sys.clients, client.Keeps rules := by
  induction run with
  | refl => exact initially
  | step _ admitted fired ih =>
      have permitted := within _ _ admitted
      refine keeps_step bodies ?_ ?_ (step_of_fire fired) ih
      · rintro label rfl
        exact permitted
      · rintro i response rfl
        exact permitted

end Runs

end Isolation
