import Vekst.Isolation.Discipline

namespace Isolation

variable {σ ω ε κ q a ℓ β α γ : Type}

/-! ## What the statements of a body write -/

/-- Every statement writes what `may` allows of the state it sees. -/
def Prog.Emits (may : σ → List ω → Prop) : Prog σ ω ε α → Prop
  | .ret _ => True
  | .fail _ => True
  | .stmt emit next => ∀ s, (∀ writes, emit s = .ok writes → may s writes) ∧ (next s).Emits may

namespace Prog

variable {may : σ → List ω → Prop}

@[simp] theorem emits_ret (answer : α) : (ret answer : Prog σ ω ε α).Emits may := trivial

@[simp] theorem emits_fail (e : ε) : (fail e : Prog σ ω ε α).Emits may := trivial

theorem emits_bind {p : Prog σ ω ε γ} {f : γ → Prog σ ω ε α} (first : p.Emits may)
    (rest : ∀ c, (f c).Emits may) : (p >>= f).Emits may := by
  induction p with
  | ret c => exact rest c
  | fail e => trivial
  | stmt emit next ih =>
      intro s
      exact ⟨(first s).1, ih s (first s).2⟩

theorem emits_query (quiet : ∀ s, may s []) (f : σ → Except ε α) :
    (query f : Prog σ ω ε α).Emits may := by
  intro s
  cases answer : f s with
  | error e => simp [answer, Except.map]
  | ok value => simpa [answer, Except.map] using quiet s

theorem emits_exec {f : σ → Except ε (List ω × α)}
    (allowed : ∀ s writes answer, f s = .ok (writes, answer) → may s writes) :
    (exec f).Emits may := by
  intro s
  cases answer : f s with
  | error e => simp [answer, Except.map]
  | ok result => simpa [answer, Except.map] using allowed s result.1 result.2 answer

theorem emits_ofExcept (outcome : Except ε α) :
    (ofExcept outcome : Prog σ ω ε α).Emits may := by
  cases outcome <;> trivial

theorem emits_forM {f : γ → Prog σ ω ε PUnit} (items : List γ)
    (each : ∀ item ∈ items, (f item).Emits may) : (items.forM f).Emits may := by
  induction items with
  | nil => trivial
  | cons item items ih =>
      exact emits_bind (each item (by simp)) fun _ => ih fun other later => each other (by simp [later])

theorem emits_mapM {f : γ → Prog σ ω ε α} (items : List γ) (each : ∀ item, (f item).Emits may) :
    (items.mapM f).Emits may := by
  induction items with
  | nil => trivial
  | cons item items ih =>
      rw [List.mapM_cons]
      apply emits_bind (each item)
      intro answer
      exact emits_bind ih fun _ => trivial

theorem emits_foldlM {f : α → γ → Prog σ ω ε α} (items : List γ)
    (each : ∀ acc item, (f acc item).Emits may) (acc : α) : (items.foldlM f acc).Emits may := by
  induction items generalizing acc with
  | nil => trivial
  | cons item items ih =>
      rw [List.foldlM_cons]
      exact emits_bind (each acc item) fun next => ih next

theorem Emits.mono {p : Prog σ ω ε α} {weaker : σ → List ω → Prop} (emits : p.Emits may)
    (weaken : ∀ s writes, may s writes → weaker s writes) : p.Emits weaker := by
  induction p with
  | ret answer => trivial
  | fail e => trivial
  | stmt emit next ih =>
      exact fun s => ⟨fun writes made => weaken s writes ((emits s).1 writes made), ih s (emits s).2⟩

/-- An invariant of the pending writes that allowed writes extend holds to the body's end. -/
theorem wp_of_emits {guarantee : List ω → σ → List ω → Prop} {inv : List ω → Prop}
    {p : Prog σ ω ε α} (emits : p.Emits may)
    (extends_ : ∀ pending s writes, inv pending → may s writes →
      guarantee pending s writes ∧ inv (pending ++ writes))
    {pending : List ω} (initially : inv pending) :
    p.wp guarantee (fun _ writes => inv writes) pending := by
  induction p generalizing pending with
  | ret answer => exact initially
  | fail e => trivial
  | stmt emit next ih =>
      intro s writes answer
      obtain ⟨kept, held⟩ := extends_ pending s writes initially ((emits s).1 writes answer)
      exact ⟨kept, ih s (emits s).2 held⟩

end Prog

/-! ## What is committed, and what is pending over it -/

section Visible

variable [Store σ ω ε κ]

/-- What no write changes is seen as it was committed. -/
theorem visible_eq {f : σ → α} (unread : ∀ s (w : ω), f (Store.apply s w) = f s) (committed : σ)
    (writes : List ω) : f (visible committed writes) = f committed := by
  induction writes generalizing committed with
  | nil => rfl
  | cons w writes ih => exact (ih (Store.apply committed w)).trans (unread committed w)

/-- A row seen was committed, or is one of those a pending write made. -/
theorem mem_visible {rows : σ → List α} {made : ω → α → Prop}
    (step : ∀ s w row, row ∈ rows (Store.apply s w) → row ∈ rows s ∨ made w row)
    {committed : σ} {writes : List ω} {row : α} (member : row ∈ rows (visible committed writes)) :
    row ∈ rows committed ∨ ∃ w ∈ writes, made w row := by
  induction writes generalizing committed with
  | nil => exact .inl member
  | cons w writes ih =>
      rcases ih member with before | ⟨later, known, new⟩
      · rcases step committed w row before with old | new
        · exact .inl old
        · exact .inr ⟨w, by simp, new⟩
      · exact .inr ⟨later, List.mem_cons_of_mem w known, new⟩

end Visible

/-- The pending writes of a client. -/
def System.writesOf (sys : System σ ω ε q a ℓ β) (i : Nat) : List ω :=
  (sys.clients[i]?).elim [] (·.writes)

/-- The clients but one. -/
def System.others (sys : System σ ω ε q a ℓ β) (i : Nat) : List (Client σ ω ε q a ℓ β) :=
  (sys.clients.zipIdx.filter fun client => client.2 ≠ i).map Prod.fst

theorem System.writesOf_eq {sys : System σ ω ε q a ℓ β} {i : Nat} {client : Client σ ω ε q a ℓ β}
    (found : sys.clients[i]? = some client) : sys.writesOf i = client.writes := by
  simp [writesOf, found]

theorem System.mem_others {sys : System σ ω ε q a ℓ β} {i : Nat}
    {other : Client σ ω ε q a ℓ β} :
    other ∈ sys.others i ↔ ∃ j, j ≠ i ∧ sys.clients[j]? = some other := by
  simp only [others, List.mem_map, List.mem_filter, Prod.exists, List.mem_zipIdx_iff_getElem?,
    decide_eq_true_eq]
  constructor
  · rintro ⟨_, j, ⟨found, different⟩, rfl⟩
    exact ⟨j, different, found⟩
  · rintro ⟨j, different, found⟩
    exact ⟨other, j, ⟨found, different⟩, rfl⟩

/-- A condition on commits alone: on the system before a client's writes are published. -/
def AtPublish (holds : System σ ω ε q a ℓ β → Nat → Prop) (sys : System σ ω ε q a ℓ β) :
    Event ε a ℓ → Prop
  | .publish i => holds sys i
  | _ => True

instance {holds : System σ ω ε q a ℓ β → Nat → Prop} [∀ sys i, Decidable (holds sys i)]
    (sys : System σ ω ε q a ℓ β) (event : Event ε a ℓ) : Decidable (AtPublish holds sys event) := by
  cases event <;> unfold AtPublish <;> infer_instance

variable [Store σ ω ε κ] [DecidableEq κ]

/-- A property of the committed state and one of each client's pending writes over it, before and
after its check, that carry each other through every event. -/
structure Carries (rules : Discipline σ ω a ℓ)
    (admits : System σ ω ε q a ℓ β → Event ε a ℓ → Prop)
    (safe : σ → Prop) (inv : σ → List ω → Bool → Prop) : Prop where
  opened : ∀ s, safe s → inv s [] false
  written : ∀ s pending writes, safe s → inv s pending false →
    rules.guarantee pending (visible s pending) writes → inv s (pending ++ writes) false
  passed : ∀ s pending, safe s → inv s pending false →
    Store.check (visible s pending) pending = .ok () → inv s pending true
  published : ∀ sys i client, admits sys (.publish i) → sys.clients[i]? = some client →
    safe sys.committed → inv sys.committed client.writes true →
    safe (visible sys.committed client.writes)
  unmoved : ∀ sys i client other, admits sys (.publish i) → sys.clients[i]? = some client →
    other ∈ sys.others i → safe sys.committed → inv sys.committed client.writes true → inv sys.committed other.writes other.checked →
    inv (visible sys.committed client.writes) other.writes other.checked

section Carrying

variable {body : ℓ → Job σ ω ε q a ℓ β} {admits : System σ ω ε q a ℓ β → Event ε a ℓ → Prop}
  {start sys after : System σ ω ε q a ℓ β} {rules : Discipline σ ω a ℓ}
  {safe : σ → Prop} {inv : σ → List ω → Bool → Prop}

/-- What a run carries about one client. -/
structure Client.Carried (rules : Discipline σ ω a ℓ) (inv : σ → List ω → Bool → Prop)
    (committed : σ) (client : Client σ ω ε q a ℓ β) : Prop where
  keeps : client.Keeps rules
  holds : inv committed client.writes client.checked
  /-- A client whose checks have passed has nothing left but its commit. -/
  committing : client.checked = true → ∃ next, client.job = some (.commit next)

theorem Client.Carried.unchecked {committed : σ} {client : Client σ ω ε q a ℓ β}
    (carried : client.Carried rules inv committed)
    (busy : ∀ next, client.job ≠ some (.commit next)) : client.checked = false := by
  cases checked : client.checked with
  | false => rfl
  | true =>
      obtain ⟨next, head⟩ := carried.committing checked
      exact absurd head (busy next)

theorem carries_step {event : Event ε a ℓ} (carries : Carries rules admits safe inv)
    (bodies : ∀ label, rules.allowed label → (body label).Keeps rules [])
    (admitted : admits sys event) (within : rules.Admits event) (step : Step body sys event after)
    (held : safe sys.committed ∧ ∀ client ∈ sys.clients, client.Carried rules inv sys.committed) :
    safe after.committed ∧ ∀ client ∈ after.clients, client.Carried rules inv after.committed := by
  obtain ⟨sound, each⟩ := held
  have keeps : ∀ client ∈ after.clients, client.Keeps rules := by
    refine keeps_step bodies ?_ ?_ step fun client member => (each client member).keeps
    · rintro label rfl
      exact within
    · rintro i response rfl
      exact within
  -- A client that keeps its writes and its flag keeps what is carried of it.
  have same {i : Nat} {client : Client σ ω ε q a ℓ β} {next : Client σ ω ε q a ℓ β}
      (found : sys.clients[i]? = some client)
      (holds : inv sys.committed next.writes next.checked)
      (committing : next.checked = true → ∃ commit, next.job = some (.commit commit))
      (keeping : ∀ client ∈ (sys.put i next).clients, client.Keeps rules) :
      ∀ client ∈ (sys.put i next).clients, client.Carried rules inv sys.committed := by
    intro other member
    have kept := keeping other member
    rcases mem_put member with rfl | known
    · exact ⟨kept, holds, committing⟩
    · exact each other known
  cases step with
  | spawn label =>
      refine ⟨sound, fun client member => ?_⟩
      rcases List.mem_append.mp member with old | new
      · exact each client old
      · have kept := keeps client member
        obtain rfl := List.mem_singleton.mp new
        exact ⟨kept, carries.opened _ sound, fun checked => nomatch checked⟩
  | jump found head =>
      have carried := each _ (List.mem_of_getElem? found)
      have unchecked := carried.unchecked (by simp [head])
      exact ⟨sound, same found carried.holds (by simp [unchecked]) keeps⟩
  | refused found head answer =>
      have carried := each _ (List.mem_of_getElem? found)
      have unchecked := carried.unchecked (by simp [head])
      exact ⟨sound, same found carried.holds (by simp [unchecked]) keeps⟩
  | exec found head answer free =>
      have carried := each _ (List.mem_of_getElem? found)
      have unchecked := carried.unchecked (by simp [head])
      have kept := ((carried.keeps _ head).1 _ _ answer).1
      have before : inv sys.committed _ false := unchecked ▸ carried.holds
      have grown := carries.written _ _ _ sound before kept
      exact ⟨sound, same found (unchecked ▸ grown) (by simp [unchecked]) keeps⟩
  | passed found head unchecked holds =>
      have carried := each _ (List.mem_of_getElem? found)
      have before : inv sys.committed _ false := unchecked ▸ carried.holds
      exact ⟨sound, same found (carries.passed _ _ sound before holds) (fun _ => ⟨_, head⟩) keeps⟩
  | violated found head unchecked fails =>
      have opened := carries.opened _ sound
      exact ⟨sound, same found (unchecked ▸ opened) (by simp [unchecked]) keeps⟩
  | publish found head checked =>
      have carried := each _ (List.mem_of_getElem? found)
      have ready : inv sys.committed _ true := checked ▸ carried.holds
      have published := carries.published _ _ _ admitted found sound ready
      refine ⟨published, fun other member => ?_⟩
      have kept := keeps other member
      obtain ⟨j, place⟩ := List.mem_iff_getElem?.mp member
      rw [System.put, List.getElem?_set] at place
      split at place
      next =>
        split at place
        next =>
          obtain rfl := Option.some.inj place
          exact ⟨kept, carries.opened _ published, fun checked => nomatch checked⟩
        next => cases place
      next different =>
        have old := each other (List.mem_of_getElem? place)
        have aside := System.mem_others.mpr ⟨j, Ne.symm different, place⟩
        exact ⟨kept, carries.unmoved _ _ _ _ admitted found aside sound ready old.holds,
          old.committing⟩
  | rollback found head =>
      have carried := each _ (List.mem_of_getElem? found)
      have unchecked := carried.unchecked (by simp [head])
      have opened := carries.opened _ sound
      exact ⟨sound, same found (unchecked ▸ opened) (by simp [unchecked]) keeps⟩
  | answer response found head =>
      have carried := each _ (List.mem_of_getElem? found)
      have unchecked := carried.unchecked (by simp [head])
      exact ⟨sound, same found carried.holds (by simp [unchecked]) keeps⟩
  | faultStmt e found head =>
      have carried := each _ (List.mem_of_getElem? found)
      have unchecked := carried.unchecked (by simp [head])
      exact ⟨sound, same found carried.holds (by simp [unchecked]) keeps⟩
  | faultCommit e found head =>
      exact ⟨sound, same found (carries.opened _ sound) (fun checked => nomatch checked) keeps⟩
  | faultAsk e found head =>
      have carried := each _ (List.mem_of_getElem? found)
      have unchecked := carried.unchecked (by simp [head])
      exact ⟨sound, same found carried.holds (by simp [unchecked]) keeps⟩
  | crash found =>
      exact ⟨sound, same found (carries.opened _ sound) (fun checked => nomatch checked) keeps⟩

/-- From a state with the property and nobody connected, every run has both throughout. -/
theorem Run.carries (carries : Carries rules admits safe inv)
    (bodies : ∀ label, rules.allowed label → (body label).Keeps rules [])
    (within : ∀ sys event, admits sys event → rules.Admits event)
    (run : Run body admits start sys) (idle : start.clients = []) (initially : safe start.committed) :
    safe sys.committed ∧ ∀ client ∈ sys.clients, client.Carried rules inv sys.committed := by
  induction run with
  | refl => exact ⟨initially, by simp [idle]⟩
  | step _ admitted fired ih =>
      exact carries_step carries bodies admitted (within _ _ admitted) (step_of_fire fired) ih

end Carrying

end Isolation
