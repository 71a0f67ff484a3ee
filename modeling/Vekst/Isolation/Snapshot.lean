import Vekst.Isolation.Moves

namespace Isolation

variable {σ ω ε κ q a ℓ β α γ : Type}

/-! ## Bodies that read -/

/-- Every statement the body makes when run from `s` answers the same from `s'`. -/
def Prog.Same : Prog σ ω ε α → σ → σ → Prop
  | .ret _, _, _ => True
  | .fail _, _, _ => True
  | .stmt emit next, s, s' => emit s = emit s' ∧ next s = next s' ∧ (next s).Same s s'

theorem Prog.same_refl (p : Prog σ ω ε α) (s : σ) : p.Same s s := by
  induction p with
  | ret answer => trivial
  | fail e => trivial
  | stmt emit next ih => exact ⟨rfl, rfl, ih s⟩

theorem Prog.Same.trans {p : Prog σ ω ε α} {s s' s'' : σ} (first : p.Same s s')
    (second : p.Same s' s'') : p.Same s s'' := by
  induction p with
  | ret answer => trivial
  | fail e => trivial
  | stmt emit next ih =>
      obtain ⟨emits, continues, rest⟩ := first
      obtain ⟨emits', continues', rest'⟩ := second
      rw [← continues] at rest'
      exact ⟨emits.trans emits', continues.trans continues', ih s rest rest'⟩

/-- By itself on either state the body answers the same, and leaves the state as it was. -/
def Prog.ReadsAlike (apply : σ → ω → σ) (p : Prog σ ω ε α) (s s' : σ) : Prop :=
  ∃ outcome : Except ε α, p.run apply s = outcome.map (·, s) ∧ p.run apply s' = outcome.map (·, s')

section ReadsAlike

variable {apply : σ → ω → σ} {s s' : σ}

theorem Prog.readsAlike_ret (answer : α) : (ret answer : Prog σ ω ε α).ReadsAlike apply s s' :=
  ⟨.ok answer, rfl, rfl⟩

theorem Prog.readsAlike_fail (e : ε) : (fail e : Prog σ ω ε α).ReadsAlike apply s s' :=
  ⟨.error e, rfl, rfl⟩

theorem Prog.readsAlike_ofExcept (outcome : Except ε α) :
    (ofExcept outcome : Prog σ ω ε α).ReadsAlike apply s s' := by
  cases outcome with
  | ok answer => exact readsAlike_ret answer
  | error e => exact readsAlike_fail e

theorem Prog.readsAlike_query {f : σ → Except ε α} (same : f s' = f s) :
    (query f : Prog σ ω ε α).ReadsAlike apply s s' := by
  refine ⟨f s, run_query apply f s, ?_⟩
  rw [run_query, same]

theorem Prog.readsAlike_bind {p : Prog σ ω ε α} {f : α → Prog σ ω ε γ}
    (first : p.ReadsAlike apply s s') (then_ : ∀ answer, (f answer).ReadsAlike apply s s') :
    (p >>= f).ReadsAlike apply s s' := by
  obtain ⟨outcome, here, there⟩ := first
  cases outcome with
  | error e =>
      refine ⟨.error e, ?_, ?_⟩
      · rw [run_bind, here]
        rfl
      · rw [run_bind, there]
        rfl
  | ok answer =>
      obtain ⟨rest, here', there'⟩ := then_ answer
      refine ⟨rest, ?_, ?_⟩
      · rw [run_bind, here]
        exact here'
      · rw [run_bind, there]
        exact there'

theorem Prog.readsAlike_mapM {items : List γ} {f : γ → Prog σ ω ε α}
    (each : ∀ item, (f item).ReadsAlike apply s s') : (items.mapM f).ReadsAlike apply s s' := by
  induction items with
  | nil => exact readsAlike_ret []
  | cons item items ih =>
      rw [List.mapM_cons]
      exact readsAlike_bind (each item) fun answer =>
        readsAlike_bind ih fun answers => readsAlike_ret (answer :: answers)

/-- What is made of the answer alone does not depend on the state. -/
theorem Prog.ReadsAlike.bind_fst {p : Prog σ ω ε α} (alike : p.ReadsAlike apply s s')
    (f : α → Except ε γ) :
    ((p.run apply s').bind fun result => f result.1) =
      (p.run apply s).bind fun result => f result.1 := by
  obtain ⟨outcome, here, there⟩ := alike
  rw [here, there]
  cases outcome <;> rfl

end ReadsAlike

/-- No statement of the body writes. -/
def Prog.Silent (p : Prog σ ω ε α) : Prop := p.Emits fun _ writes => writes = []

section Reading

variable [Store σ ω ε κ]
variable {body : ℓ → Job σ ω ε q a ℓ β} {event : Event ε a ℓ}
  {next : Except ε α → Job σ ω ε q a ℓ β}

/-- A client amid a reading transaction whose answers are those of one state. -/
structure Reading (whole : Prog σ ω ε α) (next : Except ε α → Job σ ω ε q a ℓ β)
    (moment committed : σ) (client : Client σ ω ε q a ℓ β) (rest : Prog σ ω ε α) : Prop where
  head : client.job = some (inTx next rest)
  empty : client.writes = []
  silent : rest.Silent
  running : ∃ emit later, rest = .stmt emit later
  answers : rest.run Store.apply moment = whole.run Store.apply moment
  current : whole.Same moment committed
  suffix_ : ∀ s, whole.Same moment s → rest.Same moment s

theorem Reading.start {whole : Prog σ ω ε α} {committed : σ} {client : Client σ ω ε q a ℓ β}
    (head : client.job = some (inTx next whole)) (empty : client.writes = [])
    (silent : whole.Silent) (running : ∃ emit later, whole = .stmt emit later) :
    Reading whole next committed committed client whole :=
  ⟨head, empty, silent, running, rfl, whole.same_refl committed, fun _ same => same⟩

/-- Another client's commit that changes no answer of the body. -/
theorem Reading.unmoved {whole rest : Prog σ ω ε α} {moment committed later : σ}
    {client : Client σ ω ε q a ℓ β} (reading : Reading whole next moment committed client rest)
    (same : whole.Same committed later) : Reading whole next moment later client rest :=
  { reading with current := reading.current.trans same }

/-- The reading client's own event: it reads on, or ends with what the moment answers. -/
theorem Reading.moves {whole rest : Prog σ ω ε α} {moment committed later : σ} {i : Nat}
    {client moved : Client σ ω ε q a ℓ β} {post : β → Prop}
    (reading : Reading whole next moment committed client rest)
    (moves : Moves body committed i client event moved later)
    (returned : ∀ answer, whole.run Store.apply moment = .ok (answer, moment) →
      (next (.ok answer)).Returns post)
    (failed : ∀ e, (next (.error e)).Returns post) :
    later = committed ∧
      ((∃ rest', Reading whole next moment committed moved rest') ∨ moved.Returns post) := by
  obtain ⟨head, empty, silent, ⟨emit, continue_, rfl⟩, answers, current, suffix_⟩ := reading
  obtain ⟨emits, continues, rest⟩ := suffix_ committed current
  rw [inTx] at head
  cases moves with
  | exec statement answer =>
      refine ⟨rfl, ?_⟩
      obtain ⟨rfl, rfl⟩ := Job.stmt.inj (Option.some.inj (head.symm.trans statement))
      rw [empty, visible_nil] at answer
      obtain rfl := (silent committed).1 _ answer
      have step : (continue_ moment).run Store.apply moment = whole.run Store.apply moment := by
        rw [← answers, Prog.run, emits, answer]
        rfl
      have onwards : ∀ s, whole.Same moment s → (continue_ moment).Same moment s :=
        fun s same => (suffix_ s same).2.2
      have quiet : (continue_ moment).Silent := continues ▸ (silent committed).2
      simp only [empty, visible_nil, ← continues]
      cases shape : continue_ moment with
      | ret value =>
          right
          rintro _ ⟨⟩
          rw [shape] at step
          intro result
          cases result with
          | ok => exact returned value step.symm
          | error e => exact failed e
      | fail e =>
          right
          rintro _ ⟨⟩
          exact failed e
      | stmt emit' continue' =>
          left
          rw [shape] at step onwards quiet
          exact ⟨_, rfl, rfl, quiet, ⟨_, _, rfl⟩, step, current, onwards⟩
  | refused statement answer =>
      refine ⟨rfl, .inr ?_⟩
      obtain ⟨rfl, rfl⟩ := Job.stmt.inj (Option.some.inj (head.symm.trans statement))
      rintro _ ⟨⟩
      exact failed _
  | faultStmt e statement =>
      refine ⟨rfl, .inr ?_⟩
      obtain ⟨rfl, rfl⟩ := Job.stmt.inj (Option.some.inj (head.symm.trans statement))
      rintro _ ⟨⟩
      exact failed _
  | crash =>
      refine ⟨rfl, .inr ?_⟩
      rintro _ ⟨⟩
  | jump other => cases head.symm.trans other
  | passed other => cases head.symm.trans other
  | violated other => cases head.symm.trans other
  | publish other => cases head.symm.trans other
  | rollback other => cases head.symm.trans other
  | answer response other => cases head.symm.trans other
  | faultCommit e other => cases head.symm.trans other
  | faultAsk e other => cases head.symm.trans other

end Reading

end Isolation
