import Vekst.Isolation.View

namespace Isolation

variable {σ σ' ω ω' ε κ κ' q q' a a' ℓ ℓ' β β' α γ : Type}

/-! ## Bodies of one store in a larger one -/

/-- The body on the part of the state it knows, its writes among the larger ones. -/
def Prog.lift (view : σ' → σ) (inject : ω → ω') : Prog σ ω ε α → Prog σ' ω' ε α
  | ret answer => ret answer
  | fail e => fail e
  | stmt emit next =>
      stmt (fun s => (emit (view s)).map (List.map inject)) fun s => (next (view s)).lift view inject

namespace Prog

variable {view : σ' → σ} {inject : ω → ω'}

theorem lift_query (f : σ → Except ε α) :
    (query f : Prog σ ω ε α).lift view inject = query fun s => f (view s) := by
  unfold query
  simp only [lift]
  congr 1
  · funext s
    cases f (view s) <;> rfl
  · funext s
    cases f (view s) <;> rfl

theorem lift_exec (f : σ → Except ε (List ω × α)) :
    (exec f).lift view inject =
      exec fun s => (f (view s)).map fun result => (result.1.map inject, result.2) := by
  unfold exec
  simp only [lift]
  congr 1
  · funext s
    cases f (view s) <;> rfl
  · funext s
    cases f (view s) <;> rfl

theorem emits_lift {may : σ → List ω → Prop} {mayLarger : σ' → List ω' → Prop} {p : Prog σ ω ε α}
    (emits : p.Emits may)
    (allowed : ∀ s writes, may (view s) writes → mayLarger s (writes.map inject)) :
    (p.lift view inject).Emits mayLarger := by
  induction p with
  | ret answer => trivial
  | fail e => trivial
  | stmt emit next ih =>
      intro s
      refine ⟨fun writes made => ?_, ih _ (emits (view s)).2⟩
      cases found : emit (view s) with
      | error e => simp [found, Except.map] at made
      | ok smaller =>
          obtain rfl : smaller.map inject = writes := by simpa [found, Except.map] using made
          exact allowed s smaller ((emits (view s)).1 smaller found)

/-- The part of the larger state that is written is written as by the smaller store. -/
structure Lens (view : σ' → σ) (put : σ' → σ → σ') (inject : ω → ω') (apply : σ → ω → σ)
    (applyLarger : σ' → ω' → σ') : Prop where
  view_put : ∀ s d, view (put s d) = d
  put_view : ∀ s, put s (view s) = s
  put_put : ∀ s d later, put (put s d) later = put s later
  applied : ∀ s w, applyLarger s (inject w) = put s (apply (view s) w)

variable {put : σ' → σ → σ'} {apply : σ → ω → σ} {applyLarger : σ' → ω' → σ'}

theorem Lens.foldl (lens : Lens view put inject apply applyLarger) (s : σ') (writes : List ω) :
    (writes.map inject).foldl applyLarger s = put s (writes.foldl apply (view s)) := by
  induction writes generalizing s with
  | nil => exact (lens.put_view s).symm
  | cons w writes ih =>
      rw [List.map_cons, List.foldl_cons, List.foldl_cons, lens.applied, ih, lens.view_put,
        lens.put_put]

/-- Run by itself, the body leaves the rest of the larger state alone. -/
theorem run_lift (lens : Lens view put inject apply applyLarger) (p : Prog σ ω ε α) (s : σ') :
    (p.lift view inject).run applyLarger s =
      (p.run apply (view s)).map fun result => (result.1, put s result.2) := by
  induction p generalizing s with
  | ret answer => simp only [lift, run_ret, Except.map, lens.put_view]
  | fail e => rfl
  | stmt emit next ih =>
      rw [lift, run, run]
      cases emit (view s) with
      | error e => rfl
      | ok writes =>
          simp only [Except.map]
          rw [lens.foldl, ih, lens.view_put]
          cases (next (view s)).run apply (writes.foldl apply (view s)) with
          | error e => rfl
          | ok result => simp only [Except.map, lens.put_put]

end Prog

/-! ## Jobs of one store in a larger one -/

/-- How a job's statements, requests, jumps and outcome are read in the larger system. -/
structure Embedding (σ σ' ω ω' ε q q' a a' ℓ ℓ' β β' : Type) where
  view : σ' → σ
  inject : ω → ω'
  ask : q → q'
  hear : a' → Except ε a
  enter : ℓ → Job σ' ω' ε q' a' ℓ' β'
  report : β → β'

def Job.lift (into : Embedding σ σ' ω ω' ε q q' a a' ℓ ℓ' β β') :
    Job σ ω ε q a ℓ β → Job σ' ω' ε q' a' ℓ' β'
  | .done outcome => .done (into.report outcome)
  | .jump label => into.enter label
  | .ask request next =>
      .ask (into.ask request) fun response => (next (response.bind into.hear)).lift into
  | .stmt emit next =>
      .stmt (fun s => (emit (into.view s)).map (List.map into.inject))
        fun answer => (next (answer.map into.view)).lift into
  | .commit next => .commit fun result => (next result).lift into
  | .rollback next => .rollback (next.lift into)

/-- The same job, its outcome reported otherwise. -/
def Job.map (f : β → β') : Job σ ω ε q a ℓ β → Job σ ω ε q a ℓ β'
  | .done outcome => .done (f outcome)
  | .jump label => .jump label
  | .ask request next => .ask request fun response => (next response).map f
  | .stmt emit next => .stmt emit fun answer => (next answer).map f
  | .commit next => .commit fun result => (next result).map f
  | .rollback next => .rollback (next.map f)

theorem lift_inTx (into : Embedding σ σ' ω ω' ε q q' a a' ℓ ℓ' β β')
    (next : Except ε α → Job σ ω ε q a ℓ β) (p : Prog σ ω ε α) :
    (inTx next p).lift into =
      inTx (fun result => (next result).lift into) (p.lift into.view into.inject) := by
  induction p with
  | ret answer =>
      simp only [inTx, Prog.lift, Job.lift]
      congr 1
      funext result
      cases result <;> rfl
  | fail e => rfl
  | stmt emit rest ih =>
      simp only [inTx, Prog.lift, Job.lift]
      congr 1
      funext answer
      cases answer with
      | error e => rfl
      | ok s => exact ih (into.view s)

end Isolation
