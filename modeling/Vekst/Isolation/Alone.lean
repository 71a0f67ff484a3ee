import Vekst.Isolation.View

namespace Isolation

variable {σ ω ε α β γ : Type}

/-! ## Bodies with the database to themselves -/

/-- Run by itself from a state with the property, the body leaves what is said of its answer. -/
def Prog.Leaves (apply : σ → ω → σ) (pre : σ → Prop) (p : Prog σ ω ε α) (post : α → σ → Prop) :
    Prop :=
  ∀ s answer t, pre s → p.run apply s = .ok (answer, t) → post answer t

namespace Prog

variable {apply : σ → ω → σ} {pre : σ → Prop} {post : α → σ → Prop}

theorem leaves_mono {p : Prog σ ω ε α} {stronger : σ → Prop} {weaker : α → σ → Prop}
    (leaves : p.Leaves apply pre post) (strengthen : ∀ s, stronger s → pre s)
    (weaken : ∀ answer s, post answer s → weaker answer s) : p.Leaves apply stronger weaker :=
  fun s answer t known ran => weaken answer t (leaves s answer t (strengthen s known) ran)

/-- What is known beside the state. -/
theorem leaves_assume {p : Prog σ ω ε α} {fact : Prop} (given : fact → p.Leaves apply pre post) :
    p.Leaves apply (fun s => pre s ∧ fact) post :=
  fun s answer t both ran => given both.2 s answer t both.1 ran

theorem leaves_ret {answer : α} (now : ∀ s, pre s → post answer s) :
    (ret answer : Prog σ ω ε α).Leaves apply pre post := by
  intro s _ t known ran
  obtain ⟨rfl, rfl⟩ := Prod.mk.inj (Except.ok.inj ran)
  exact now s known

theorem leaves_fail {e : ε} : (fail e : Prog σ ω ε α).Leaves apply pre post := by
  intro s answer t _ ran
  cases ran

theorem leaves_bind {p : Prog σ ω ε γ} {f : γ → Prog σ ω ε α} {between : γ → σ → Prop}
    (first : p.Leaves apply pre between) (rest : ∀ c, (f c).Leaves apply (between c) post) :
    (p >>= f).Leaves apply pre post := by
  intro s answer t known ran
  obtain ⟨c, mid, before, after⟩ := (run_bind_ok apply).mp ran
  exact rest c mid answer t (first s c mid known before) after

theorem leaves_exec {f : σ → Except ε (List ω × α)} (now : ∀ s writes answer, pre s →
    f s = .ok (writes, answer) → post answer (writes.foldl apply s)) :
    (exec f).Leaves apply pre post := by
  intro s answer t known ran
  obtain ⟨writes, made, rfl⟩ := (run_exec_ok apply).mp ran
  exact now s writes answer known made

theorem leaves_ofExcept {outcome : Except ε α} (now : ∀ s answer, pre s → outcome = .ok answer →
    post answer s) : (ofExcept outcome : Prog σ ω ε α).Leaves apply pre post := by
  intro s answer t known ran
  obtain ⟨found, rfl⟩ := (run_ofExcept_ok apply).mp ran
  exact now s answer known found

/-- What the body's statements may write keeps the invariant. -/
theorem leaves_of_emits {may : σ → List ω → Prop} {inv : σ → Prop} {p : Prog σ ω ε α}
    (emits : p.Emits may)
    (kept : ∀ s writes, inv s → may s writes → inv (writes.foldl apply s)) :
    p.Leaves apply inv fun _ => inv := by
  induction p with
  | ret answer => exact leaves_ret fun _ known => known
  | fail e => exact leaves_fail
  | stmt emit next ih =>
      intro s answer t known ran
      rw [run] at ran
      split at ran
      next => cases ran
      next writes made =>
        have allowed := (emits s).1 writes made
        exact ih s (emits s).2 _ answer t (kept s writes known allowed) ran

theorem leaves_forM {inv : σ → Prop} {f : γ → Prog σ ω ε PUnit} (items : List γ)
    (each : ∀ item ∈ items, (f item).Leaves apply inv fun _ => inv) :
    (items.forM f).Leaves apply inv fun _ => inv := by
  induction items with
  | nil => exact leaves_ret fun _ known => known
  | cons item items ih =>
      exact leaves_bind (each item (by simp)) fun _ => ih fun other member => each other (by simp [member])

theorem leaves_foldlM {inv : β → σ → Prop} {f : β → γ → Prog σ ω ε β} (items : List γ)
    (each : ∀ item ∈ items, ∀ acc, (f acc item).Leaves apply (inv acc) inv) (acc : β) :
    (items.foldlM f acc).Leaves apply (inv acc) inv := by
  induction items generalizing acc with
  | nil => exact leaves_ret fun _ known => known
  | cons item items ih =>
      rw [List.foldlM_cons]
      exact leaves_bind (each item (by simp) acc)
        fun next => ih (fun other member => each other (by simp [member])) next

/-- An invariant of the answers so far. -/
theorem leaves_mapM {inv : List α → σ → Prop} {f : γ → Prog σ ω ε α} (items : List γ)
    (each : ∀ item ∈ items, ∀ done_, (f item).Leaves apply (inv done_)
      fun answer => inv (done_ ++ [answer])) (done_ : List α) :
    (items.mapM f).Leaves apply (inv done_) fun answers => inv (done_ ++ answers) := by
  induction items generalizing done_ with
  | nil =>
      rw [List.mapM_nil]
      refine leaves_ret fun s known => ?_
      rw [List.append_nil]
      exact known
  | cons item items ih =>
      rw [List.mapM_cons]
      refine leaves_bind (each item (by simp) done_) fun answer => ?_
      refine leaves_bind (ih (fun other member => each other (by simp [member])) _) fun answers => ?_
      refine leaves_ret fun s known => ?_
      rw [← List.append_cons] at known
      exact known

end Prog

end Isolation
