import Mathlib.Data.List.Basic

namespace Isolation

/-- The body of a database transaction. A statement answers from the state it sees and may write;
its failure, like the body's own, abandons the transaction. -/
inductive Prog (σ ω ε α : Type) where
  | ret (a : α)
  | fail (e : ε)
  | stmt (emit : σ → Except ε (List ω)) (next : σ → Prog σ ω ε α)

namespace Prog

variable {σ ω ε α β γ : Type}

def bind : Prog σ ω ε α → (α → Prog σ ω ε β) → Prog σ ω ε β
  | ret a, f => f a
  | fail e, _ => fail e
  | stmt emit next, f => stmt emit fun s => (next s).bind f

instance : Monad (Prog σ ω ε) where
  pure := ret
  bind := bind

@[simp] theorem pure_eq (a : α) : (pure a : Prog σ ω ε α) = ret a := rfl

@[simp] theorem ret_bind (a : α) (f : α → Prog σ ω ε β) : (ret a : Prog σ ω ε α) >>= f = f a := rfl

@[simp] theorem fail_bind (e : ε) (f : α → Prog σ ω ε β) :
    (fail e : Prog σ ω ε α) >>= f = fail e := rfl

@[simp] theorem stmt_bind (emit : σ → Except ε (List ω)) (next : σ → Prog σ ω ε α)
    (f : α → Prog σ ω ε β) :
    stmt emit next >>= f = stmt emit fun s => next s >>= f := rfl

theorem bind_ret (p : Prog σ ω ε α) : p >>= ret = p := by
  induction p with
  | ret a => rfl
  | fail e => rfl
  | stmt emit next ih => simp only [stmt_bind, ih]

theorem bind_bind (p : Prog σ ω ε α) (f : α → Prog σ ω ε β) (g : β → Prog σ ω ε γ) :
    p >>= f >>= g = p >>= fun a => f a >>= g := by
  induction p with
  | ret a => rfl
  | fail e => rfl
  | stmt emit next ih => simp only [stmt_bind, ih]

instance : LawfulMonad (Prog σ ω ε) :=
  LawfulMonad.mk' _ bind_ret ret_bind bind_bind

/-- A statement that only reads. -/
def query (f : σ → Except ε α) : Prog σ ω ε α :=
  stmt (fun s => (f s).map fun _ => []) fun s =>
    match f s with
    | .ok a => ret a
    | .error e => fail e

/-- A statement that writes what it finds it has to write, and answers. -/
def exec (f : σ → Except ε (List ω × α)) : Prog σ ω ε α :=
  stmt (fun s => (f s).map Prod.fst) fun s =>
    match f s with
    | .ok result => ret result.2
    | .error e => fail e

def ofExcept : Except ε α → Prog σ ω ε α
  | .ok a => ret a
  | .error e => fail e

@[simp] theorem ofExcept_ok (a : α) : (ofExcept (.ok a) : Prog σ ω ε α) = ret a := rfl

@[simp] theorem ofExcept_error (e : ε) : (ofExcept (.error e) : Prog σ ω ε α) = fail e := rfl

/-! ## Alone on the database -/

variable (apply : σ → ω → σ)

/-- The body run by itself: its answer and the state its writes leave. -/
def run : Prog σ ω ε α → σ → Except ε (α × σ)
  | ret a, s => .ok (a, s)
  | fail e, _ => .error e
  | stmt emit next, s => match emit s with
      | .error e => .error e
      | .ok writes => (next s).run (writes.foldl apply s)

@[simp] theorem run_ret (a : α) (s : σ) :
    (ret a : Prog σ ω ε α).run apply s = .ok (a, s) := rfl

@[simp] theorem run_fail (e : ε) (s : σ) :
    (fail e : Prog σ ω ε α).run apply s = .error e := rfl

theorem run_bind (p : Prog σ ω ε α) (f : α → Prog σ ω ε β) (s : σ) :
    (p >>= f).run apply s = (p.run apply s).bind fun result => (f result.1).run apply result.2 := by
  induction p generalizing s with
  | ret a => rfl
  | fail e => rfl
  | stmt emit next ih =>
      simp only [stmt_bind, run]
      cases emit s with
      | error e => rfl
      | ok writes => exact ih s _

theorem run_bind_ok {p : Prog σ ω ε α} {f : α → Prog σ ω ε β} {s : σ} {b : β} {t : σ} :
    (p >>= f).run apply s = .ok (b, t) ↔
      ∃ a mid, p.run apply s = .ok (a, mid) ∧ (f a).run apply mid = .ok (b, t) := by
  rw [run_bind]
  cases p.run apply s with
  | error e => simp [Except.bind]
  | ok result =>
      obtain ⟨a, mid⟩ := result
      simp [Except.bind]

theorem run_query (f : σ → Except ε α) (s : σ) :
    (query f : Prog σ ω ε α).run apply s = (f s).map fun a => (a, s) := by
  unfold query run
  cases answer : f s <;> simp [Except.map, answer]

theorem run_exec (f : σ → Except ε (List ω × α)) (s : σ) :
    (exec f).run apply s =
      (f s).map fun result => (result.2, result.1.foldl apply s) := by
  unfold exec run
  cases answer : f s <;> simp [Except.map, answer]

theorem run_query_ok {f : σ → Except ε α} {s t : σ} {a : α} :
    (query f : Prog σ ω ε α).run apply s = .ok (a, t) ↔ f s = .ok a ∧ s = t := by
  rw [run_query]
  cases f s <;> simp [Except.map]

theorem run_ofExcept_ok {outcome : Except ε α} {s t : σ} {a : α} :
    (ofExcept outcome : Prog σ ω ε α).run apply s = .ok (a, t) ↔ outcome = .ok a ∧ s = t := by
  cases outcome <;> simp

/-- A list of reads, one after another. -/
theorem run_mapM_query (items : List γ) (f : γ → σ → Except ε α) (s : σ) :
    (items.mapM fun item => (query (f item) : Prog σ ω ε α)).run apply s =
      (items.mapM fun item => f item s).map fun answers => (answers, s) := by
  induction items with
  | nil => rfl
  | cons item items ih =>
      rw [List.mapM_cons, List.mapM_cons, run_bind, run_query]
      cases f item s with
      | error e => rfl
      | ok answer =>
          simp only [Except.map, Except.bind, run_bind, ih]
          cases items.mapM fun item => f item s <;> rfl

theorem run_exec_ok {f : σ → Except ε (List ω × α)} {s t : σ} {a : α} :
    (exec f).run apply s = .ok (a, t) ↔ ∃ writes, f s = .ok (writes, a) ∧
      writes.foldl apply s = t := by
  rw [run_exec]
  cases f s with
  | error e => simp [Except.map]
  | ok result =>
      obtain ⟨writes, answer⟩ := result
      simp only [Except.map, Except.ok.injEq, Prod.mk.injEq]
      constructor
      · rintro ⟨rfl, rfl⟩
        exact ⟨writes, ⟨rfl, rfl⟩, rfl⟩
      · rintro ⟨_, ⟨rfl, rfl⟩, rfl⟩
        exact ⟨rfl, rfl⟩

end Prog

end Isolation
