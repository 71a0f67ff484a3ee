import Vekst.Isolation.View

namespace Isolation

variable {σ ω ε κ q a ℓ β : Type} [Store σ ω ε κ]

/-! ## The writes of open transactions -/

/-- What a client's next statement would write. -/
def System.emits (sys : System σ ω ε q a ℓ β) (i : Nat) : Option (List ω) := do
  let client ← sys.clients[i]?
  match client.job with
  | some (.stmt emit _) => (emit (visible sys.committed client.writes)).toOption
  | _ => none

/-- The locks a client's open transaction holds. -/
def System.held (sys : System σ ω ε q a ℓ β) (i : Nat) : List κ :=
  (sys.writesOf i).flatMap (Store.locks σ)

/-- A condition on statements alone: on the state one sees and what it is about to write. -/
def AtExec (holds : σ → List ω → Prop) (sys : System σ ω ε q a ℓ β) : Event ε a ℓ → Prop
  | .exec i => ∀ writes ∈ sys.emits i, holds (visible sys.committed (sys.writesOf i)) writes
  | _ => True

instance {holds : σ → List ω → Prop} [∀ s writes, Decidable (holds s writes)]
    (sys : System σ ω ε q a ℓ β) (event : Event ε a ℓ) : Decidable (AtExec holds sys event) :=
  match event with
  | .exec i => inferInstanceAs
      (Decidable (∀ writes ∈ sys.emits i, holds (visible sys.committed (sys.writesOf i)) writes))
  | .spawn _ | .jump _ | .check _ | .publish _ | .rollback _ | .answer _ _ | .fault _ _ | .crash _ =>
      inferInstanceAs (Decidable True)

variable [DecidableEq κ]
variable {body : ℓ → Job σ ω ε q a ℓ β} {admits : System σ ω ε q a ℓ β → Event ε a ℓ → Prop}
  {start sys after : System σ ω ε q a ℓ β} {event : Event ε a ℓ}

/-- What an event does to what is committed and to the writes of open transactions. -/
inductive Effect (sys : System σ ω ε q a ℓ β) (after : System σ ω ε q a ℓ β) : Event ε a ℓ → Prop
  | wrote {i : Nat} {writes : List ω} (emitted : sys.emits i = some writes)
      (free : sys.free i writes) (committed : after.committed = sys.committed)
      (pending : after.writesOf = Function.update sys.writesOf i (sys.writesOf i ++ writes)) :
      Effect sys after (.exec i)
  | published {i : Nat} (committed : after.committed = visible sys.committed (sys.writesOf i))
      (pending : after.writesOf = Function.update sys.writesOf i []) : Effect sys after (.publish i)
  | other {event : Event ε a ℓ} (unpublished : ∀ i, event ≠ .publish i)
      (committed : after.committed = sys.committed)
      (pending : ∀ j, after.writesOf j = sys.writesOf j ∨ after.writesOf j = []) :
      Effect sys after event

omit [Store σ ω ε κ] [DecidableEq κ] in
theorem writesOf_put {i : Nat} {client next : Client σ ω ε q a ℓ β}
    (found : sys.clients[i]? = some client) :
    (sys.put i next).writesOf = Function.update sys.writesOf i next.writes := by
  funext j
  by_cases same : j = i
  · subst same
    have inside := (List.getElem?_eq_some_iff.mp found).1
    simp [System.writesOf, System.put, inside]
  · rw [Function.update_of_ne same]
    simp [System.writesOf, System.put, List.getElem?_set_ne (Ne.symm same)]

theorem effect_of_step (step : Step body sys event after) : Effect sys after event := by
  have quiet {i : Nat} {client next : Client σ ω ε q a ℓ β}
      (unpublished : ∀ i, event ≠ .publish i) (found : sys.clients[i]? = some client)
      (fewer : next.writes = client.writes ∨ next.writes = []) :
      Effect sys (sys.put i next) event := by
    refine .other unpublished rfl fun j => ?_
    rw [writesOf_put found]
    by_cases same : j = i
    · subst same
      rwa [Function.update_self, System.writesOf_eq found]
    · exact .inl (Function.update_of_ne same _ _)
  cases step with
  | spawn label =>
      refine .other (by simp) rfl fun j => ?_
      rcases Nat.lt_trichotomy j sys.clients.length with old | rfl | past
      · exact .inl (by simp [System.writesOf, List.getElem?_append_left old])
      · exact .inr (by simp [System.writesOf, Client.started])
      · have outside : (sys.clients ++ [Client.started label]).length ≤ j := by
          rw [List.length_append]
          exact past
        exact .inr (by simp [System.writesOf, List.getElem?_eq_none outside])
  | exec found head answer free =>
      refine .wrote ?_ free rfl ?_
      · simp [System.emits, found, head, answer, Except.toOption]
      · rw [writesOf_put found, System.writesOf_eq found]
  | @publish i client next found head checked =>
      refine .published ?_ ?_
      · rw [System.writesOf_eq found]
        rfl
      · have placed : ({ sys with committed := visible sys.committed client.writes } :
            System σ ω ε q a ℓ β).clients[i]? = some client := found
        exact writesOf_put placed
  | jump found => exact quiet (by simp) found (.inl rfl)
  | refused found => exact quiet (by simp) found (.inl rfl)
  | passed found => exact quiet (by simp) found (.inl rfl)
  | violated found => exact quiet (by simp) found (.inr rfl)
  | rollback found => exact quiet (by simp) found (.inr rfl)
  | answer response found => exact quiet (by simp) found (.inl rfl)
  | faultStmt e found => exact quiet (by simp) found (.inl rfl)
  | faultCommit e found => exact quiet (by simp) found (.inr rfl)
  | faultAsk e found => exact quiet (by simp) found (.inl rfl)
  | crash found => exact quiet (by simp) found (.inr rfl)

/-! ## The locks of open transactions -/

/-- No lock is held by two open transactions. -/
def Exclusive (sys : System σ ω ε q a ℓ β) : Prop :=
  ∀ i j, i ≠ j → (sys.held i).Disjoint (sys.held j)

/-- The writes of a statement that did not wait take no lock another transaction holds. -/
theorem disjoint_of_free {i j : Nat} {writes : List ω} (free : sys.free i writes)
    (different : i ≠ j) : (writes.flatMap (Store.locks σ)).Disjoint (sys.held j) := by
  intro lock wanted taken
  cases found : sys.clients[j]? with
  | none => simp [System.held, System.writesOf, found] at taken
  | some other =>
      have all := List.all_eq_true.mp free (other, j) (List.mem_zipIdx_iff_getElem?.mpr found)
      simp only [Bool.or_eq_true, beq_iff_eq, List.all_eq_true, Bool.not_eq_true',
        List.contains_eq_mem, decide_eq_false_iff_not] at all
      rw [System.held, System.writesOf_eq found] at taken
      rcases all with same | untaken
      · exact different same.symm
      · exact untaken lock taken wanted

omit [DecidableEq κ] in
theorem exclusive_of_fewer (exclusive : Exclusive sys)
    (fewer : ∀ j, after.writesOf j = sys.writesOf j ∨ after.writesOf j = []) : Exclusive after := by
  intro i j different
  rcases fewer i with first | none_
  · rcases fewer j with second | none_
    · simpa only [System.held, first, second] using exclusive i j different
    · rw [System.held, System.held, none_]
      exact List.disjoint_nil_right _
  · rw [System.held, none_]
    exact List.disjoint_nil_left _

theorem exclusive_step (step : Step body sys event after) (exclusive : Exclusive sys) :
    Exclusive after := by
  cases effect_of_step step with
  | @wrote i writes emitted free committed pending =>
      have grown : after.held i = sys.held i ++ writes.flatMap (Store.locks σ) := by
        rw [System.held, pending, Function.update_self, List.flatMap_append]
        rfl
      have apart : ∀ j, i ≠ j → (after.held i).Disjoint (after.held j) := by
        intro j different
        have kept : after.held j = sys.held j := by
          rw [System.held, pending, Function.update_of_ne (Ne.symm different)]
          rfl
        rw [grown, kept]
        exact List.disjoint_append_left.mpr
          ⟨exclusive i j different, disjoint_of_free free different⟩
      intro j k different
      by_cases first : j = i
      · exact first ▸ apart k (first ▸ different)
      by_cases second : k = i
      · exact List.disjoint_comm.mp (second ▸ apart j (Ne.symm first))
      · rw [System.held, System.held, pending, Function.update_of_ne first,
          Function.update_of_ne second]
        exact exclusive j k different
  | @published i committed pending =>
      refine exclusive_of_fewer exclusive fun j => ?_
      rw [pending]
      by_cases same : j = i
      · exact .inr (same ▸ Function.update_self _ _ _)
      · exact .inl (Function.update_of_ne same _ _)
  | other _ _ pending => exact exclusive_of_fewer exclusive pending

theorem Run.exclusive (run : Run body admits start sys) (idle : start.clients = []) :
    Exclusive sys := by
  refine run.invariant ?_ fun _ _ _ _ step held => exclusive_step step held
  intro i j _
  simp [System.held, System.writesOf, idle]

/-- What holds of every system a run reaches may be asked for before each of its events. -/
theorem Run.knowing {fact : System σ ω ε q a ℓ β → Prop} (run : Run body admits start sys)
    (known : ∀ reached, Run body admits start reached → fact reached) :
    Run body (fun sys event => admits sys event ∧ fact sys) start sys := by
  induction run with
  | refl => exact .refl
  | step before admitted fired ih => exact .step ih ⟨admitted, known _ before⟩ fired

end Isolation
