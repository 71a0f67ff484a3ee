import Mathlib.Data.List.Basic
import Mathlib.Data.List.Induction

namespace Relational

/-! ## Two systems fed the same events -/

section
variable {ε σ τ : Type*} {before : ε → ε → Prop} {R : List ε → σ → τ → Prop}
  {fireₛ : σ → ε → σ} {fireₜ : τ → ε → τ}

/-- Only orders of events in which what came earlier allows what comes later are promised. -/
theorem foldl_simulates
    (keeps : ∀ past event s t, R past s t → (∀ earlier ∈ past, before earlier event) →
      R (past ++ [event]) (fireₛ s event) (fireₜ t event)) :
    ∀ {past events : List ε} {s t}, (past ++ events).Pairwise before → R past s t →
      R (past ++ events) (events.foldl fireₛ s) (events.foldl fireₜ t)
  | past, [], _, _, _, related => by simpa using related
  | past, event :: rest, s, t, ordered, related => by
      have next := keeps past event s t related fun earlier member =>
        (List.pairwise_append.mp ordered).2.2 earlier member event List.mem_cons_self
      rw [List.append_cons] at ordered ⊢
      exact foldl_simulates keeps ordered next

end

/-! ## Where something that holds came from -/

section
variable {ε σ : Type*} {step : σ → ε → σ} {start : σ} {held : σ → Prop} {causes : σ → ε → Prop}
  {grown : σ → σ → Prop}

/-- What does not hold at first, and holds after a step only where the step causes it or it held
before, has held since a step that caused it. -/
theorem foldl_since (trans : ∀ s t u, grown s t → grown t u → grown s u)
    (keeps : ∀ s e, held (step s e) → (causes s e ∨ held s) ∧ grown s (step s e))
    (absent : ¬ held start) {events : List ε} (now : held (events.foldl step start)) :
    ∃ before e since, events = before ++ e :: since ∧ causes (before.foldl step start) e ∧
      ∀ passed, passed <+: since → held ((before ++ e :: passed).foldl step start) ∧
        grown (before.foldl step start) ((before ++ e :: passed).foldl step start) := by
  induction events using List.reverseRecOn with
  | nil => exact absurd now absent
  | append_singleton events last ih =>
      rw [List.foldl_concat] at now
      obtain ⟨caused | before_, more⟩ := keeps _ last now
      · refine ⟨events, last, [], rfl, caused, fun passed early => ?_⟩
        rw [List.prefix_nil.mp early, List.foldl_concat]
        exact ⟨now, more⟩
      · obtain ⟨before, e, since, rfl, caused, kept⟩ := ih before_
        refine ⟨before, e, since ++ [last], by simp, caused, fun passed early => ?_⟩
        rcases List.prefix_concat_iff.mp early with rfl | earlier
        · have held_ := (kept since List.prefix_rfl).2
          rw [← List.cons_append, ← List.append_assoc, List.foldl_concat]
          exact ⟨now, trans _ _ _ held_ more⟩
        · exact kept passed earlier

end

end Relational
