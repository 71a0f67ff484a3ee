import Vekst.Isolation.Replay

namespace Isolation

variable {σ σ' τ ω ω' ε κ q a ℓ β β' α γ : Type}

/-! ## Bodies that read the core alone -/

def Prog.Blind (core : σ → τ) : Prog σ ω ε α → Prop
  | .ret _ => True
  | .fail _ => True
  | .stmt emit next =>
      (∀ s t, core s = core t → emit s = emit t ∧ next s = next t) ∧ ∀ s, (next s).Blind core

namespace Prog

variable {core : σ → τ}

theorem blind_bind {p : Prog σ ω ε γ} {f : γ → Prog σ ω ε α} (first : p.Blind core)
    (rest : ∀ c, (f c).Blind core) : (p >>= f).Blind core := by
  induction p with
  | ret c => exact rest c
  | fail e => trivial
  | stmt emit next ih =>
      refine ⟨fun s t same => ?_, fun s => ih s (first.2 s)⟩
      obtain ⟨emits, continues⟩ := first.1 s t same
      exact ⟨emits, congrArg (· >>= f) continues⟩

theorem blind_exec {f : σ → Except ε (List ω × α)} (reads : ∀ s t, core s = core t → f s = f t) :
    (exec f).Blind core := by
  refine ⟨fun s t same => ?_, fun s => ?_⟩
  · dsimp only
    rw [reads s t same]
    exact ⟨rfl, rfl⟩
  · dsimp only
    cases f s <;> trivial

theorem blind_ofExcept (outcome : Except ε α) :
    (ofExcept outcome : Prog σ ω ε α).Blind core := by
  cases outcome <;> trivial

theorem blind_lift {view : σ' → σ} {inject : ω → ω'} {core : σ' → τ}
    (sees : ∀ s t, core s = core t → view s = view t) (p : Prog σ ω ε α) :
    (p.lift view inject).Blind core := by
  induction p with
  | ret answer => trivial
  | fail e => trivial
  | stmt emit next ih =>
      refine ⟨fun s t same => ?_, fun s => ih (view s)⟩
      dsimp only
      rw [sees s t same]
      exact ⟨rfl, rfl⟩

/-- What is known of the pending writes of a body, among the larger ones. -/
theorem wp_lift {view : σ' → σ} {inject : ω → ω'} {post : α → List ω → Prop} {p : Prog σ ω ε α}
    {writes : List ω} (proved : p.wp (fun _ _ _ => True) post writes) :
    (p.lift view inject).wp (fun _ _ _ => True)
      (fun answer larger => ∃ smaller, larger = smaller.map inject ∧ post answer smaller)
      (writes.map inject) := by
  induction p generalizing writes with
  | ret answer => exact ⟨writes, rfl, proved⟩
  | fail e => trivial
  | stmt emit next ih =>
      intro s larger emitted
      cases found : emit (view s) with
      | error e => simp [found, Except.map] at emitted
      | ok smaller =>
          obtain rfl : smaller.map inject = larger := by simpa [found, Except.map] using emitted
          rw [← List.map_append]
          exact ⟨trivial, ih _ (proved _ _ found).2⟩

theorem wp_true {guarantee : List ω → σ → List ω → Prop} (free : ∀ pending s writes,
    guarantee pending s writes) (p : Prog σ ω ε α) (writes : List ω) :
    p.wp guarantee (fun _ _ => True) writes := by
  induction p generalizing writes with
  | ret answer => trivial
  | fail e => trivial
  | stmt emit next ih => exact fun s more _ => ⟨free writes s more, ih s _⟩

end Prog

/-! ## Transactions -/

section Transactions

variable [Store σ ω ε κ] {script : Script σ τ ω ε q a β}

theorem quiet_nil (core : σ → τ) : Quiet core ([] : List ω) := fun _ => rfl

theorem tame_inTx {next : Except ε α → Job σ ω ε q a ℓ β} {p : Prog σ ω ε α} {writes : List ω}
    (blind : p.Blind script.core)
    (ends : p.wp (fun _ _ _ => True) (fun answer pending =>
      (Quiet script.core pending ∨
        script.marked pending ∧ ∃ outcome, next (.ok answer) = .done outcome) ∧
      (next (.ok answer)).Tame script []) writes)
    (failed : ∀ e, (next (.error e)).Tame script [])
    (struck : ∀ e, script.lost e → (next (.error e)).Quits script.gaveUp) :
    (inTx next p).Tame script writes := by
  induction p generalizing writes with
  | ret answer =>
      refine ⟨ends.1, fun result => ?_, fun e lost => struck e lost⟩
      cases result with
      | ok => exact ends.2
      | error e => exact failed e
  | fail e => exact failed e
  | stmt emit rest ih =>
      simp only [inTx, Job.Tame]
      refine ⟨fun s t same => ?_, fun s more emitted => ?_, fun s e _ => failed e,
        fun e lost => struck e lost⟩
      · obtain ⟨emits, continues⟩ := blind.1 s t same
        exact ⟨emits, congrArg (inTx next) continues⟩
      · exact ih s (blind.2 s) (ends s more emitted).2

/-- A transaction of one query changes nothing. -/
theorem tame_query {next : Except ε α → Job σ ω ε q a ℓ β} {f : σ → Except ε α}
    (reads : ∀ s t, script.core s = script.core t → f s = f t)
    (rest : ∀ s answer, f s = .ok answer → (next (.ok answer)).Tame script [])
    (failed : ∀ e, (next (.error e)).Tame script [])
    (struck : ∀ e, script.lost e → (next (.error e)).Quits script.gaveUp) :
    (inTx next (Prog.query f)).Tame script [] := by
  refine tame_inTx ?_ (Prog.wp_query fun s answer found =>
    ⟨trivial, .inl (quiet_nil _), rest s answer found⟩) failed struck
  refine ⟨fun s t same => ?_, fun s => ?_⟩
  · dsimp only
    rw [reads s t same]
    exact ⟨rfl, rfl⟩
  · dsimp only
    cases f s <;> trivial

/-- A transaction alone either does what its body does alone, or leaves the state. -/
theorem alone_inTx {answers : q → a → Prop} {next : Except ε α → Job σ ω ε q a ℓ β}
    {p : Prog σ ω ε α} {committed last : σ} {writes : List ω} {result : β}
    (alone : (inTx next p).Alone answers committed writes result last) :
    (∃ answer after, p.run Store.apply (visible committed writes) = .ok (answer, after) ∧
      (next (.ok answer)).Alone answers after [] result last) ∨
    ∃ e, (next (.error e)).Alone answers committed [] result last := by
  induction p generalizing writes with
  | ret answer =>
      simp only [inTx, Job.Alone] at alone
      split at alone
      · exact .inl ⟨answer, _, rfl, alone⟩
      next e _ => exact .inr ⟨e, alone⟩
  | fail e => exact .inr ⟨e, alone⟩
  | stmt emit rest ih =>
      simp only [inTx, Job.Alone] at alone
      rw [Prog.run]
      cases answer : emit (visible committed writes) with
      | ok more =>
          simp only [answer] at alone
          have later := ih _ alone
          rwa [visible_append] at later
      | error e =>
          simp only [answer] at alone
          exact .inr ⟨e, alone⟩

theorem alone_query {answers : q → a → Prop} {next : Except ε α → Job σ ω ε q a ℓ β}
    {f : σ → Except ε α} {committed last : σ} {result : β}
    (unchecked : Store.check committed ([] : List ω) = .ok ()) :
    (inTx next (Prog.query f)).Alone answers committed [] result last ↔
      (next (f committed)).Alone answers committed [] result last := by
  simp only [Prog.query, inTx, Job.Alone, visible_nil, List.nil_append]
  cases found : f committed with
  | ok answer => simp only [Except.map, inTx, Job.Alone, visible_nil, unchecked]
  | error e => simp only [Except.map]

/-! ## Outcomes reported otherwise -/

theorem alone_map {answers : q → a → Prop} {f : β → β'} {job : Job σ ω ε q a ℓ β}
    {committed last : σ} {writes : List ω} {result : β'} :
    (job.map f).Alone answers committed writes result last ↔
      ∃ outcome, f outcome = result ∧ job.Alone answers committed writes outcome last := by
  induction job generalizing committed writes with
  | done outcome =>
      constructor
      · rintro ⟨rfl, rfl⟩
        exact ⟨outcome, rfl, rfl, rfl⟩
      · rintro ⟨_, rfl, rfl, rfl⟩
        exact ⟨rfl, rfl⟩
  | jump label => simp [Job.map, Job.Alone]
  | ask request next ih =>
      simp only [Job.map, Job.Alone, ih]
      constructor
      · rintro ⟨response, answered, outcome, same, alone⟩
        exact ⟨outcome, same, response, answered, alone⟩
      · rintro ⟨outcome, same, response, answered, alone⟩
        exact ⟨response, answered, outcome, same, alone⟩
  | stmt emit next ih =>
      simp only [Job.map, Job.Alone]
      cases emit (visible committed writes) <;> exact ih _
  | commit next ih =>
      simp only [Job.map, Job.Alone]
      cases Store.check (visible committed writes) writes <;> exact ih _
  | rollback next ih => exact ih

def Script.report (script : Script σ τ ω ε q a β) (gaveUp : β' → Prop) :
    Script σ τ ω ε q a β' where
  core := script.core
  answers := script.answers
  lost := script.lost
  gaveUp := gaveUp
  marked := script.marked

omit [Store σ ω ε κ] in
theorem quits_map {f : β → β'} {gaveUp : β → Prop} {after : β' → Prop} {job : Job σ ω ε q a ℓ β}
    (reported : ∀ outcome, gaveUp outcome → after (f outcome)) (quits : job.Quits gaveUp) :
    (job.map f).Quits after := by
  induction job with
  | done outcome => exact reported outcome quits
  | rollback next ih => exact ih quits
  | _ => exact quits.elim

theorem tame_map {f : β → β'} {gaveUp : β' → Prop} {job : Job σ ω ε q a ℓ β} {writes : List ω}
    (reported : ∀ outcome, script.gaveUp outcome → gaveUp (f outcome))
    (tame : job.Tame script writes) : (job.map f).Tame (script.report gaveUp) writes := by
  induction job generalizing writes with
  | done outcome => trivial
  | jump label => exact tame.elim
  | ask request next ih =>
      exact ⟨fun response => ih _ (tame.1 response),
        fun e lost => quits_map reported (tame.2 e lost)⟩
  | stmt emit next ih =>
      obtain ⟨reads, goes, fails, struck⟩ := tame
      refine ⟨fun s t same => ?_, fun s more emitted => ih _ (goes s more emitted),
        fun s e refused => ih _ (fails s e refused), fun e lost => quits_map reported (struck e lost)⟩
      obtain ⟨emits, continues⟩ := reads s t same
      exact ⟨emits, congrArg (Job.map f) continues⟩
  | commit next ih =>
      obtain ⟨marks, goes, struck⟩ := tame
      refine ⟨?_, fun result => ih _ (goes result), fun e lost => quits_map reported (struck e lost)⟩
      rcases marks with quiet | ⟨marked, outcome, last⟩
      · exact .inl quiet
      · exact .inr ⟨marked, f outcome, congrArg (Job.map f) last⟩
  | rollback next ih => exact ih tame

theorem rehearsed_map {f : β → β'} {gaveUp : β' → Prop} {job : Job σ ω ε q a ℓ β}
    (reported : ∀ outcome, script.gaveUp outcome → gaveUp (f outcome))
    (rehearsed : Rehearsed script job) : Rehearsed (script.report gaveUp) (job.map f) := by
  obtain ⟨⟨emit, next, rfl⟩, tame⟩ := rehearsed
  exact ⟨⟨_, _, rfl⟩, tame_map reported tame⟩

end Transactions

end Isolation
