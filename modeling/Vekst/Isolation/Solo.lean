import Vekst.Isolation.View

namespace Isolation

variable {σ ω ε κ q a ℓ β α γ : Type}

/-! ## Bodies over what their transaction has written -/

/-- The body over pending writes: its answer and everything its transaction has then written. -/
def Prog.attempt [Store σ ω ε κ] : Prog σ ω ε α → σ → List ω → Except ε (α × List ω)
  | .ret answer, _, pending => .ok (answer, pending)
  | .fail e, _, _ => .error e
  | .stmt emit next, committed, pending => match emit (visible committed pending) with
      | .error e => .error e
      | .ok writes => (next (visible committed pending)).attempt committed (pending ++ writes)

section Attempts

variable [Store σ ω ε κ]

/-- What a body does by itself, with its writes applied. -/
theorem Prog.run_eq_attempt (p : Prog σ ω ε α) (committed : σ) (pending : List ω) :
    p.run Store.apply (visible committed pending) =
      (p.attempt committed pending).map fun result => (result.1, visible committed result.2) := by
  induction p generalizing pending with
  | ret answer => rfl
  | fail e => rfl
  | stmt emit next ih =>
      rw [run, attempt]
      cases made : emit (visible committed pending) with
      | error e => rfl
      | ok writes =>
          have later := ih (visible committed pending) (pending ++ writes)
          rwa [visible_append] at later

theorem Prog.run_of_attempt {p : Prog σ ω ε α} {committed : σ} {writes : List ω} {answer : α}
    (done_ : p.attempt committed [] = .ok (answer, writes)) :
    p.run Store.apply committed = .ok (answer, visible committed writes) := by
  have same := p.run_eq_attempt committed []
  rwa [done_] at same

theorem Prog.attempt_of_run {p : Prog σ ω ε α} {committed after : σ} {answer : α}
    (ran : p.run Store.apply committed = .ok (answer, after)) :
    ∃ writes, p.attempt committed [] = .ok (answer, writes) ∧ after = visible committed writes := by
  have same := p.run_eq_attempt committed []
  rw [visible_nil, ran] at same
  cases done_ : p.attempt committed [] with
  | error e =>
      rw [done_] at same
      cases same
  | ok result =>
      rw [done_] at same
      obtain ⟨rfl, rfl⟩ := Prod.mk.inj (Except.ok.inj same)
      exact ⟨result.2, rfl, rfl⟩

theorem Prog.attempt_error {p : Prog σ ω ε α} {committed : σ} {e : ε} :
    p.attempt committed [] = .error e ↔ p.run Store.apply committed = .error e := by
  have same := p.run_eq_attempt committed []
  rw [visible_nil] at same
  rw [same]
  cases p.attempt committed [] <;> simp [Except.map]

theorem Prog.attempt_of_toOption {p : Prog σ ω ε α} {committed : σ} {pending : List ω}
    {answer : α × List ω} (did : (p.attempt committed pending).toOption = some answer) :
    p.attempt committed pending = .ok answer := by
  cases made : p.attempt committed pending with
  | error e =>
      rw [made] at did
      cases did
  | ok result =>
      rw [made] at did
      rw [Option.some.inj did]

theorem Prog.attempt_query {f : σ → Except ε α} {committed : σ} {pending : List ω} :
    (Prog.query f : Prog σ ω ε α).attempt committed pending =
      (f (visible committed pending)).map fun answer => (answer, pending) := by
  rw [query, attempt]
  cases read : f (visible committed pending) with
  | error e => rfl
  | ok answer => simp [Except.map, attempt]

theorem Prog.attempt_bind {p : Prog σ ω ε γ} {f : γ → Prog σ ω ε α} {committed : σ}
    {pending : List ω} :
    (p >>= f).attempt committed pending =
      (p.attempt committed pending).bind fun result => (f result.1).attempt committed result.2 := by
  induction p generalizing pending with
  | ret c => rfl
  | fail e => rfl
  | stmt emit next ih =>
      rw [stmt_bind, attempt, attempt]
      cases emit (visible committed pending) with
      | error e => rfl
      | ok writes => exact ih _

/-- What every statement guarantees of its own writes, all of the body's writes have. -/
theorem Prog.attempt_emits {may : σ → List ω → Prop} {inv : List ω → Prop} {p : Prog σ ω ε α}
    {committed : σ} {pending writes : List ω} {answer : α} (emits : p.Emits may) (held : inv pending)
    (kept : ∀ before more, inv before → may (visible committed before) more → inv (before ++ more))
    (done_ : p.attempt committed pending = .ok (answer, writes)) : inv writes := by
  induction p generalizing pending with
  | ret answer =>
      obtain ⟨-, rfl⟩ := Prod.mk.inj (Except.ok.inj done_)
      exact held
  | fail e => cases done_
  | stmt emit next ih =>
      rw [attempt] at done_
      split at done_
      next => cases done_
      next more made =>
        obtain ⟨allowed, later⟩ := emits (visible committed pending)
        exact ih _ later (kept _ _ held (allowed more made)) done_

end Attempts

/-! ## A client alone -/

/-- What a client meets besides its own work: the answers of the other service, the failures that
may strike, and whether it may stop dead. -/
structure Surroundings (ε q a : Type) where
  answers : q → a → Prop
  lost : ε → Prop
  crashes : Prop

/-- Nothing fails, and the other service answers as it likes. -/
def Surroundings.calm : Surroundings ε q a := ⟨fun _ _ => True, fun _ => False, False⟩

/-- Anything may fail at any moment. -/
def Surroundings.any : Surroundings ε q a := ⟨fun _ _ => True, fun _ => True, True⟩

/-- How a client may end that has the database to itself, over its pending writes: the requests it
sends in order, its outcome unless it stops dead, and the state it leaves. -/
inductive Solo [Store σ ω ε κ] (body : ℓ → Job σ ω ε q a ℓ β) (around : Surroundings ε q a) :
    Job σ ω ε q a ℓ β → σ → List ω → List q → Option β → σ → Prop
  | done {outcome : β} {committed : σ} {pending : List ω} :
      Solo body around (.done outcome) committed pending [] (some outcome) committed
  | crash {job : Job σ ω ε q a ℓ β} {committed : σ} {pending : List ω} (may : around.crashes) :
      Solo body around job committed pending [] none committed
  | jump {label : ℓ} {committed last : σ} {pending : List ω} {asked : List q} {result : Option β}
      (rest : Solo body around (body label) committed pending asked result last) :
      Solo body around (.jump label) committed pending asked result last
  | answer {request : q} {response : a} {next : Except ε a → Job σ ω ε q a ℓ β} {committed last : σ}
      {pending : List ω} {asked : List q} {result : Option β} (given : around.answers request response)
      (rest : Solo body around (next (.ok response)) committed pending asked result last) :
      Solo body around (.ask request next) committed pending (request :: asked) result last
  | unanswered {request : q} {e : ε} {next : Except ε a → Job σ ω ε q a ℓ β} {committed last : σ}
      {pending : List ω} {asked : List q} {result : Option β} (lost : around.lost e)
      (rest : Solo body around (next (.error e)) committed pending asked result last) :
      Solo body around (.ask request next) committed pending (request :: asked) result last
  | exec {emit : σ → Except ε (List ω)} {next : Except ε σ → Job σ ω ε q a ℓ β} {committed last : σ}
      {pending writes : List ω} {asked : List q} {result : Option β}
      (made : emit (visible committed pending) = .ok writes)
      (rest : Solo body around (next (.ok (visible committed pending))) committed (pending ++ writes)
        asked result last) :
      Solo body around (.stmt emit next) committed pending asked result last
  | refused {emit : σ → Except ε (List ω)} {next : Except ε σ → Job σ ω ε q a ℓ β}
      {committed last : σ} {pending : List ω} {asked : List q} {result : Option β} {e : ε}
      (answer : emit (visible committed pending) = .error e ∨ around.lost e)
      (rest : Solo body around (next (.error e)) committed pending asked result last) :
      Solo body around (.stmt emit next) committed pending asked result last
  | publish {next : Except ε Unit → Job σ ω ε q a ℓ β} {committed last : σ} {pending : List ω}
      {asked : List q} {result : Option β}
      (holds : Store.check (visible committed pending) pending = .ok ())
      (rest : Solo body around (next (.ok ())) (visible committed pending) [] asked result last) :
      Solo body around (.commit next) committed pending asked result last
  | violated {next : Except ε Unit → Job σ ω ε q a ℓ β} {committed last : σ} {pending : List ω}
      {asked : List q} {result : Option β} {e : ε}
      (answer : Store.check (visible committed pending) pending = .error e ∨ around.lost e)
      (rest : Solo body around (next (.error e)) committed [] asked result last) :
      Solo body around (.commit next) committed pending asked result last
  | rollback {next : Job σ ω ε q a ℓ β} {committed last : σ} {pending : List ω} {asked : List q}
      {result : Option β} (rest : Solo body around next committed [] asked result last) :
      Solo body around (.rollback next) committed pending asked result last

section Alone

variable [Store σ ω ε κ] {body : ℓ → Job σ ω ε q a ℓ β} {around : Surroundings ε q a}
  {committed last : σ} {pending writes : List ω} {asked : List q} {result : Option β}

theorem Solo.of_done {outcome : β} (run : Solo body around (.done outcome) committed pending asked
    result last) : last = committed ∧ asked = [] ∧ (result = some outcome ∨ result = none) := by
  cases run with
  | done => exact ⟨rfl, rfl, .inl rfl⟩
  | crash may => exact ⟨rfl, rfl, .inr rfl⟩

/-- What nothing cuts off has an outcome. -/
theorem Solo.exists_outcome {job : Job σ ω ε q a ℓ β} (whole : ¬ around.crashes)
    (run : Solo body around job committed pending asked result last) :
    ∃ outcome, result = some outcome := by
  induction run with
  | done => exact ⟨_, rfl⟩
  | crash may => exact absurd may whole
  | jump _ ih => exact ih
  | answer _ _ ih => exact ih
  | unanswered _ _ ih => exact ih
  | exec _ _ ih => exact ih
  | refused _ _ ih => exact ih
  | publish _ _ ih => exact ih
  | violated _ _ ih => exact ih
  | rollback _ ih => exact ih

/-- What becomes of a transaction: it commits, it fails and leaves the state, or it is cut off. -/
inductive Ends (body : ℓ → Job σ ω ε q a ℓ β) (around : Surroundings ε q a)
    (next : Except ε α → Job σ ω ε q a ℓ β) (p : Prog σ ω ε α) (committed : σ) (pending : List ω)
    (asked : List q) (result : Option β) (last : σ) : Prop
  | committed {answer : α} {writes : List ω} (did : p.attempt committed pending = .ok (answer, writes))
      (holds : Store.check (visible committed writes) writes = .ok ())
      (rest : Solo body around (next (.ok answer)) (visible committed writes) [] asked result last)
  | failed {e : ε} (reason : p.attempt committed pending = .error e ∨ around.lost e ∨
        ∃ answer writes, p.attempt committed pending = .ok (answer, writes) ∧
          Store.check (visible committed writes) writes = .error e)
      (rest : Solo body around (next (.error e)) committed [] asked result last)
  | stopped (may : around.crashes) (nothing : asked = [] ∧ result = none ∧ last = committed)

theorem solo_inTx {next : Except ε α → Job σ ω ε q a ℓ β} {p : Prog σ ω ε α}
    (run : Solo body around (inTx next p) committed pending asked result last) :
    Ends body around next p committed pending asked result last := by
  induction p generalizing pending with
  | ret answer =>
      cases run with
      | crash may => exact .stopped may ⟨rfl, rfl, rfl⟩
      | publish holds rest => exact .committed rfl holds rest
      | violated refusal rest =>
          refine .failed ?_ rest
          rcases refusal with fails | lost
          · exact .inr (.inr ⟨answer, pending, rfl, fails⟩)
          · exact .inr (.inl lost)
  | fail e =>
      cases run with
      | crash may => exact .stopped may ⟨rfl, rfl, rfl⟩
      | rollback rest => exact .failed (.inl rfl) rest
  | stmt emit rest ih =>
      rw [inTx] at run
      cases run with
      | crash may => exact .stopped may ⟨rfl, rfl, rfl⟩
      | refused answer rolled =>
          cases rolled with
          | crash may => exact .stopped may ⟨rfl, rfl, rfl⟩
          | rollback later =>
              refine .failed ?_ later
              rcases answer with refused | lost
              · exact .inl (by rw [Prog.attempt, refused])
              · exact .inr (.inl lost)
      | @exec _ _ _ _ _ more _ _ made later =>
          have same : (Prog.stmt emit rest).attempt committed pending =
              (rest (visible committed pending)).attempt committed (pending ++ more) := by
            rw [Prog.attempt, made]
          cases ih _ later with
          | committed did holds rest => exact .committed (same.trans did) holds rest
          | failed reason rest =>
              refine .failed ?_ rest
              rw [same]
              exact reason
          | stopped may nothing => exact .stopped may nothing

theorem solo_inTx_of_ok {next : Except ε α → Job σ ω ε q a ℓ β} {p : Prog σ ω ε α} {answer : α}
    (did : p.attempt committed pending = .ok (answer, writes))
    (holds : Store.check (visible committed writes) writes = .ok ())
    (rest : Solo body around (next (.ok answer)) (visible committed writes) [] asked result last) :
    Solo body around (inTx next p) committed pending asked result last := by
  induction p generalizing pending with
  | ret answer =>
      obtain ⟨rfl, rfl⟩ := Prod.mk.inj (Except.ok.inj did)
      exact .publish holds rest
  | fail e => cases did
  | stmt emit rest ih =>
      rw [Prog.attempt] at did
      split at did
      next => cases did
      next more made =>
        rw [inTx]
        apply Solo.exec made
        exact ih _ did

theorem solo_inTx_of_error {next : Except ε α → Job σ ω ε q a ℓ β} {p : Prog σ ω ε α} {e : ε}
    (refused : p.attempt committed pending = .error e)
    (rest : Solo body around (next (.error e)) committed [] asked result last) :
    Solo body around (inTx next p) committed pending asked result last := by
  induction p generalizing pending with
  | ret answer => cases refused
  | fail other =>
      obtain rfl := Except.error.inj refused
      exact .rollback rest
  | stmt emit later ih =>
      rw [Prog.attempt] at refused
      split at refused
      next other made =>
        obtain rfl := Except.error.inj refused
        rw [inTx]
        apply Solo.refused (.inl made)
        exact .rollback rest
      next more made =>
        rw [inTx]
        apply Solo.exec made
        exact ih _ refused

/-- A transaction that nothing cuts off and whose checks pass ends as its body runs. -/
theorem solo_inTx_iff {next : Except ε α → Job σ ω ε q a ℓ β} {p : Prog σ ω ε α}
    (whole : ¬ around.crashes) (safe : ∀ e, ¬ around.lost e)
    (passes : ∀ answer writes, p.attempt committed [] = .ok (answer, writes) →
      Store.check (visible committed writes) writes = .ok ()) :
    Solo body around (inTx next p) committed [] asked result last ↔
      match p.run Store.apply committed with
      | .ok (answer, after) => Solo body around (next (.ok answer)) after [] asked result last
      | .error e => Solo body around (next (.error e)) committed [] asked result last := by
  constructor
  · intro run
    cases solo_inTx run with
    | committed did holds rest =>
        rw [Prog.run_of_attempt did]
        exact rest
    | failed reason rest =>
        rcases reason with refused | lost | ⟨answer, writes, did, fails⟩
        · rw [Prog.attempt_error.mp refused]
          exact rest
        · exact absurd lost (safe _)
        · rw [passes _ _ did] at fails
          cases fails
    | stopped may nothing => exact absurd may whole
  · intro rest
    cases ran : p.run Store.apply committed with
    | ok result =>
        obtain ⟨answer, after⟩ := result
        rw [ran] at rest
        obtain ⟨writes, did, rfl⟩ := Prog.attempt_of_run ran
        exact solo_inTx_of_ok did (passes _ _ did) rest
    | error e =>
        rw [ran] at rest
        exact solo_inTx_of_error (Prog.attempt_error.mpr ran) rest

end Alone

/-! ## A run that is computed -/

/-- What happens at a step of a client alone: nothing beside it, a failure, or the end. -/
inductive Choice (ε : Type) where
  | go
  | fault (e : ε)
  | crash
deriving DecidableEq, Repr

/-- The run that the choices lead to, where a service answers by a function. -/
def follow [Store σ ω ε κ] (body : ℓ → Job σ ω ε q a ℓ β) (reply : q → Option a) :
    List (Choice ε) → Job σ ω ε q a ℓ β → σ → List ω → Option (List q × Option β × σ)
  | [], .done outcome, committed, _ => some ([], some outcome, committed)
  | .crash :: _, _, committed, _ => some ([], none, committed)
  | .go :: rest, .jump label, committed, pending =>
      follow body reply rest (body label) committed pending
  | .go :: rest, .ask request next, committed, pending => (reply request).bind fun response =>
      (follow body reply rest (next (.ok response)) committed pending).map fun ended =>
        (request :: ended.1, ended.2)
  | .fault e :: rest, .ask request next, committed, pending =>
      (follow body reply rest (next (.error e)) committed pending).map fun ended =>
        (request :: ended.1, ended.2)
  | .go :: rest, .stmt emit next, committed, pending => match emit (visible committed pending) with
      | .ok writes => follow body reply rest (next (.ok (visible committed pending))) committed
          (pending ++ writes)
      | .error e => follow body reply rest (next (.error e)) committed pending
  | .fault e :: rest, .stmt _ next, committed, pending =>
      follow body reply rest (next (.error e)) committed pending
  | .go :: rest, .commit next, committed, pending =>
      match Store.check (visible committed pending) pending with
      | .ok () => follow body reply rest (next (.ok ())) (visible committed pending) []
      | .error e => follow body reply rest (next (.error e)) committed []
  | .fault e :: rest, .commit next, committed, _ =>
      follow body reply rest (next (.error e)) committed []
  | .go :: rest, .rollback next, committed, _ => follow body reply rest next committed []
  | _, _, _, _ => none

/-- A choice that the surroundings leave. -/
def Surroundings.Leaves (around : Surroundings ε q a) : Choice ε → Prop
  | .go => True
  | .fault e => around.lost e
  | .crash => around.crashes

theorem Solo.of_follow [Store σ ω ε κ] {body : ℓ → Job σ ω ε q a ℓ β}
    {around : Surroundings ε q a} {reply : q → Option a} {choices : List (Choice ε)}
    {job : Job σ ω ε q a ℓ β} {committed last : σ} {pending : List ω} {asked : List q}
    {result : Option β} (given : ∀ request response, reply request = some response →
      around.answers request response) (leaves : ∀ choice ∈ choices, around.Leaves choice)
    (followed : follow body reply choices job committed pending = some (asked, result, last)) :
    Solo body around job committed pending asked result last := by
  fun_induction follow body reply choices job committed pending generalizing asked with
  | case1 outcome committed pending =>
      obtain ⟨rfl, rfl, rfl⟩ : [] = asked ∧ some outcome = result ∧ committed = last := by
        simpa using followed
      exact .done
  | case2 rest job committed pending =>
      obtain ⟨rfl, rfl, rfl⟩ : [] = asked ∧ none = result ∧ committed = last := by
        simpa using followed
      exact .crash (leaves _ List.mem_cons_self)
  | case3 rest label committed pending ih =>
      exact .jump (ih (List.forall_mem_cons.mp leaves).2 followed)
  | case4 rest request next committed pending ih =>
      obtain ⟨response, replied, ended⟩ := Option.bind_eq_some_iff.mp followed
      obtain ⟨⟨more, after⟩, later, same⟩ := Option.map_eq_some_iff.mp ended
      obtain ⟨rfl, rfl⟩ := Prod.mk.inj same
      exact .answer (given _ _ replied) (ih _ (List.forall_mem_cons.mp leaves).2 later)
  | case5 e rest request next committed pending ih =>
      obtain ⟨⟨more, after⟩, later, same⟩ := Option.map_eq_some_iff.mp followed
      obtain ⟨rfl, rfl⟩ := Prod.mk.inj same
      obtain ⟨lost, others⟩ := List.forall_mem_cons.mp leaves
      exact .unanswered lost (ih others later)
  | case6 rest emit next committed pending writes made ih =>
      exact .exec made (ih (List.forall_mem_cons.mp leaves).2 followed)
  | case7 rest emit next committed pending e made ih =>
      exact .refused (.inl made) (ih (List.forall_mem_cons.mp leaves).2 followed)
  | case8 e rest emit next committed pending ih =>
      obtain ⟨lost, others⟩ := List.forall_mem_cons.mp leaves
      exact .refused (.inr lost) (ih others followed)
  | case9 rest next committed pending holds ih =>
      exact .publish holds (ih (List.forall_mem_cons.mp leaves).2 followed)
  | case10 rest next committed pending e fails ih =>
      exact .violated (.inl fails) (ih (List.forall_mem_cons.mp leaves).2 followed)
  | case11 e rest next committed pending ih =>
      obtain ⟨lost, others⟩ := List.forall_mem_cons.mp leaves
      exact .violated (.inr lost) (ih others followed)
  | case12 rest next committed pending ih =>
      exact .rollback (ih (List.forall_mem_cons.mp leaves).2 followed)
  | case13 => cases followed

/-! ## What a client alone does to the state -/

/-- Commits of disciplined transactions take the state along a relation: what is known of pending
writes is kept by every write the discipline allows, and is enough at the commit. -/
structure Discipline.Drives [Store σ ω ε κ] (rules : Discipline σ ω a ℓ) (holds : σ → List ω → Prop)
    (moves : σ → σ → Prop) : Prop where
  refl : ∀ s, moves s s
  trans : ∀ s mid last, moves s mid → moves mid last → moves s last
  opened : ∀ s, holds s []
  written : ∀ s pending more, holds s pending → rules.guarantee pending (visible s pending) more →
    holds s (pending ++ more)
  published : ∀ s pending, holds s pending → Store.check (visible s pending) pending = .ok () →
    moves s (visible s pending)

theorem Solo.moves [Store σ ω ε κ] {body : ℓ → Job σ ω ε q a ℓ β} {around : Surroundings ε q a}
    {rules : Discipline σ ω a ℓ} {holds : σ → List ω → Prop} {moves : σ → σ → Prop}
    (drives : rules.Drives holds moves)
    (bodies : ∀ label, rules.allowed label → (body label).Keeps rules [])
    (answered : ∀ request response, around.answers request response → rules.answered response)
    {job : Job σ ω ε q a ℓ β} {committed last : σ} {pending : List ω} {asked : List q}
    {result : Option β} (run : Solo body around job committed pending asked result last)
    (keeps : job.Keeps rules pending) (held : holds committed pending) : moves committed last := by
  induction run with
  | done => exact drives.refl _
  | crash may => exact drives.refl _
  | jump rest ih =>
      obtain ⟨allowed, rfl⟩ := keeps
      exact ih (bodies _ allowed) held
  | answer given rest ih => exact ih (keeps.1 _ (answered _ _ given)) held
  | unanswered lost rest ih => exact ih (keeps.2 _) held
  | exec made rest ih =>
      obtain ⟨guaranteed, later⟩ := keeps.1 _ _ made
      exact ih later (drives.written _ _ _ held guaranteed)
  | refused answer rest ih => exact ih (keeps.2 _) held
  | publish passes rest ih =>
      exact drives.trans _ _ _ (drives.published _ _ held passes) (ih (keeps _) (drives.opened _))
  | violated answer rest ih => exact ih (keeps _) (drives.opened _)
  | rollback rest ih => exact ih keeps (drives.opened _)

/-! ## A client alone in the system -/

section System

variable [Store σ ω ε κ] [DecidableEq κ] {body : ℓ → Job σ ω ε q a ℓ β}
  {around : Surroundings ε q a} {committed last : σ} {pending : List ω} {asked : List q}
  {result : Option β} {job : Job σ ω ε q a ℓ β}

/-- The system of one client. -/
def System.only (committed : σ) (client : Client σ ω ε q a ℓ β) : System σ ω ε q a ℓ β :=
  ⟨committed, [client]⟩

theorem free_only (client : Client σ ω ε q a ℓ β) (writes : List ω) :
    (System.only committed client).free 0 writes = true := rfl

theorem Run.one {sys after : System σ ω ε q a ℓ β} (event : Event ε a ℓ)
    (fired : fire body sys event = some after) : Run body (fun _ _ => True) sys after :=
  .step .refl trivial fired

/-- What a client does alone, it does in a system of which it is the only client. -/
theorem Run.of_solo (run : Solo body around job committed pending asked result last)
    (before : List q) : ∃ client : Client σ ω ε q a ℓ β,
      Run body (fun _ _ => True) (.only committed ⟨some job, pending, false, before⟩)
        (.only last client) ∧
      client.job = result.map .done ∧ client.asked = before ++ asked := by
  induction run generalizing before with
  | done => exact ⟨_, .refl, rfl, (List.append_nil _).symm⟩
  | @crash job committed pending may =>
      exact ⟨⟨none, [], false, before⟩, Run.one (.crash 0) rfl, rfl,
        (List.append_nil _).symm⟩
  | jump rest ih =>
      obtain ⟨client, later, ends⟩ := ih before
      exact ⟨client, (Run.one (.jump 0) rfl).trans later, ends⟩
  | @answer request response next _ _ _ _ _ given rest ih =>
      obtain ⟨client, later, ended, sent⟩ := ih (before ++ [request])
      exact ⟨client, (Run.one (.answer 0 response) rfl).trans later, ended,
        sent.trans (List.append_assoc _ _ _)⟩
  | @unanswered request e next _ _ _ _ _ lost rest ih =>
      obtain ⟨client, later, ended, sent⟩ := ih (before ++ [request])
      exact ⟨client, (Run.one (.fault 0 e) rfl).trans later, ended,
        sent.trans (List.append_assoc _ _ _)⟩
  | exec made rest ih =>
      obtain ⟨client, later, ends⟩ := ih before
      refine ⟨client, (Run.one (.exec 0) ?_).trans later, ends⟩
      simp [fire, System.only, System.put, System.free, made]
  | @refused emit next committed _ pending _ _ e answer rest ih =>
      obtain ⟨client, later, ends⟩ := ih before
      rcases answer with made | lost
      · refine ⟨client, (Run.one (.exec 0) ?_).trans later, ends⟩
        simp [fire, System.only, System.put, made]
      · exact ⟨client, (Run.one (.fault 0 e) rfl).trans later, ends⟩
  | @publish next committed _ pending _ _ holds rest ih =>
      obtain ⟨client, later, ends⟩ := ih before
      have published : fire body (.only committed ⟨some (.commit next), pending, true, before⟩)
          (.publish 0 : Event ε a ℓ) = some (.only (visible committed pending)
            ⟨some (next (.ok ())), [], false, before⟩) := rfl
      refine ⟨client, (Run.one (.check 0) ?_).trans ((Run.one _ published).trans later), ends⟩
      simp [fire, System.only, System.put, holds]
  | @violated next committed _ pending _ _ e answer rest ih =>
      obtain ⟨client, later, ends⟩ := ih before
      rcases answer with fails | lost
      · refine ⟨client, (Run.one (.check 0) ?_).trans later, ends⟩
        simp [fire, System.only, System.put, fails]
      · exact ⟨client, (Run.one (.fault 0 e) rfl).trans later, ends⟩
  | rollback rest ih =>
      obtain ⟨client, later, ends⟩ := ih before
      exact ⟨client, (Run.one (.rollback 0) rfl).trans later, ends⟩

end System

end Isolation
