import Vekst.Identity.Accounts
import Vekst.Isolation.Locks
import Vekst.Isolation.Moves
import Vekst.Proof.Identity.SignIn
import Vekst.Proof.Ledger.Emitted

namespace Vekst.Identity
open Isolation Ledger

variable {s : Service} {d : Database} {call : Resolution}

/-! ## A sign-in by itself -/

theorem insertUser_ok {row : UserRow} {after : Database} (inserted : insertUser s row d = .ok after) :
    after = visible d [.insertUser row] := by
  simp only [insertUser, require_bind_ok] at inserted
  exact (Except.ok.inj inserted.2.2.2.2).symm

theorem insertIdentity_ok {row : IdentityRow} {after : Database}
    (inserted : insertIdentity row d = .ok after) :
    findIdentity d row.provider row.subject = none ∧
      after = visible d [.insertIdentity row] := by
  simp only [insertIdentity, require_bind_ok] at inserted
  exact ⟨by simpa using inserted.1, (Except.ok.inj inserted.2).symm⟩

theorem run_provision (s : Service) (call : Resolution) (d : Database) :
    (provision s call).run Store.apply d = do
      let d ← insertUser s (newUser s call) d
      let d ← insertIdentity (newIdentity call) d
      return (call.newID, d) := by
  rw [provision, bindIdentity, Prog.run_bind, Prog.run_exec]
  cases inserted : insertUser s (newUser s call) d with
  | error e => rfl
  | ok mid =>
      obtain rfl := insertUser_ok inserted
      simp only [Except.map, Except.bind, Prog.run_exec, ← visible.eq_def, bind]
      cases bound : insertIdentity (newIdentity call) (visible d [.insertUser (newUser s call)]) with
      | error e => rfl
      | ok last =>
          obtain ⟨-, rfl⟩ := insertIdentity_ok bound
          rfl

/-- The code a failed transaction answers with. -/
def refusal (e : Failure) : String :=
  if e = .constraint "users_email_key" then Code.emailTaken else Code.internal

/-- Statement by statement and undisturbed, the transaction is the one of the callback. -/
theorem run_resolveAccount (s : Service) (call : Resolution) (d : Database) :
    resolveOrProvision s call.newID call.claims d =
      ((resolveAccount s call).run Store.apply d).mapError refusal := by
  rw [resolveAccount, Prog.run_bind, Prog.run_query]
  unfold resolveOrProvision
  simp only [Except.map, Except.bind]
  cases findIdentity d providerGoogle call.claims.subject with
  | some identity => rfl
  | none =>
      simp only [run_provision, newUser, newIdentity]
      split
      next result made =>
        rw [made]
        rfl
      next made =>
        rw [made]
        exact congrArg Except.error (if_pos rfl).symm
      next e other made =>
        rw [made]
        exact congrArg Except.error (if_neg other).symm

/-! ## What is committed -/

/-- No subject is bound twice. -/
def Database.Once (d : Database) : Prop :=
  ∀ x ∈ d.identities, ∀ y ∈ d.identities, x.provider = y.provider → x.subject = y.subject → x = y

/-- The identity of the claims has the account. -/
def BoundTo (claims : IDClaims) (userID : UUID) (d : Database) : Prop :=
  ⟨providerGoogle, claims.subject, userID⟩ ∈ d.identities

/-- The account has the address of the claims, which need not have any. -/
def HasAddress (s : Service) (claims : IDClaims) (u : UserRow) : Prop :=
  u.email ≠ none ∧ u.email = text (s.toLower claims.email)

/-- The address of the claims is that of an account another subject owns. -/
def Taken (s : Service) (claims : IDClaims) (d : Database) : Prop :=
  ∃ u ∈ d.users, HasAddress s claims u ∧
    ∃ x ∈ d.identities, x.userID = u.id ∧ (x.provider, x.subject) ≠ (providerGoogle, claims.subject)

/-- A sign-in that succeeds resolves to its subject's account, and one refused for its address
names that of another subject's. -/
def Rightly (s : Service) (d : Database) (answer : Resolved) : Prop :=
  (∀ userID, answer.result = .ok userID → BoundTo answer.claims userID d) ∧
    (answer.result = .error Code.emailTaken → Taken s answer.claims d)

/-- Rows are only ever added. -/
structure Follows (d later : Database) : Prop where
  users : ∀ u ∈ d.users, u ∈ later.users
  identities : ∀ x ∈ d.identities, x ∈ later.identities

variable {later : Database}

theorem follows_refl : Follows d d := ⟨fun _ known => known, fun _ known => known⟩

theorem Follows.trans {last : Database} (first : Follows d later) (second : Follows later last) :
    Follows d last :=
  ⟨fun u known => second.users u (first.users u known),
    fun x known => second.identities x (first.identities x known)⟩

theorem Rightly.follows {answer : Resolved} (rightly : Rightly s d answer)
    (follows : Follows d later) : Rightly s later answer := by
  refine ⟨fun userID succeeded => follows.identities _ (rightly.1 userID succeeded), fun refused => ?_⟩
  obtain ⟨u, known, address, x, bound, own, other⟩ := rightly.2 refused
  exact ⟨u, follows.users u known, address, x, follows.identities x bound, own, other⟩

theorem findIdentity_eq_none {provider subject : String} :
    findIdentity d provider subject = none ↔
      ∀ x ∈ d.identities, x.provider = provider → x.subject ≠ subject := by
  simp [findIdentity]

/-- The rows of a sign-in that provisions. -/
theorem visible_provisioned (d : Database) (s : Service) (call : Resolution) :
    visible d [.insertUser (newUser s call), .insertIdentity (newIdentity call)] =
      { d with users := d.users ++ [newUser s call],
               identities := d.identities ++ [newIdentity call] } := rfl

theorem follows_provisioned : Follows d
    (visible d [.insertUser (newUser s call), .insertIdentity (newIdentity call)]) := by
  rw [visible_provisioned]
  exact ⟨fun u known => List.mem_append_left _ known, fun x known => List.mem_append_left _ known⟩

theorem once_provisioned (once : d.Once)
    (free : findIdentity d providerGoogle call.claims.subject = none) :
    (visible d [.insertUser (newUser s call), .insertIdentity (newIdentity call)]).Once := by
  have unbound := findIdentity_eq_none.mp free
  rw [visible_provisioned]
  intro x left y right provider subject
  rcases List.mem_append.mp left with old | new
  · rcases List.mem_append.mp right with known | fresh
    · exact once x old y known provider subject
    · obtain rfl := List.mem_singleton.mp fresh
      exact absurd subject (unbound x old provider)
  · obtain rfl := List.mem_singleton.mp new
    rcases List.mem_append.mp right with known | fresh
    · exact absurd subject.symm (unbound y known provider.symm)
    · exact (List.mem_singleton.mp fresh).symm

/-! ## How far a sign-in has come -/

/-- The user is inserted but for its address: its lower case and its identifier are fine. -/
def Insertable (s : Service) (call : Resolution) (d : Database) : Prop :=
  ((newUser s call).email.all fun email => s.lower email = email) = true ∧
    d.users.all (·.id ≠ call.newID) = true

/-- No user is inserted whose address is that of an account of its own subject alone. -/
def Unowned (s : Service) (sys : AccountSystem) : AccountEvent → Prop
  | .exec i => ∀ client call, sys.clients[i]? = some client →
      client.job = some (inTx (resolved call.claims) (provision s call)) →
      Insertable s call sys.committed →
      ¬ ∃ u ∈ sys.committed.users, HasAddress s call.claims u ∧
        ∀ x ∈ sys.committed.identities, x.userID = u.id →
          (x.provider, x.subject) = (providerGoogle, call.claims.subject)
  | .fault _ e => e ≠ .constraint "users_email_key"
  | _ => True

/-- How far a sign-in has come, over what is committed. -/
inductive Resolving (s : Service) (d : Database) (client : AccountClient) : Prop
  | waiting (call : Resolution) (head : client.job = some (.jump call)) (empty : client.writes = [])
  | looking (call : Resolution) (head : client.job = some (accountBody s call))
      (empty : client.writes = [])
  | known (call : Resolution) (userID : UUID)
      (head : client.job = some (inTx (resolved call.claims) (.ret userID)))
      (empty : client.writes = []) (bound : BoundTo call.claims userID d)
  | inserting (call : Resolution)
      (head : client.job = some (inTx (resolved call.claims) (provision s call)))
      (empty : client.writes = [])
  | binding (call : Resolution)
      (head : client.job = some (inTx (resolved call.claims) (bindIdentity call)))
      (pending : client.writes = [.insertUser (newUser s call)])
  | committing (call : Resolution)
      (head : client.job = some (inTx (resolved call.claims) (.ret call.newID)))
      (pending : client.writes =
        [.insertUser (newUser s call), .insertIdentity (newIdentity call)])
      (free : findIdentity d providerGoogle call.claims.subject = none)
  | failing (answer : Resolved) (head : client.job = some (.rollback (.done answer)))
      (rightly : Rightly s d answer)
  | answered (answer : Resolved) (head : client.job = some (.done answer))
      (rightly : Rightly s d answer)
  | crashed (gone : client.job = none)

/-- What others commit leaves a sign-in where it is, unless it binds its subject. -/
theorem Resolving.follows {client : AccountClient} (resolving : Resolving s d client)
    (follows : Follows d later)
    (free : ∀ call, client.writes =
        [.insertUser (newUser s call), .insertIdentity (newIdentity call)] →
      findIdentity d providerGoogle call.claims.subject = none →
      findIdentity later providerGoogle call.claims.subject = none) :
    Resolving s later client := by
  cases resolving with
  | waiting call head empty => exact .waiting call head empty
  | looking call head empty => exact .looking call head empty
  | known call userID head empty bound =>
      exact .known call userID head empty (follows.identities _ bound)
  | inserting call head empty => exact .inserting call head empty
  | binding call head pending => exact .binding call head pending
  | committing call head pending unbound =>
      exact .committing call head pending (free call pending unbound)
  | failing answer head rightly => exact .failing answer head (rightly.follows follows)
  | answered answer head rightly => exact .answered answer head (rightly.follows follows)
  | crashed gone => exact .crashed gone

/-! ## One event of a sign-in -/

theorem insertUser_email_taken {row : UserRow}
    (refused : insertUser s row d = .error (.constraint "users_email_key")) :
    (row.email.all fun email => s.lower email = email) = true ∧
      d.users.all (·.id ≠ row.id) = true ∧
      ∃ u ∈ d.users, u.email ≠ none ∧ u.email = row.email := by
  simp only [insertUser, bind_error, require_error] at refused
  rcases refused with ⟨-, other⟩ | ⟨_, lower, ⟨-, other⟩ | ⟨_, -, ⟨-, other⟩ | ⟨_, unused, ⟨taken, -⟩ |
    ⟨_, -, returned⟩⟩⟩⟩
  · simp at other
  · simp at other
  · simp at other
  · refine ⟨require_ok.mp lower, require_ok.mp unused, ?_⟩
    obtain ⟨u, known, met⟩ := List.all_eq_false.mp taken
    exact ⟨u, known, by simpa using met⟩
  · cases returned

theorem insertIdentity_error {row : IdentityRow} {e : Failure}
    (refused : insertIdentity row d = .error e) : e = .constraint "user_identities_pkey" := by
  simp only [insertIdentity, bind_error, require_error] at refused
  rcases refused with ⟨-, rfl⟩ | ⟨_, -, returned⟩
  · rfl
  · cases returned

/-- A failed transaction is answered by its code. -/
theorem resolved_error {claims : IDClaims} {e : Failure}
    (taken : e = .constraint "users_email_key" → Taken s claims d) :
    ∃ answer, resolved claims (.error e) = .done answer ∧ Rightly s d answer := by
  refine ⟨_, rfl, fun userID succeeded => ?_, fun refused => ?_⟩
  · simp at succeeded
  · by_cases same : e = .constraint "users_email_key"
    · exact taken same
    · simp [same, Code.emailTaken, Code.internal] at refused

theorem resolved_ok {claims : IDClaims} {userID : UUID} (bound : BoundTo claims userID d) :
    ∃ answer, resolved claims (.ok userID) = .done answer ∧ Rightly s d answer := by
  refine ⟨_, rfl, fun other succeeded => ?_, fun refused => ?_⟩
  · obtain rfl := Except.ok.inj succeeded
    exact bound
  · cases refused

theorem failing_of_error {claims : IDClaims} {e : Failure} {client : AccountClient}
    (head : client.job = some (.rollback (resolved claims (.error e))))
    (taken : e = .constraint "users_email_key" → Taken s claims d) : Resolving s d client := by
  obtain ⟨answer, same, rightly⟩ := resolved_error taken
  exact .failing answer (same ▸ head) rightly

theorem answered_of_error {claims : IDClaims} {e : Failure} {client : AccountClient}
    (head : client.job = some (resolved claims (.error e)))
    (taken : e = .constraint "users_email_key" → Taken s claims d) : Resolving s d client := by
  obtain ⟨answer, same, rightly⟩ := resolved_error taken
  exact .answered answer (same ▸ head) rightly

theorem answered_of_ok {claims : IDClaims} {userID : UUID} {client : AccountClient}
    (head : client.job = some (resolved claims (.ok userID))) (bound : BoundTo claims userID d) :
    Resolving s d client := by
  obtain ⟨answer, same, rightly⟩ := @resolved_ok s _ _ _ bound
  exact .answered answer (same ▸ head) rightly

variable {sys after : AccountSystem} {event : AccountEvent} {i : Nat} {client moved : AccountClient}

/-- A user insert refused for its address meets an account that is not its own subject's alone. -/
theorem taken_of_unowned (found : sys.clients[i]? = some client)
    (head : client.job = some (inTx (resolved call.claims) (provision s call)))
    (admitted : Unowned s sys (.exec i))
    (refused : insertUser s (newUser s call) sys.committed = .error (.constraint "users_email_key")) :
    Taken s call.claims sys.committed := by
  obtain ⟨lower, unused, u, known, addressed, same⟩ := insertUser_email_taken refused
  have foreign := admitted client call found head ⟨lower, unused⟩
  simp only [not_exists, not_and, not_forall] at foreign
  obtain ⟨x, bound, own, other⟩ := foreign u known ⟨addressed, same⟩
  exact ⟨u, known, ⟨addressed, same⟩, x, bound, own, other⟩

/-- Only a sign-in that provisions commits anything: its user and its identity. -/
theorem published_of_moves {published : Database}
    (moves : Moves (accountBody s) d i client event moved published)
    (resolving : Resolving s d client) :
    published = d ∨ ∃ call, client.writes =
        [.insertUser (newUser s call), .insertIdentity (newIdentity call)] ∧
      findIdentity d providerGoogle call.claims.subject = none ∧
      published = visible d client.writes := by
  rcases moves.committed_eq with same | ⟨-, seen⟩
  · exact .inl same
  · cases resolving with
    | known call userID head empty bound =>
        rw [empty] at seen
        exact .inl seen
    | committing call head pending free => exact .inr ⟨call, pending, free, seen⟩
    | waiting call head empty =>
        exact .inl (moves.committed_of fun next commits => by cases head.symm.trans commits)
    | looking call head empty => exact .inl (moves.committed_of_stmt head)
    | inserting call head empty => exact .inl (moves.committed_of_stmt head)
    | binding call head pending => exact .inl (moves.committed_of_stmt head)
    | failing answer head rightly =>
        exact .inl (moves.committed_of fun next commits => by cases head.symm.trans commits)
    | answered answer head rightly =>
        exact .inl (moves.committed_of fun next commits => by cases head.symm.trans commits)
    | crashed gone =>
        exact .inl (moves.committed_of fun next commits => by cases gone.symm.trans commits)

theorem known_or_inserting (call : Resolution) (empty : client.writes = [])
    (head : client.job = some (inTx (resolved call.claims)
      (match findIdentity d providerGoogle call.claims.subject with
        | some identity => .ret identity.userID
        | none => provision s call))) : Resolving s d client := by
  cases looked : findIdentity d providerGoogle call.claims.subject with
  | none =>
      rw [looked] at head
      exact .inserting call head empty
  | some identity =>
      rw [looked] at head
      have known := List.mem_of_find?_eq_some looked
      obtain ⟨provider, subject⟩ : identity.provider = providerGoogle ∧
          identity.subject = call.claims.subject := by simpa using List.find?_some looked
      refine .known call identity.userID head empty ?_
      rw [BoundTo, ← provider, ← subject]
      exact known

/-- What a sign-in's own event makes of it. -/
theorem resolving_moves {published : Database} (found : sys.clients[i]? = some client)
    (admitted : Unowned s sys event)
    (moves : Moves (accountBody s) sys.committed i client event moved published)
    (resolving : Resolving s sys.committed client) : Resolving s published moved := by
  have faulty {e : Failure} {claims : IDClaims} {d : Database} (fired : event = .fault i e) :
      e = .constraint "users_email_key" → Taken s claims d := by
    intro same
    rw [fired] at admitted
    exact absurd same admitted
  cases resolving with
  | waiting call head empty =>
      rcases moves.of_jump head with rfl | crashed
      · exact .looking call rfl empty
      · exact .crashed crashed
  | looking call head empty =>
      obtain rfl := moves.committed_of_stmt head
      rcases moves.of_query head with ⟨-, rfl⟩ | ⟨e, fired, rfl⟩ | crashed
      · refine known_or_inserting call empty ?_
        rw [empty, visible_nil]
        rfl
      · exact failing_of_error rfl (faulty fired)
      · exact .crashed crashed
  | known call userID head empty bound =>
      rcases moves.of_ret head with ⟨rfl, rfl⟩ | ⟨-, rfl, rfl⟩ | ⟨e, _, rfl, cause, rfl⟩ | crashed
      · exact .known call userID head empty bound
      · rw [empty, visible_nil]
        exact answered_of_ok rfl bound
      · rcases cause with ⟨⟨⟩⟩ | fired
        exact answered_of_error rfl (faulty fired)
      · exact .crashed crashed
  | inserting call head empty =>
      obtain rfl := moves.committed_of_stmt head
      rcases moves.of_exec head with ⟨writes, ⟨⟩, -, made, rfl⟩ | ⟨e, cause, rfl⟩ | crashed
      · obtain ⟨_, -, same⟩ := map_ok.mp made
        obtain ⟨rfl, -⟩ := Prod.mk.inj same
        exact .binding call rfl (by simp [empty])
      · refine failing_of_error rfl ?_
        rcases cause with ⟨rfl, refused⟩ | fired
        · rw [empty, visible_nil] at refused
          rintro rfl
          exact taken_of_unowned found head admitted (map_error.mp refused)
        · exact faulty fired
      · exact .crashed crashed
  | binding call head pending =>
      obtain rfl := moves.committed_of_stmt head
      rw [← Prog.bind_ret (bindIdentity call)] at head
      rcases moves.of_exec head with ⟨writes, userID, -, made, rfl⟩ | ⟨e, cause, rfl⟩ | crashed
      · obtain ⟨after, inserted, same⟩ := map_ok.mp made
        obtain ⟨rfl, rfl⟩ := Prod.mk.inj same
        have free := (insertIdentity_ok inserted).1
        rw [pending] at free
        exact .committing call rfl (by simp [pending]) free
      · refine failing_of_error rfl ?_
        rcases cause with ⟨-, refused⟩ | fired
        · rw [insertIdentity_error (map_error.mp refused)]
          simp
        · exact faulty fired
      · exact .crashed crashed
  | committing call head pending free =>
      rcases moves.of_ret head with ⟨rfl, rfl⟩ | ⟨-, rfl, rfl⟩ | ⟨e, _, rfl, cause, rfl⟩ | crashed
      · exact .committing call head pending free
      · refine answered_of_ok rfl ?_
        rw [pending, visible_provisioned]
        exact List.mem_append_right _ (List.mem_singleton_self _)
      · rcases cause with ⟨⟨⟩⟩ | fired
        exact answered_of_error rfl (faulty fired)
      · exact .crashed crashed
  | failing answer head rightly =>
      obtain rfl := moves.committed_of fun next commits => by cases head.symm.trans commits
      rcases moves.of_rollback head with rfl | crashed
      · exact .answered answer rfl rightly
      · exact .crashed crashed
  | answered answer head rightly =>
      obtain rfl := moves.of_done head
      cases moves
      exact .crashed rfl
  | crashed gone => exact .crashed (moves.of_none gone)

/-! ## Every run -/

/-- What a run carries: nobody's commit is in another's way, and everybody is on their way. -/
structure Settled (s : Service) (sys : AccountSystem) : Prop where
  once : sys.committed.Once
  exclusive : Exclusive sys
  each : ∀ client ∈ sys.clients, Resolving s sys.committed client

/-- Two sign-ins about to commit have bound different subjects. -/
theorem subjects_apart {j : Nat} {other : AccountClient} {mine theirs : Resolution}
    (exclusive : Exclusive sys) (different : j ≠ i) (found : sys.clients[i]? = some client)
    (place : sys.clients[j]? = some other)
    (pending : client.writes = [.insertUser (newUser s mine), .insertIdentity (newIdentity mine)])
    (aside : other.writes = [.insertUser (newUser s theirs), .insertIdentity (newIdentity theirs)]) :
    mine.claims.subject ≠ theirs.claims.subject := by
  intro same
  have held : AccountLock.identity providerGoogle mine.claims.subject ∈ sys.held i := by
    rw [System.held, System.writesOf_eq found, pending]
    exact List.mem_flatMap.mpr ⟨_, List.mem_cons_of_mem _ (List.mem_singleton_self _),
      List.mem_singleton_self _⟩
  have taken : AccountLock.identity providerGoogle theirs.claims.subject ∈ sys.held j := by
    rw [System.held, System.writesOf_eq place, aside]
    exact List.mem_flatMap.mpr ⟨_, List.mem_cons_of_mem _ (List.mem_singleton_self _),
      List.mem_singleton_self _⟩
  exact exclusive i j (Ne.symm different) held (same ▸ taken)

theorem findIdentity_provisioned {subject : String} (different : call.claims.subject ≠ subject)
    (free : findIdentity d providerGoogle subject = none) :
    findIdentity (visible d [.insertUser (newUser s call), .insertIdentity (newIdentity call)])
      providerGoogle subject = none := by
  rw [findIdentity_eq_none] at free ⊢
  intro x known provider
  rcases List.mem_append.mp known with old | new
  · exact free x old provider
  · rw [List.mem_singleton.mp new]
    exact different

theorem settled_step (settled : Settled s sys) (admitted : Unowned s sys event)
    (step : Step (accountBody s) sys event after) :
    Settled s after ∧ Follows sys.committed after.committed := by
  have exclusive := exclusive_step step settled.exclusive
  cases split_of_step step with
  | spawn label same started =>
      subst started
      refine ⟨⟨settled.once, exclusive, fun client member => ?_⟩, follows_refl⟩
      rcases List.mem_append.mp member with old | new
      · exact settled.each client old
      · rw [List.mem_singleton.mp new]
        exact .waiting label rfl rfl
  | move i client moved found moves clients =>
      have resolving := settled.each client (List.mem_of_getElem? found)
      have own := resolving_moves found admitted moves resolving
      -- The others are where they were, over a database that follows the old one.
      have others (follows : Follows sys.committed after.committed)
          (free : ∀ j other, j ≠ i → sys.clients[j]? = some other → ∀ call, other.writes =
              [.insertUser (newUser s call), .insertIdentity (newIdentity call)] →
            findIdentity sys.committed providerGoogle call.claims.subject = none →
            findIdentity after.committed providerGoogle call.claims.subject = none) :
          ∀ client ∈ after.clients, Resolving s after.committed client := by
        intro other member
        obtain ⟨j, place⟩ := List.mem_iff_getElem?.mp member
        by_cases same : j = i
        · subst same
          rw [clients, List.getElem?_set_self (List.getElem?_eq_some_iff.mp found).1] at place
          exact Option.some.inj place ▸ own
        · rw [clients, List.getElem?_set_ne (Ne.symm same)] at place
          exact (settled.each other (List.mem_of_getElem? place)).follows follows
            (free j other same place)
      rcases published_of_moves moves resolving with same | ⟨call, pending, unbound, seen⟩
      · have follows : Follows sys.committed after.committed := same ▸ follows_refl
        have once : after.committed.Once := same ▸ settled.once
        refine ⟨⟨once, exclusive, others follows ?_⟩, follows⟩
        intro j other _ _ call _ free
        rwa [same]
      · rw [pending] at seen
        have follows : Follows sys.committed after.committed := seen ▸ follows_provisioned
        have once : after.committed.Once := seen ▸ once_provisioned settled.once unbound
        refine ⟨⟨once, exclusive, others follows ?_⟩, follows⟩
        intro j other different place theirs aside free
        rw [seen]
        exact findIdentity_provisioned
          (subjects_apart settled.exclusive different found place pending aside) free

theorem settled_run {later : AccountSystem} (settled : Settled s sys)
    (run : Run (accountBody s) (Unowned s) sys later) :
    Settled s later ∧ Follows sys.committed later.committed := by
  induction run with
  | refl => exact ⟨settled, follows_refl⟩
  | step before admitted fired ih =>
      obtain ⟨mid, follows⟩ := ih
      obtain ⟨next, further⟩ := settled_step mid admitted (step_of_fire fired)
      exact ⟨next, follows.trans further⟩

/-- A subject is bound once, and whoever has been answered has been answered rightly. -/
structure OneAccount (s : Service) (sys : AccountSystem) : Prop where
  once : sys.committed.Once
  answered : ∀ client ∈ sys.clients, ∀ answer, client.job = some (.done answer) →
    Rightly s sys.committed answer

theorem Settled.oneAccount (settled : Settled s sys) : OneAccount s sys := by
  refine ⟨settled.once, fun client member answer ended => ?_⟩
  cases settled.each client member with
  | answered other head rightly =>
      obtain rfl := Job.done.inj (Option.some.inj (head.symm.trans ended))
      exact rightly
  | looking call head empty => exact absurd (Option.some.inj (head.symm.trans ended)) (inTx_ne_done _ _)
  | known call userID head empty bound =>
      exact absurd (Option.some.inj (head.symm.trans ended)) (inTx_ne_done _ _)
  | inserting call head empty =>
      exact absurd (Option.some.inj (head.symm.trans ended)) (inTx_ne_done _ _)
  | binding call head pending =>
      exact absurd (Option.some.inj (head.symm.trans ended)) (inTx_ne_done _ _)
  | committing call head pending free =>
      exact absurd (Option.some.inj (head.symm.trans ended)) (inTx_ne_done _ _)
  | waiting call head empty => cases head.symm.trans ended
  | failing other head rightly => cases head.symm.trans ended
  | crashed gone => cases gone.symm.trans ended

/-- Sign-ins side by side, none of which inserts a user over its own subject's account: bindings
stay for ever, one to a subject, and every answer is right. -/
theorem subject_has_one_account {later : AccountSystem} (once : d.Once)
    (run : Run (accountBody s) (Unowned s) d.idle sys)
    (onward : Run (accountBody s) (Unowned s) sys later) :
    OneAccount s sys ∧ OneAccount s later ∧
      ∀ x ∈ sys.committed.identities, x ∈ later.committed.identities := by
  have idle : Settled s d.idle := by
    refine ⟨once, ?_, fun client member => absurd member List.not_mem_nil⟩
    intro i j _
    simp [System.held, System.writesOf, Database.idle]
  obtain ⟨settled, -⟩ := settled_run idle run
  obtain ⟨last, follows⟩ := settled_run settled onward
  exact ⟨settled.oneAccount, last.oneAccount, follows.identities⟩

/-! ## Sign-ins on one address -/

def answerOf (client : AccountClient) : Option Resolved :=
  match client.job with
  | some (.done answer) => some answer
  | _ => none

theorem job_of_answer {answer : Resolved} (answered : answerOf client = some answer) :
    client.job = some (.done answer) := by
  unfold answerOf at answered
  split at answered
  next same => exact Option.some.inj answered ▸ same
  next => cases answered

/-- Somebody else's constraint is not the one that is told apart. -/
def Ordinary (_ : AccountSystem) : AccountEvent → Prop
  | .fault _ e => e ≠ .constraint "users_email_key"
  | _ => True

/-- Every account is that of two subjects, so no sign-in's own alone. -/
def Shared (d : Database) : Prop :=
  ∀ u ∈ d.users, ∃ x ∈ d.identities, ∃ y ∈ d.identities,
    x.userID = u.id ∧ y.userID = u.id ∧ x.subject ≠ y.subject

def Sharing (sys : AccountSystem) : AccountEvent → Prop
  | .exec _ => Shared sys.committed
  | .fault _ e => e ≠ .constraint "users_email_key"
  | _ => True

instance (sys : AccountSystem) (event : AccountEvent) : Decidable (Ordinary sys event) :=
  match event with
  | .fault _ e => inferInstanceAs (Decidable (e ≠ _))
  | .spawn _ | .jump _ | .exec _ | .check _ | .publish _ | .rollback _ | .answer _ _ | .crash _ =>
      inferInstanceAs (Decidable True)

instance (sys : AccountSystem) (event : AccountEvent) : Decidable (Sharing sys event) :=
  match event with
  | .exec _ => inferInstanceAs (Decidable (∀ u ∈ sys.committed.users, ∃ x ∈ sys.committed.identities,
      ∃ y ∈ sys.committed.identities, x.userID = u.id ∧ y.userID = u.id ∧ x.subject ≠ y.subject))
  | .fault _ e => inferInstanceAs (Decidable (e ≠ _))
  | .spawn _ | .jump _ | .check _ | .publish _ | .rollback _ | .answer _ _ | .crash _ =>
      inferInstanceAs (Decidable True)

theorem unowned_of_sharing (sharing : Sharing sys event) : Unowned s sys event := by
  cases event with
  | fault i e => exact sharing
  | exec i =>
      rintro client call - - - ⟨u, known, -, own⟩
      obtain ⟨x, left, y, right, first, second, different⟩ := sharing u known
      have mine := (Prod.mk.inj (own x left first)).2
      have theirs := (Prod.mk.inj (own y right second)).2
      exact different (mine.trans theirs.symm)
  | _ => trivial

def sampleClaims (subject email : String) : IDClaims := ⟨subject, email, true, "", "en"⟩

/-- An account two subjects share. -/
def sharedAccount : Database where
  users := [⟨1, some "a@b.c", none, "en"⟩]
  identities := [⟨providerGoogle, "first", 1⟩, ⟨providerGoogle, "second", 1⟩]
  sessions := []
  authFlows := []

/-- One of them comes back, a stranger brings their address, and another provisions. -/
def returningEvents : List AccountEvent :=
  [.spawn ⟨sampleClaims "first" "new@b.c", 2⟩, .spawn ⟨sampleClaims "other" "a@b.c", 3⟩,
    .spawn ⟨sampleClaims "third" "d@b.c", 4⟩, .jump 0, .jump 1, .jump 2, .exec 0, .exec 1, .exec 2,
    .exec 2, .exec 1, .exec 2, .check 2, .check 0, .publish 2, .rollback 1, .publish 0]

theorem subject_has_one_account_sample : ∃ sys : AccountSystem,
    sys.clients.map answerOf =
      [some ⟨sampleClaims "first" "new@b.c", .ok 1⟩,
        some ⟨sampleClaims "other" "a@b.c", .error Code.emailTaken⟩,
        some ⟨sampleClaims "third" "d@b.c", .ok 4⟩] ∧
      OneAccount sampleService sys ∧
      ∀ x ∈ sharedAccount.identities, x ∈ sys.committed.identities := by
  have evaluated : (Isolation.fireAll (accountBody sampleService) sharedAccount.idle returningEvents).map
      (fun sys => sys.clients.map answerOf) =
        some [some ⟨sampleClaims "first" "new@b.c", .ok 1⟩,
          some ⟨sampleClaims "other" "a@b.c", .error Code.emailTaken⟩,
          some ⟨sampleClaims "third" "d@b.c", .ok 4⟩] := by decide +kernel
  have sharing : AdmitsAll (accountBody sampleService) Sharing sharedAccount.idle returningEvents := by
    decide +kernel
  obtain ⟨sys, fired, answers⟩ := Option.map_eq_some_iff.mp evaluated
  have once : sharedAccount.Once := by
    unfold Database.Once
    decide
  have onward := Run.of_fireAll (sharing.mono fun _ _ => @unowned_of_sharing sampleService _ _) fired
  obtain ⟨-, last, kept⟩ := subject_has_one_account once .refl onward
  exact ⟨sys, answers, last, kept⟩

/-- One subject in two browsers at its first sign-in: both look it up before either commits. -/
def twiceEvents : List AccountEvent :=
  [.spawn ⟨sampleClaims "first" "a@b.c", 1⟩, .spawn ⟨sampleClaims "first" "a@b.c", 2⟩, .jump 0,
    .jump 1, .exec 0, .exec 1, .exec 0, .exec 0, .check 0, .publish 0, .exec 1, .rollback 1]

/-- The second is told that its address belongs to another account, and the account is its own. -/
theorem own_address_taken :
    ¬ ∀ (s : Service) (d : Database) (sys : AccountSystem), d.Once →
      Run (accountBody s) Ordinary d.idle sys → OneAccount s sys := by
  intro claimed
  have evaluated : (Isolation.fireAll (accountBody sampleService) sampleTables.idle twiceEvents).map
      (fun sys => (sys.clients.map answerOf, sys.committed.identities)) =
        some ([some ⟨sampleClaims "first" "a@b.c", .ok 1⟩,
          some ⟨sampleClaims "first" "a@b.c", .error Code.emailTaken⟩],
          [⟨providerGoogle, "first", 1⟩]) := by decide +kernel
  have ordinary : AdmitsAll (accountBody sampleService) Ordinary sampleTables.idle twiceEvents := by
    decide +kernel
  obtain ⟨sys, fired, same⟩ := Option.map_eq_some_iff.mp evaluated
  obtain ⟨answers, identities⟩ := Prod.mk.inj same
  have run := Run.of_fireAll ordinary fired
  have once : sampleTables.Once := by simp [Database.Once, sampleTables]
  have right := claimed sampleService sampleTables sys once run
  obtain ⟨second, found, answered⟩ : ∃ second ∈ sys.clients,
      answerOf second = some ⟨sampleClaims "first" "a@b.c", .error Code.emailTaken⟩ := by
    apply List.mem_map.mp
    rw [answers]
    simp
  obtain ⟨u, -, -, x, bound, -, other⟩ :=
    (right.answered second found _ (job_of_answer answered)).2 rfl
  rw [identities] at bound
  exact other (List.mem_singleton.mp bound ▸ rfl)

end Vekst.Identity
