import Vekst.Identity.Access
import Vekst.Proof.Identity.Accounts
import Vekst.Relational.Simulation

namespace Vekst.Identity.Access
open Ledger (require)
open Tenancy (MembershipRow)

/-! ## Roles under the tenant policy -/

/-- What `orgIDForSession` finds in these rows. -/
def roleIn (org userID : UUID) (rows : List MembershipRow) : Option String :=
  (rows.filter (·.userID = userID)).foldl
    (fun found row => if row.orgID = org then some row.role else found) none

@[simp] theorem roleIn_nil (org userID : UUID) : roleIn org userID [] = none := rfl

theorem roleIn_concat (org userID : UUID) (rows : List MembershipRow) (row : MembershipRow) :
    roleIn org userID (rows ++ [row]) =
      if selects org userID row then some row.role else roleIn org userID rows := by
  by_cases user : row.userID = userID <;> by_cases here : row.orgID = org <;>
    simp [roleIn, List.filter_append, List.foldl_append, selects, user, here]

theorem roleIn_eq_none_iff {org userID : UUID} {rows : List MembershipRow} :
    roleIn org userID rows = none ↔ ∀ row ∈ rows, ¬ selects org userID row := by
  induction rows using List.reverseRecOn with
  | nil => simp
  | append_singleton rows row ih =>
      rw [roleIn_concat]
      by_cases own : selects org userID row
      · simp only [own, ↓reduceIte, reduceCtorEq, List.mem_append, List.mem_singleton, false_iff]
        exact fun others => others row (.inr rfl) own
      · simp only [own, Bool.false_eq_true, ↓reduceIte, ih, List.mem_append, List.mem_singleton]
        exact ⟨fun others x => fun | .inl member => others x member | .inr same => same ▸ own,
          fun others x member => others x (.inl member)⟩

/-- An update under one organisation's policy reaches one user's role in it. -/
theorem roleIn_update (org userID org' userID' : UUID) (role : String)
    (rows : List MembershipRow) :
    roleIn org userID (rows.map fun row =>
        if selects org' userID' row then { row with role := role } else row) =
      if org = org' ∧ userID = userID' then (roleIn org userID rows).map fun _ => role
      else roleIn org userID rows := by
  induction rows using List.reverseRecOn with
  | nil => simp
  | append_singleton rows row ih =>
      rw [List.map_append, List.map_singleton, roleIn_concat, roleIn_concat, ih]
      by_cases same : org = org' ∧ userID = userID'
      · obtain ⟨rfl, rfl⟩ := same
        by_cases own : selects org userID row
        · have still : selects org userID { row with role := role } = true := own
          simp [own, still]
        · simp [own]
      · by_cases own : selects org' userID' row
        · have apart (r : MembershipRow) (kept : r.orgID = row.orgID ∧ r.userID = row.userID) :
              ¬ selects org userID r := by
            simp only [selects, Bool.and_eq_true, decide_eq_true_eq] at own ⊢
            grind
          simp [own, same, apart row ⟨rfl, rfl⟩, apart { row with role := role } ⟨rfl, rfl⟩]
        · simp [own, same]

theorem roleIn_delete (org userID org' userID' : UUID) (rows : List MembershipRow) :
    roleIn org userID (rows.filter fun row => !selects org' userID' row) =
      if org = org' ∧ userID = userID' then none else roleIn org userID rows := by
  induction rows using List.reverseRecOn with
  | nil => simp
  | append_singleton rows row ih =>
      rw [List.filter_append, roleIn_concat]
      by_cases own : selects org' userID' row
      · have gone : [row].filter (fun row => !selects org' userID' row) = [] := by simp [own]
        rw [gone, List.append_nil, ih]
        by_cases same : org = org' ∧ userID = userID'
        · simp [same]
        · have apart : ¬ selects org userID row := by
            simp only [selects, Bool.and_eq_true, decide_eq_true_eq] at own ⊢
            grind
          simp [same, apart]
      · have stays : [row].filter (fun row => !selects org' userID' row) = [row] := by simp [own]
        rw [stays, roleIn_concat, ih]
        by_cases same : org = org' ∧ userID = userID'
        · obtain ⟨rfl, rfl⟩ := same
          simp [own]
        · simp [same]

theorem orgIDForSession_eq (userID requested : UUID) (d : Tables) :
    orgIDForSession userID requested d =
      if requested = UUID.zero then none else roleIn requested userID d.memberships := rfl

theorem committed_require {holds : Bool} {name : String} {before : Tables}
    {rest : Unit → Except Failure Tables} :
    committed before (require holds name >>= rest) =
      if holds then committed before (rest ()) else before := by
  cases holds <;> rfl

@[simp] theorem committed_pure (before after : Tables) :
    committed before (pure after) = after := rfl

/-! ## The tables keep to the grants -/

/-- A new token's session is refused for its user alone. -/
theorem insertSession_eq {id : UUID} {now : Timestamp} {row : SessionRow} {d : Tables}
    (fresh : ∀ session ∈ d.sessions, session.id ≠ id ∧ session.tokenSHA256 ≠ row.tokenSHA256) :
    insertSession id now row d =
      match d.users.find? (·.id = row.userID) with
      | some _ => .ok { d with sessions := d.sessions ++ [⟨row, id, now, none⟩] }
      | none => .error (.constraint "sessions_user_id_fkey") := by
  have ids : d.sessions.all (·.id ≠ id) = true := by simpa using fun x m => (fresh x m).1
  have hashes : d.sessions.all (·.tokenSHA256 ≠ row.tokenSHA256) = true := by
    simpa using fun x m => (fresh x m).2
  simp only [insertSession, ids, hashes]
  cases known : d.users.find? (·.id = row.userID) with
  | none =>
      have unknown : d.users.any (·.id = row.userID) = false := by simpa using known
      rw [unknown]
      rfl
  | some user =>
      have known : d.users.any (·.id = row.userID) = true :=
        List.any_eq_true.mpr ⟨user, List.mem_of_find?_eq_some known, by
          simpa using List.find?_some known⟩
      rw [known]
      rfl

/-- The events `past` have led the tables to `d` and the grants to `g`. -/
structure Granted (c : Config) (past : List Event) (d : Tables) (g : Grants) : Prop where
  users : g.users = d.users
  organizations : g.organizations = d.organizations
  drawn : ∀ session ∈ d.sessions, ∃ token now userID userAgent,
    .change (.signIn session.id token now userID userAgent) ∈ past ∧
      c.hashToken token = session.tokenSHA256
  held : ∀ session ∈ d.sessions, session.revokedAt = none →
    ∃ row, d.users.find? (·.id = session.userID) = some row ∧
      g.holder session.tokenSHA256 = some (row, session.expiresAt)
  /-- A sweep removes only what had ended before its cutoff. -/
  kept : ∀ tokenSHA256 row until_, g.holder tokenSHA256 = some (row, until_) →
    (∃ session ∈ d.sessions, session.tokenSHA256 = tokenSHA256 ∧ session.revokedAt = none) ∨
      ∃ now databaseNow, .change (.expire now databaseNow) ∈ past ∧
        until_ < now - c.sessionRetention
  members : ∀ org userID, roleIn org userID d.memberships = g.role org userID
  tenant : ∀ row ∈ d.memberships, row.orgID ≠ UUID.zero

/-- What a sweep removed was dead for every later read. -/
theorem ended_of_swept {now read retention ends : ℕ} (behind : now ≤ read + retention)
    (ended : ends < now - retention) : ¬ read < ends := by
  omega

namespace Granted
variable {c : Config} {past : List Event} {d : Tables} {g : Grants}

theorem later (granted : Granted c past d g) (event : Event) :
    Granted c (past ++ [event]) d g where
  users := granted.users
  organizations := granted.organizations
  drawn session member := by
    obtain ⟨token, now, userID, userAgent, earlier, hashed⟩ := granted.drawn session member
    exact ⟨token, now, userID, userAgent, List.mem_append_left _ earlier, hashed⟩
  held := granted.held
  kept tokenSHA256 row until_ holds := by
    obtain found | ⟨now, databaseNow, swept, ended⟩ := granted.kept tokenSHA256 row until_ holds
    · exact .inl found
    · exact .inr ⟨now, databaseNow, List.mem_append_left _ swept, ended⟩
  members := granted.members
  tenant := granted.tenant

theorem role (granted : Granted c past d g) (userID org : UUID) :
    orgIDForSession userID org d = g.role org userID := by
  rw [orgIDForSession_eq, ← granted.members]
  split
  · next zero =>
      refine (roleIn_eq_none_iff.mpr fun row member own => granted.tenant row member ?_).symm
      simp only [selects, Bool.and_eq_true, decide_eq_true_eq] at own
      exact own.1.trans zero
  · rfl

/-- What a read finds, whichever of the sessions the database picks. -/
theorem found {tokenSHA256 : String} {now : Timestamp} {session : Session} {row : UserRow}
    (granted : Granted c past d g)
    (found : findLiveSessionWithUser tokenSHA256 now d = some (session, row)) :
    g.holder tokenSHA256 = some (row, session.expiresAt) ∧ now < session.expiresAt := by
  obtain ⟨x, live, joined⟩ := List.exists_of_findSome?_eq_some found
  obtain ⟨user, located, pair⟩ := Option.map_eq_some_iff.mp joined
  obtain ⟨rfl, rfl⟩ := Prod.mk.inj pair
  obtain ⟨member, live⟩ := List.mem_filter.mp live
  simp only [Session.live, Bool.and_eq_true, decide_eq_true_eq, Option.isNone_iff_eq_none] at live
  obtain ⟨⟨rfl, open_⟩, inTime⟩ := live
  obtain ⟨row, located', holds⟩ := granted.held x member open_
  rw [located] at located'
  exact ⟨Option.some.inj located' ▸ holds, inTime⟩

theorem find (granted : Granted c past d g) {tokenSHA256 : String} {now until_ : Timestamp}
    {row : UserRow} {i : ℕ}
    (ordered : ∀ earlier ∈ past, Event.Orderly c earlier (.resolve i now))
    (holds : g.holder tokenSHA256 = some (row, until_)) (inTime : now < until_) :
    ∃ session, findLiveSessionWithUser tokenSHA256 now d = some (session, row) := by
  obtain ⟨session, member, rfl, open_⟩ | ⟨swept, databaseNow, earlier, ended⟩ :=
    granted.kept tokenSHA256 row until_ holds
  · obtain ⟨row', located, holds'⟩ := granted.held session member open_
    obtain ⟨rfl, rfl⟩ := Prod.mk.inj (Option.some.inj (holds'.symm.trans holds))
    have live : session.live session.tokenSHA256 now := by simp [Session.live, open_, inTime]
    cases read : findLiveSessionWithUser session.tokenSHA256 now d with
    | none =>
        have := List.findSome?_eq_none_iff.mp read session (List.mem_filter.mpr ⟨member, live⟩)
        simp [located] at this
    | some pair =>
        obtain ⟨other, user⟩ := pair
        have := (granted.found read).1.symm.trans holds
        exact ⟨other, by rw [(Prod.mk.inj (Option.some.inj this)).1]⟩
  · exact absurd inTime (ended_of_swept (ordered _ earlier) ended)

theorem resolved (granted : Granted c past d g) {tokenSHA256 : String} {now : Timestamp} {i : ℕ}
    (ordered : ∀ earlier ∈ past, Event.Orderly c earlier (.resolve i now)) :
    (resolve tokenSHA256 now d).1 = (Grants.resolve tokenSHA256 now g).1 := by
  unfold resolve
  cases read : findLiveSessionWithUser tokenSHA256 now d with
  | some pair =>
      obtain ⟨holds, inTime⟩ := granted.found read
      simp [Grants.resolve, holds, inTime]
  | none =>
      cases holds : g.holder tokenSHA256 with
      | none => simp [Grants.resolve, holds]
      | some pair =>
          obtain ⟨row, until_⟩ := pair
          have ended : ¬ now < until_ := by
            intro inTime
            obtain ⟨session, found⟩ := granted.find ordered holds inTime
            simp [read] at found
          simp [Grants.resolve, holds, ended]

/-! ### One change -/

/-- Sessions may change in what no read looks at. -/
theorem of_sessions (granted : Granted c past d g) {sessions : List Session}
    (forth : ∀ session ∈ sessions, ∃ x ∈ d.sessions, x.toSessionRow = session.toSessionRow ∧
      x.id = session.id ∧ x.revokedAt = session.revokedAt)
    (back : ∀ x ∈ d.sessions, ∃ session ∈ sessions, x.toSessionRow = session.toSessionRow ∧
      x.id = session.id ∧ x.revokedAt = session.revokedAt) :
    Granted c past { d with sessions := sessions } g where
  users := granted.users
  organizations := granted.organizations
  drawn session member := by
    obtain ⟨x, earlier, row, id, -⟩ := forth session member
    rw [← row, ← id]
    exact granted.drawn x earlier
  held session member open_ := by
    obtain ⟨x, earlier, row, -, revoked⟩ := forth session member
    rw [← row]
    exact granted.held x earlier (revoked.trans open_)
  kept tokenSHA256 row until_ holds := by
    refine (granted.kept tokenSHA256 row until_ holds).imp_left ?_
    rintro ⟨x, member, hashed, open_⟩
    obtain ⟨session, member, row, -, revoked⟩ := back x member
    exact ⟨session, member, row ▸ hashed, revoked ▸ open_⟩
  members := granted.members
  tenant := granted.tenant

theorem touch (granted : Granted c past d g) (now : Timestamp) (id : UUID) :
    Granted c past (touchSession now id d) g := by
  refine granted.of_sessions (fun session member => ?_) (fun x member => ?_)
  · obtain ⟨x, earlier, rfl⟩ := List.mem_map.mp member
    exact ⟨x, earlier, by split <;> simp⟩
  · refine ⟨_, List.mem_map_of_mem member, ?_⟩
    split <;> simp

theorem provision (granted : Granted c past d g) (row : UserRow) :
    Granted c past ((tables c).change (.provision row) d)
      (Grants.change c (.provision row) g) := by
  simp only [tables, Grants.change, insertUser, granted.users]
  cases inserted : Identity.insertUser c.toService row ⟨d.users, [], [], []⟩ with
  | error _ => exact granted
  | ok after =>
      have users : after.users = d.users ++ [row] := by
        rw [insertUser_ok inserted]
        rfl
      exact { granted with
        users := rfl
        held := fun session member open_ => by
          obtain ⟨user, located, holds⟩ := granted.held session member open_
          refine ⟨user, ?_, holds⟩
          show after.users.find? _ = _
          rw [users, List.find?_append, located]
          rfl }

theorem signIn (granted : Granted c past d g) {id : UUID} {token : String} {now : Timestamp}
    {userID : UUID} {userAgent : String}
    (ordered : ∀ earlier ∈ past,
      Event.Orderly c earlier (.change (.signIn id token now userID userAgent))) :
    Granted c (past ++ [.change (.signIn id token now userID userAgent)])
      ((tables c).change (.signIn id token now userID userAgent) d)
      (Grants.change c (.signIn id token now userID userAgent) g) := by
  have fresh : ∀ session ∈ d.sessions,
      session.id ≠ id ∧ session.tokenSHA256 ≠ c.hashToken token := by
    intro session member
    obtain ⟨drawn, at_, user, agent, earlier, hashed⟩ := granted.drawn session member
    rw [← hashed]
    exact ordered _ earlier
  simp only [tables, Grants.change, createSession, granted.users]
  rw [insertSession_eq fresh]
  cases known : d.users.find? (·.id = userID) with
  | none => exact granted.later _
  | some row => exact {
      users := granted.users
      organizations := granted.organizations
      drawn := fun session member => by
        rcases List.mem_append.mp member with earlier | new
        · exact (granted.later _).drawn session earlier
        · obtain rfl := List.mem_singleton.mp new
          exact ⟨token, now, userID, userAgent, List.mem_append_right _ (List.mem_singleton_self _),
            rfl⟩
      held := fun session member open_ => by
        rcases List.mem_append.mp member with earlier | new
        · simp only [Grants.hold, Function.update_of_ne (fresh session earlier).2]
          exact granted.held session earlier open_
        · obtain rfl := List.mem_singleton.mp new
          exact ⟨row, known, by simp [Grants.hold]⟩
      kept := fun tokenSHA256 row' until_ holds => by
        by_cases own : tokenSHA256 = c.hashToken token
        · exact .inl ⟨_, List.mem_append_right _ (List.mem_singleton_self _), own.symm, rfl⟩
        · simp only [Grants.hold, Function.update_of_ne own] at holds
          refine ((granted.later _).kept tokenSHA256 row' until_ holds).imp_left ?_
          rintro ⟨session, member, found⟩
          exact ⟨session, List.mem_append_left _ member, found⟩
      members := granted.members
      tenant := granted.tenant }

theorem revoke (granted : Granted c past d g) (now : Timestamp) (tokenSHA256 : String) :
    Granted c past (revokeSession now tokenSHA256 d) (g.hold tokenSHA256 none) where
  users := granted.users
  organizations := granted.organizations
  drawn session member := by
    obtain ⟨x, earlier, rfl⟩ := List.mem_map.mp member
    obtain ⟨token, at_, userID, userAgent, drawn, hashed⟩ := granted.drawn x earlier
    refine ⟨token, at_, userID, userAgent, ?_⟩
    split <;> exact ⟨drawn, hashed⟩
  held session member open_ := by
    obtain ⟨x, earlier, rfl⟩ := List.mem_map.mp member
    split at open_
    · cases open_
    · next still =>
        have other : x.tokenSHA256 ≠ tokenSHA256 := by
          intro own
          simp [own, open_] at still
        simp only [still, Bool.false_eq_true, ↓reduceIte, Grants.hold,
          Function.update_of_ne other]
        exact granted.held x earlier open_
  kept other row until_ holds := by
    by_cases own : other = tokenSHA256
    · simp [Grants.hold, own] at holds
    · simp only [Grants.hold, Function.update_of_ne own] at holds
      refine (granted.kept other row until_ holds).imp_left ?_
      rintro ⟨session, member, rfl, open_⟩
      refine ⟨_, List.mem_map_of_mem member, ?_⟩
      simp [own, open_]
  members := granted.members
  tenant := granted.tenant

theorem sweep (granted : Granted c past d g) (now databaseNow : Timestamp) :
    Granted c (past ++ [.change (.expire now databaseNow)]) (expire c now databaseNow d) g where
  users := granted.users
  organizations := granted.organizations
  drawn session member := (granted.later _).drawn session (List.mem_of_mem_filter member)
  held session member := granted.held session (List.mem_of_mem_filter member)
  kept tokenSHA256 row until_ holds := by
    obtain ⟨session, member, rfl, open_⟩ | swept :=
      (granted.later (.change (.expire now databaseNow))).kept tokenSHA256 row until_ holds
    · by_cases over_ : now - c.sessionRetention ≤ session.expiresAt
      · exact .inl ⟨session, List.mem_filter.mpr ⟨member, by simpa using over_⟩, rfl, open_⟩
      · obtain ⟨_, -, holds'⟩ := granted.held session member open_
        have ends : session.expiresAt = until_ :=
          (Prod.mk.inj (Option.some.inj (holds'.symm.trans holds))).2
        exact .inr ⟨now, databaseNow, List.mem_append_right _ (List.mem_singleton_self _),
          ends ▸ Nat.lt_of_not_le over_⟩
    · exact .inr swept
  members := granted.members
  tenant := granted.tenant

/-! ### Members -/

theorem of_memberships (granted : Granted c past d g) {memberships : List MembershipRow}
    {role : UUID → UUID → Option String}
    (members : ∀ org userID, roleIn org userID memberships = role org userID)
    (tenant : ∀ row ∈ memberships, row.orgID ≠ UUID.zero) :
    Granted c past { d with memberships := memberships } { g with role := role } :=
  { granted with members := members, tenant := tenant }

theorem addOrganization (granted : Granted c past d g) (org : UUID) :
    Granted c past ((tables c).change (.insertOrganization org) d)
      (Grants.change c (.insertOrganization org) g) := by
  simp only [tables, Grants.change, insertOrganization, committed_require, committed_pure,
    granted.organizations, ← ite_and]
  have refused : (org = UUID.zero ∨ org ∈ d.organizations) ↔
      ¬ (decide (org ≠ UUID.zero) = true ∧ (d.organizations.all fun x => x ≠ org) = true) := by
    simp only [List.all_eq_true, decide_eq_true_eq]
    grind
  by_cases zero : org = UUID.zero ∨ org ∈ d.organizations
  · rwa [if_pos zero, if_neg (refused.mp zero)]
  · rw [if_neg zero, if_pos (not_not.mp (refused.not.mp zero))]
    exact { granted with organizations := rfl }

theorem addMembership (granted : Granted c past d g) (org : UUID) (row : MembershipRow) :
    Granted c past ((tables c).change (.insertMembership org row) d)
      (Grants.change c (.insertMembership org row) g) := by
  simp only [tables, Grants.change, insertMembership, committed_require, committed_pure,
    ← ite_and, granted.organizations, granted.users, ← granted.members]
  have accepted : (decide (org ≠ UUID.zero) = true ∧ decide (row.orgID = org) = true ∧
      decide (row.role ∈ roles) = true ∧
      (d.memberships.all fun x => x.orgID ≠ row.orgID || x.userID ≠ row.userID) = true ∧
      (d.organizations.any fun x => x = row.orgID) = true ∧
      (d.users.any fun x => x.id = row.userID) = true) ↔
      org ≠ UUID.zero ∧ row.orgID = org ∧ row.role ∈ roles ∧
      roleIn org row.userID d.memberships = none ∧ org ∈ d.organizations ∧
      (d.users.any fun x => x.id = row.userID) = true := by
    simp only [decide_eq_true_eq, List.all_eq_true, roleIn_eq_none_iff, selects]
    grind
  by_cases admits : org ≠ UUID.zero ∧ row.orgID = org ∧ row.role ∈ roles ∧
      roleIn org row.userID d.memberships = none ∧ org ∈ d.organizations ∧
      (d.users.any fun x => x.id = row.userID) = true
  · rw [if_pos admits, if_pos (accepted.mpr admits)]
    obtain ⟨some_, rfl, -⟩ := admits
    refine granted.of_memberships (fun org userID => ?_) (fun x member => ?_)
    · rw [roleIn_concat, granted.members]
      simp only [selects, Bool.and_eq_true, decide_eq_true_eq, @eq_comm _ row.orgID,
        @eq_comm _ row.userID]
    · obtain earlier | new := List.mem_append.mp member
      · exact granted.tenant x earlier
      · exact List.mem_singleton.mp new ▸ some_
  · rwa [if_neg admits, if_neg (accepted.not.mpr admits)]

theorem setMembershipRole (granted : Granted c past d g) (org userID : UUID) (role : String) :
    Granted c past ((tables c).change (.updateMembershipRole org userID role) d)
      (Grants.change c (.updateMembershipRole org userID role) g) := by
  simp only [tables, Grants.change, updateMembershipRole, committed_require, committed_pure,
    ← granted.members]
  have renamed (role' : UUID → UUID → Option String)
      (reached : ∀ o u, (if o = org ∧ u = userID then (g.role o u).map fun _ => role
        else g.role o u) = role' o u) :
      Granted c past { d with
        memberships := d.memberships.map fun row =>
          if selects org userID row then { row with role := role } else row }
        { g with role := role' } := by
    refine granted.of_memberships (fun o u => ?_) (fun x member => ?_)
    · rw [roleIn_update, granted.members, reached]
    · obtain ⟨row, earlier, rfl⟩ := List.mem_map.mp member
      have tenant := granted.tenant row earlier
      split <;> exact tenant
  cases present : roleIn org userID d.memberships with
  | none =>
      have unmoved : Granted c past _ g := renamed g.role fun o u => by
        split
        · next own =>
            rw [own.1, own.2, ← granted.members, present]
            rfl
        · rfl
      simp only [Option.isSome_none, Bool.false_eq_true, and_false, ↓reduceIte]
      split
      · split
        · exact unmoved
        · exact granted
      · exact granted
  | some old =>
      have chosen : ¬ ∀ row ∈ d.memberships, ¬ selects org userID row := by
        rw [← roleIn_eq_none_iff, present]
        exact Option.some_ne_none old
      have some_ : org ≠ UUID.zero := by
        rintro rfl
        refine chosen fun row member own => granted.tenant row member ?_
        exact (by simpa [selects] using own : _ ∧ _).1
      have unruly : (d.memberships.all fun row => !selects org userID row) = false := by
        simpa using chosen
      by_cases known : role ∈ roles
      · simp only [some_, known, ne_eq, not_false_eq_true, decide_true, Bool.true_or,
          Option.isSome_some, and_self, ↓reduceIte]
        refine renamed _ fun o u => ?_
        split
        · next own => rw [own.1, own.2, ← granted.members, present]; rfl
        · rfl
      · simpa [some_, known, unruly] using granted

theorem dropMembership (granted : Granted c past d g) (org userID : UUID) :
    Granted c past ((tables c).change (.deleteMembership org userID) d)
      (Grants.change c (.deleteMembership org userID) g) := by
  simp only [tables, Grants.change, deleteMembership, committed_require, committed_pure]
  by_cases zero : org = UUID.zero
  · have unmoved : g.setRole org userID none = g := by
      have absent : g.role org userID = none := by
        rw [← granted.role, orgIDForSession_eq, if_pos zero]
      simp only [Grants.setRole]
      congr 1
      funext o u
      split
      · next own => rw [own.1, own.2, absent]
      · rfl
    rw [unmoved]
    simpa [zero] using granted
  · simp only [zero, ne_eq, not_false_eq_true, decide_true, ↓reduceIte]
    refine granted.of_memberships (fun o u => ?_) fun x member =>
      granted.tenant x (List.mem_of_mem_filter member)
    rw [roleIn_delete, granted.members]

theorem changed (granted : Granted c past d g) (change : Change)
    (ordered : ∀ earlier ∈ past, Event.Orderly c earlier (.change change)) :
    Granted c (past ++ [.change change]) ((tables c).change change d)
      (Grants.change c change g) := by
  cases change with
  | provision row => exact (granted.provision row).later _
  | signIn id token now userID userAgent => exact granted.signIn ordered
  | logout cookie now =>
      simp only [tables, Grants.change]
      cases presented cookie with
      | none => exact granted.later _
      | some token => exact (granted.revoke now (c.hashToken token)).later _
  | expire now databaseNow => exact granted.sweep now databaseNow
  | insertOrganization org => exact (granted.addOrganization org).later _
  | insertMembership org row => exact (granted.addMembership org row).later _
  | updateMembershipRole org userID role => exact (granted.setMembershipRole org userID role).later _
  | deleteMembership org userID => exact (granted.dropMembership org userID).later _

theorem read (granted : Granted c past d g) (tokenSHA256 : String) (now : Timestamp) :
    Granted c past (resolve tokenSHA256 now d).2 (Grants.resolve tokenSHA256 now g).2 := by
  have same : (Grants.resolve tokenSHA256 now g).2 = g := by
    unfold Grants.resolve
    split <;> rfl
  rw [same]
  unfold resolve
  split
  · exact granted
  · next session _ _ => exact granted.touch now session.id

theorem start (c : Config) : Granted c [] Tables.new Grants.none_ where
  users := rfl
  organizations := rfl
  drawn _ member := absurd member List.not_mem_nil
  held _ member := absurd member List.not_mem_nil
  kept _ _ _ holds := absurd holds (by simp [Grants.none_])
  members _ _ := rfl
  tenant _ member := absurd member List.not_mem_nil

end Granted

/-! ## Requests are answered as the grants say -/

/-- The two systems have the same requests under way, at the same points. -/
def Alike (c : Config) (past : List Event) (w : World Tables) (v : World Grants) : Prop :=
  Granted c past w.authority v.authority ∧ w.calls = v.calls

theorem alike_resolveCall {c : Config} {past : List Event} {w : World Tables} {v : World Grants}
    {i : ℕ} {call : Call} {now : Timestamp} (alike : Alike c past w v)
    (ordered : ∀ earlier ∈ past, Event.Orderly c earlier (.resolve i now)) :
    Alike c past (w.resolveCall c (tables c) i call now)
      (v.resolveCall c (Grants.authority c) i call now) := by
  obtain ⟨granted, calls⟩ := alike
  unfold World.resolveCall
  split
  · exact ⟨granted, by simp only [World.setCall, calls]⟩
  · next token _ =>
      refine ⟨granted.read _ now, ?_⟩
      simp only [World.setCall, tables, Grants.authority, granted.resolved ordered, calls]

theorem alike_fire {c : Config} (past : List Event) (event : Event) (w : World Tables)
    (v : World Grants) (alike : Alike c past w v)
    (ordered : ∀ earlier ∈ past, Event.Orderly c earlier event) :
    Alike c (past ++ [event]) (w.fire c (tables c) event) (v.fire c (Grants.authority c) event) := by
  have ⟨granted, calls⟩ := alike
  have unread : ∀ {w' v'}, Alike c past w' v' → Alike c (past ++ [event]) w' v' :=
    fun alike => ⟨alike.1.later event, alike.2⟩
  cases event with
  | change change => exact ⟨granted.changed change ordered, calls⟩
  | call procedure cookie organization =>
      exact unread ⟨granted, by simp only [World.fire, calls]⟩
  | resolve i now =>
      simp only [World.fire, calls]
      split
      · split
        · exact unread (alike_resolveCall alike ordered)
        · exact unread alike
      · exact unread alike
  | bind i =>
      simp only [World.fire, calls]
      split
      · split
        · next user org _ =>
            simp only [World.bindCall, tables, Grants.authority, granted.role]
            split <;> exact unread ⟨granted, by simp only [World.setCall, calls]⟩
        · exact unread alike
      · exact unread alike
  | fault i =>
      simp only [World.fire, calls]
      split
      · split
        · exact unread ⟨granted, by simp only [World.setCall, calls]⟩
        · exact unread ⟨granted, by simp only [World.setCall, calls]⟩
        · exact unread alike
      · exact unread alike

/-- Whatever goes on beside it, a request acts for an organisation exactly where the session its
cookie names is still held and its holder still a member, with the role held then. -/
theorem answered_as_granted (c : Config) (events : List Event)
    (ordered : events.Pairwise (Event.Orderly c)) :
    (World.run c (tables c) ⟨Tables.new, []⟩ events).calls =
      (World.run c (Grants.authority c) ⟨Grants.none_, []⟩ events).calls :=
  
  have alike : Alike c ([] ++ events) _ _ :=
    Relational.foldl_simulates alike_fire ordered ⟨Granted.start c, rfl⟩
  alike.2

/-! ### A day's sign-ins -/

def sampleConfig : Config where
  configured := true
  sessionLifetime := 10
  authFlowLifetime := 5
  toLower := id
  lower := id
  hashToken := id
  sessionRetention := 2

def samplePerson (id : UUID) : UserRow := ⟨id, none, none, "en"⟩

/-- Two people; the first leaves the organisation between the two reads of a request, the second
signs out after one, and the sweep takes the session that has ended. -/
def sampleEvents : List Event :=
  [.change (.provision (samplePerson 1)), .change (.provision (samplePerson 2)),
   .change (.insertOrganization 7), .change (.insertMembership 7 ⟨7, 1, "owner"⟩),
   .change (.insertMembership 7 ⟨7, 2, "viewer"⟩),
   .change (.signIn 11 "a" 0 1 ""), .change (.signIn 12 "b" 4 2 ""),
   .call "Queue" (some "a") (some 7), .resolve 0 5, .bind 0,
   .change (.updateMembershipRole 7 2 "admin"),
   .call "Queue" (some "b") (some 7), .resolve 1 6, .bind 1,
   .call "Queue" (some "a") (some 7), .resolve 2 7,
   .change (.deleteMembership 7 1), .bind 2,
   .change (.expire 13 13), .call "Queue" (some "a") (some 7), .resolve 3 12,
   .change (.logout (some "b") 13), .call "Queue" (some "b") (some 7), .resolve 4 13]

theorem answered_as_granted_sample :
    ((World.run sampleConfig (tables sampleConfig) ⟨Tables.new, []⟩ sampleEvents).calls.map
        (·.phase)) =
      [.answered (.acting ⟨1, "", "", "en"⟩ 7 "owner"),
       .answered (.acting ⟨2, "", "", "en"⟩ 7 "admin"),
       .answered .forbidden, .answered .unauthenticated, .answered .unauthenticated] := by
  rw [answered_as_granted sampleConfig sampleEvents (by simp [sampleEvents, Event.Orderly, sampleConfig])]
  decide +kernel

end Vekst.Identity.Access
