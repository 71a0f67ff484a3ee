import Vekst.Identity.SignIn
import Vekst.Tenancy.Organisations

namespace Vekst.Identity.Access
open Ledger (require)
open Tenancy (MembershipRow)

/-! ## The tables a request is decided by -/

structure Session extends SessionRow where
  id : UUID
  lastSeenAt : Timestamp
  revokedAt : Option Timestamp
deriving DecidableEq, Repr

structure Tables where
  users : List UserRow
  authFlows : List AuthFlowRow
  sessions : List Session
  organizations : List UUID
  memberships : List MembershipRow
deriving DecidableEq, Repr

structure Config extends Service where
  sessionRetention : Nat

/-! ## identity.sql -/

/-- `InsertUser`, which reads no other table. -/
def insertUser (c : Config) (row : UserRow) (d : Tables) : Except Failure Tables := do
  let after ← Identity.insertUser c.toService row ⟨d.users, [], [], []⟩
  return { d with users := after.users }

def insertSession (id : UUID) (now : Timestamp) (row : SessionRow) (d : Tables) :
    Except Failure Tables := do
  require (d.sessions.all (·.id ≠ id)) "sessions_pkey"
  require (d.sessions.all (·.tokenSHA256 ≠ row.tokenSHA256)) "sessions_token_sha256_key"
  require (d.users.any (·.id = row.userID)) "sessions_user_id_fkey"
  return { d with sessions := d.sessions ++ [⟨row, id, now, none⟩] }

/-- What `FindLiveSessionWithUser` selects, before its join. -/
def Session.live (session : Session) (tokenSHA256 : String) (now : Timestamp) : Bool :=
  session.tokenSHA256 = tokenSHA256 && session.revokedAt.isNone && now < session.expiresAt

def findLiveSessionWithUser (tokenSHA256 : String) (now : Timestamp) (d : Tables) :
    Option (Session × UserRow) :=
  (d.sessions.filter (·.live tokenSHA256 now)).findSome? fun session =>
    (d.users.find? (·.id = session.userID)).map (session, ·)

def touchSession (now : Timestamp) (id : UUID) (d : Tables) : Tables :=
  { d with sessions := d.sessions.map fun session =>
      if session.id = id then { session with lastSeenAt := now } else session }

def revokeSession (now : Timestamp) (tokenSHA256 : String) (d : Tables) : Tables :=
  { d with sessions := d.sessions.map fun session =>
      if session.tokenSHA256 = tokenSHA256 && session.revokedAt.isNone then
        { session with revokedAt := some now }
      else session }

def deleteExpiredAuthFlows (now : Timestamp) (d : Tables) : Tables :=
  { d with authFlows := d.authFlows.filter (now ≤ ·.expiresAt) }

def deleteExpiredSessions (cutoff : Timestamp) (d : Tables) : Tables :=
  { d with sessions := d.sessions.filter (cutoff ≤ ·.expiresAt) }

/-! ## tenancy.sql, inside `InTx` of one organisation -/

def roles : List String := ["owner", "admin", "approver", "viewer"]

def insertOrganization (org : UUID) (d : Tables) : Except Failure Tables := do
  require (org ≠ UUID.zero) "no_tenant"
  require (d.organizations.all (· ≠ org)) "organizations_pkey"
  return { d with organizations := d.organizations ++ [org] }

/-- The policy's check is the row's organisation against the transaction's. -/
def insertMembership (org : UUID) (row : MembershipRow) (d : Tables) : Except Failure Tables := do
  require (org ≠ UUID.zero) "no_tenant"
  require (row.orgID = org) "tenant_isolation"
  require (row.role ∈ roles) "memberships_role_check"
  require (d.memberships.all fun x => x.orgID ≠ row.orgID || x.userID ≠ row.userID)
    "memberships_pkey"
  require (d.organizations.any (· = row.orgID)) "memberships_org_id_fkey"
  require (d.users.any (·.id = row.userID)) "memberships_user_id_fkey"
  return { d with memberships := d.memberships ++ [row] }

/-- The statement names a user alone; the organisation is the policy's part. -/
def selects (org userID : UUID) (row : MembershipRow) : Bool :=
  row.orgID = org && row.userID = userID

def updateMembershipRole (org userID : UUID) (role : String) (d : Tables) :
    Except Failure Tables := do
  require (org ≠ UUID.zero) "no_tenant"
  require (role ∈ roles || d.memberships.all fun row => !selects org userID row)
    "memberships_role_check"
  return { d with
    memberships := d.memberships.map fun row =>
      if selects org userID row then { row with role := role } else row }

def deleteMembership (org userID : UUID) (d : Tables) : Except Failure Tables := do
  require (org ≠ UUID.zero) "no_tenant"
  return { d with memberships := d.memberships.filter fun row => !selects org userID row }

/-! ## session.go, expiry.go, orgid.go -/

/-- The person, as the rest of the core sees them. -/
structure User where
  id : UUID
  email : String
  name : String
  locale : String
deriving DecidableEq, Repr

def UserRow.user (row : UserRow) : User :=
  ⟨row.id, row.email.getD "", row.name.getD "", row.locale⟩

def createSession (c : Config) (id : UUID) (token : String) (now : Timestamp) (userID : UUID)
    (userAgent : String) (d : Tables) : Except Failure Tables :=
  insertSession id now
    ⟨c.hashToken token, userID, now + c.sessionLifetime, text userAgent⟩ d

/-- A value the service would look a session up by; no cookie and an empty one are the same. -/
def presented (cookie : Option String) : Option String :=
  cookie.filter (· ≠ "")

/-- The transaction of `Resolve`: the read, and the touch of what it found. -/
def resolve (tokenSHA256 : String) (now : Timestamp) (d : Tables) : Option User × Tables :=
  match findLiveSessionWithUser tokenSHA256 now d with
  | none => (none, d)
  | some (session, row) => (some (UserRow.user row), touchSession now session.id d)

/-- `expire`: the cutoff is by the service's clock, the flows' expiry by the database's. -/
def expire (c : Config) (now databaseNow : Timestamp) (d : Tables) : Tables :=
  deleteExpiredSessions (now - c.sessionRetention) (deleteExpiredAuthFlows databaseNow d)

def orgsForUser (userID : UUID) (d : Tables) : List MembershipRow :=
  d.memberships.filter (·.userID = userID)

/-- The role, or nothing: `ErrNotAMember`. -/
def orgIDForSession (userID requested : UUID) (d : Tables) : Option String :=
  if requested = UUID.zero then none
  else (orgsForUser userID d).foldl
    (fun found row => if row.orgID = requested then some row.role else found) none

/-! ## A request, and what goes on beside it -/

/-- Everything that writes one of the tables. -/
inductive Change where
  | provision (row : UserRow)
  | signIn (id : UUID) (token : String) (now : Timestamp) (userID : UUID) (userAgent : String)
  | logout (cookie : Option String) (now : Timestamp)
  | expire (now databaseNow : Timestamp)
  | insertOrganization (org : UUID)
  | insertMembership (org : UUID) (row : MembershipRow)
  | updateMembershipRole (org userID : UUID) (role : String)
  | deleteMembership (org userID : UUID)
deriving DecidableEq, Repr

/-- What requests are decided by, whatever keeps it: its two reads, and its changes. -/
structure Authority (σ : Type) where
  change : Change → σ → σ
  resolve : String → Timestamp → σ → Option User × σ
  role : UUID → UUID → σ → Option String

/-- A refused statement leaves its tables as they were. -/
def committed (before : Tables) : Except Failure Tables → Tables
  | .ok after => after
  | .error _ => before

/-- The core as it runs. -/
def tables (c : Config) : Authority Tables where
  change
    | .provision row, d => committed d (insertUser c row d)
    | .signIn id token now userID userAgent, d =>
        committed d (createSession c id token now userID userAgent d)
    | .logout cookie now, d => match presented cookie with
        | none => d
        | some token => revokeSession now (c.hashToken token) d
    | .expire now databaseNow, d => expire c now databaseNow d
    | .insertOrganization org, d => committed d (insertOrganization org d)
    | .insertMembership org row, d => committed d (insertMembership org row d)
    | .updateMembershipRole org userID role, d =>
        committed d (updateMembershipRole org userID role d)
    | .deleteMembership org userID, d => committed d (deleteMembership org userID d)
  resolve := resolve
  role := orgIDForSession

inductive Answer where
  /-- The handler of an exempt procedure answers. -/
  | open_ (user : Option User)
  | unauthenticated
  | invalidOrganization
  | forbidden
  | internal
  /-- The handler acts for the organisation, as the member it found. -/
  | acting (user : User) (org : UUID) (role : String)
deriving DecidableEq, Repr

inductive Phase where
  | arriving
  | binding (user : User) (org : UUID)
  | answered (answer : Answer)
deriving DecidableEq, Repr

/-- A request under way; `organization` is absent where the identifier does not parse. -/
structure Call where
  procedure : String
  cookie : Option String
  organization : Option UUID
  phase : Phase
deriving DecidableEq, Repr

def healthServiceCheckProcedure : String := "/vekst.v1.HealthService/Check"

def exempt : List String := [healthServiceCheckProcedure]

/-- The interceptor and `caller`, on what the middleware put into the context. -/
def Call.intercept (call : Call) (user : Option User) : Call :=
  { call with phase :=
    if call.procedure ∈ exempt then .answered (.open_ user)
    else match user, call.organization with
      | none, _ => .answered .unauthenticated
      | some _, none => .answered .invalidOrganization
      | some user, some org => .binding user org }

structure World (σ : Type) where
  authority : σ
  calls : List Call
deriving DecidableEq, Repr

inductive Event where
  | change (change : Change)
  | call (procedure : String) (cookie : Option String) (organization : Option UUID)
  /-- The middleware's transaction, by the database's clock. -/
  | resolve (i : Nat) (now : Timestamp)
  /-- `OrgIDForSession`. -/
  | bind (i : Nat)
  /-- The transaction the request has come to fails. -/
  | fault (i : Nat)
deriving DecidableEq, Repr

namespace World
variable {σ : Type}

def setCall (w : World σ) (i : Nat) (call : Call) : World σ :=
  { w with calls := w.calls.set i call }

/-- `Middleware`, and the interceptor behind it. -/
def resolveCall (c : Config) (A : Authority σ) (w : World σ) (i : Nat) (call : Call)
    (now : Timestamp) : World σ :=
  match if c.configured then presented call.cookie else none with
  | none => w.setCall i (call.intercept none)
  | some token =>
      let (user, after) := A.resolve (c.hashToken token) now w.authority
      { w with authority := after }.setCall i (call.intercept user)

def bindCall (A : Authority σ) (w : World σ) (i : Nat) (call : Call) (user : User) (org : UUID) :
    World σ :=
  match A.role user.id org w.authority with
  | none => w.setCall i { call with phase := .answered .forbidden }
  | some role => w.setCall i { call with phase := .answered (.acting user org role) }

/-- An event that is not what the request has come to changes nothing. -/
def fire (c : Config) (A : Authority σ) (w : World σ) : Event → World σ
  | .change change => { w with authority := A.change change w.authority }
  | .call procedure cookie organization =>
      { w with calls := w.calls ++ [⟨procedure, cookie, organization, .arriving⟩] }
  | .resolve i now => match w.calls[i]? with
      | some call => if call.phase = .arriving then w.resolveCall c A i call now else w
      | none => w
  | .bind i => match w.calls[i]? with
      | some call => match call.phase with
          | .binding user org => w.bindCall A i call user org
          | _ => w
      | none => w
  | .fault i => match w.calls[i]? with
      | some call => match call.phase with
          | .arriving => w.setCall i (call.intercept none)
          | .binding _ _ => w.setCall i { call with phase := .answered .internal }
          | .answered _ => w
      | none => w

def run (c : Config) (A : Authority σ) (w : World σ) (events : List Event) : World σ :=
  events.foldl (fire c A) w

end World

/-! ## What the tables are for -/

/-- Who holds which token's session until when, and who has which role where. -/
structure Grants where
  users : List UserRow
  organizations : List UUID
  holder : String → Option (UserRow × Timestamp)
  role : UUID → UUID → Option String

namespace Grants

def hold (g : Grants) (tokenSHA256 : String) (held : Option (UserRow × Timestamp)) : Grants :=
  { g with holder := Function.update g.holder tokenSHA256 held }

def setRole (g : Grants) (org userID : UUID) (role : Option String) : Grants :=
  { g with role := fun o u => if o = org ∧ u = userID then role else g.role o u }

/-- A session begins with its sign-in and ends with its sign-out; there is no sweep. -/
def change (c : Config) : Change → Grants → Grants
  | .provision row, g => match Identity.insertUser c.toService row ⟨g.users, [], [], []⟩ with
      | .ok after => { g with users := after.users }
      | .error _ => g
  | .signIn _ token now userID _, g => match g.users.find? (·.id = userID) with
      | none => g
      | some row => g.hold (c.hashToken token) (some (row, now + c.sessionLifetime))
  | .logout cookie _, g => match presented cookie with
      | none => g
      | some token => g.hold (c.hashToken token) none
  | .expire _ _, g => g
  | .insertOrganization org, g =>
      if org = UUID.zero ∨ org ∈ g.organizations then g
      else { g with organizations := g.organizations ++ [org] }
  | .insertMembership org row, g =>
      if org ≠ UUID.zero ∧ row.orgID = org ∧ row.role ∈ roles ∧ g.role org row.userID = none ∧
          org ∈ g.organizations ∧ (g.users.any (·.id = row.userID)) then
        g.setRole org row.userID (some row.role)
      else g
  | .updateMembershipRole org userID role, g =>
      if role ∈ roles ∧ (g.role org userID).isSome then g.setRole org userID (some role) else g
  | .deleteMembership org userID, g => g.setRole org userID none

def resolve (tokenSHA256 : String) (now : Timestamp) (g : Grants) : Option User × Grants :=
  match g.holder tokenSHA256 with
  | some (row, until_) => (if now < until_ then some (UserRow.user row) else none, g)
  | none => (none, g)

def authority (c : Config) : Authority Grants where
  change := change c
  resolve := resolve
  role userID org g := g.role org userID

def none_ : Grants := ⟨[], [], fun _ => none, fun _ _ => none⟩

end Grants

/-- No session yet, and no member. -/
def Tables.new : Tables := ⟨[], [], [], [], []⟩

/-- Tokens and identifiers are random, and no sweep's clock is ahead of a later request's by more
than the retention. -/
def Event.Orderly (c : Config) : Event → Event → Prop
  | .change (.signIn id token _ _ _), .change (.signIn id' token' _ _ _) =>
      id ≠ id' ∧ c.hashToken token ≠ c.hashToken token'
  | .change (.expire now _), .resolve _ read => now ≤ read + c.sessionRetention
  | _, _ => True

end Vekst.Identity.Access
