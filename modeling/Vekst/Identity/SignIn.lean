import Vekst.Ledger.Store

namespace Vekst.Identity
open Ledger (require)

/-! ## The four tables -/

structure UserRow where
  id : UUID
  email : Option String
  name : Option String
  locale : String
deriving DecidableEq, Repr

structure IdentityRow where
  provider : String
  subject : String
  userID : UUID
deriving DecidableEq, Repr

structure SessionRow where
  tokenSHA256 : String
  userID : UUID
  expiresAt : Timestamp
  userAgent : Option String
deriving DecidableEq, Repr

structure AuthFlowRow where
  id : UUID
  state : String
  nonce : String
  codeVerifier : String
  expiresAt : Timestamp
deriving DecidableEq, Repr

structure Database where
  users : List UserRow
  identities : List IdentityRow
  sessions : List SessionRow
  authFlows : List AuthFlowRow
deriving DecidableEq, Repr

/-- The configuration, and what the code takes from its libraries. -/
structure Service where
  configured : Bool
  sessionLifetime : Nat
  authFlowLifetime : Nat
  /-- `strings.ToLower`. -/
  toLower : String → String
  /-- `lower` of the database. -/
  lower : String → String
  hashToken : String → String

/-! ## identity.sql -/

def findIdentity (d : Database) (provider subject : String) : Option IdentityRow :=
  d.identities.find? fun x => x.provider = provider && x.subject = subject

def insertUser (s : Service) (row : UserRow) (d : Database) : Except Failure Database := do
  require (row.email.all fun email => s.lower email = email) "users_email_lowercase"
  require (row.locale = "en" || row.locale = "ru") "users_locale_check"
  require (d.users.all (·.id ≠ row.id)) "users_pkey"
  require (d.users.all fun x => x.email = none || x.email ≠ row.email)
    "users_email_key"
  return { d with users := d.users ++ [row] }

def insertIdentity (row : IdentityRow) (d : Database) : Except Failure Database := do
  require (findIdentity d row.provider row.subject).isNone "user_identities_pkey"
  return { d with identities := d.identities ++ [row] }

def insertSession (row : SessionRow) (d : Database) : Except Failure Database := do
  require (d.sessions.all (·.tokenSHA256 ≠ row.tokenSHA256))
    "sessions_token_sha256_key"
  require (d.users.any (·.id = row.userID)) "sessions_user_id_fkey"
  return { d with sessions := d.sessions ++ [row] }

def insertAuthFlow (row : AuthFlowRow) (d : Database) : Except Failure Database := do
  require (d.authFlows.all (·.id ≠ row.id)) "auth_flows_pkey"
  require (d.authFlows.all (·.state ≠ row.state)) "auth_flows_state_key"
  return { d with authFlows := d.authFlows ++ [row] }

/-- What `ConsumeAuthFlow` selects. -/
def AuthFlowRow.pending (flow : AuthFlowRow) (now : Timestamp) (state : String) : Bool :=
  flow.state = state && now < flow.expiresAt

/-- One statement deletes the row and returns it. -/
def consumeAuthFlow (now : Timestamp) (state : String) (d : Database) :
    Except Failure (AuthFlowRow × Database) :=
  match d.authFlows.find? (·.pending now state) with
  | none => .error .noRows
  | some flow => .ok (flow, { d with authFlows := d.authFlows.filter (!·.pending now state) })

/-! ## signin.go -/

namespace Code

def notConfigured : String := "auth_not_configured"

def invalidFlow : String := "invalid_flow"

def invalidToken : String := "invalid_token"

def unverifiedEmail : String := "unverified_email"

def emailTaken : String := "email_taken"

def internal : String := "internal_error"

end Code

def postSignInPath : String := "/app"

def signInPath : String := "/signin"

/-- The random values of one start, and its two readings of the clock as one. -/
structure StartDraws where
  id : UUID
  state : String
  nonce : String
  verifier : String
  now : Timestamp
deriving DecidableEq, Repr

/-- The pending row; its identifier travels in the cookie, its state in the URL. -/
def handleStart (s : Service) (draws : StartDraws) (d : Database) :
    Except String (AuthFlowRow × Database) :=
  if !s.configured then .error Code.notConfigured
  else
    let row : AuthFlowRow := {
      id := draws.id
      state := draws.state
      nonce := draws.nonce
      codeVerifier := draws.verifier
      expiresAt := draws.now + s.authFlowLifetime }
    match insertAuthFlow row d with
    | .error _ => .error Code.internal
    | .ok after => .ok (row, after)

/-- What a callback carries; the cookie is whatever its browser sends under the flow's name. -/
structure Request where
  state : String
  cookie : Option String
  code : String
  userAgent : String
deriving DecidableEq, Repr

structure IDClaims where
  subject : String
  email : String
  emailVerified : Bool
  name : String
  locale : String
deriving DecidableEq, Repr

/-- A token whose signature, issuer, audience and expiry the library has verified. -/
structure IDToken where
  nonce : String
  claims : IDClaims
deriving DecidableEq, Repr

def verifyIDToken (token : IDToken) (wantNonce : String) : Option IDClaims :=
  if token.nonce ≠ wantNonce then none
  else if token.claims.subject = "" then none
  else some token.claims

inductive Answer where
  | failed (code : String)
  | signedIn (session : SessionRow)
deriving DecidableEq, Repr

/-- Where the browser is sent. -/
def Answer.location : Answer → String
  | .failed code => signInPath ++ "?auth_error=" ++ code
  | .signedIn _ => postSignInPath

/-- What is left of `handleCallback`: its next transaction or request, or its answer. -/
inductive Phase where
  | consuming
  | exchanging
  | resolving (claims : IDClaims)
  | issuing (userID : UUID)
  | answered (answer : Answer)
deriving DecidableEq, Repr

/-- A callback under way; `flow` is set once the row is consumed. -/
structure Callback where
  request : Request
  flow : Option AuthFlowRow
  phase : Phase
deriving DecidableEq, Repr

namespace Callback

def fail (c : Callback) (code : String) : Callback := { c with phase := .answered (.failed code) }

end Callback

def providerGoogle : String := "google"

/-- The part of `handleCallback` before its first transaction. -/
def handleCallback (s : Service) (request : Request) : Callback :=
  let c : Callback := ⟨request, none, .consuming⟩
  if !s.configured then c.fail Code.notConfigured
  else if request.state = "" || request.cookie = none || request.cookie = some "" then
    c.fail Code.invalidFlow
  else c

/-- The part between the consumed row and the exchange of the code. -/
def checkFlow (c : Callback) (flow : AuthFlowRow) : Callback :=
  let c := { c with flow := some flow }
  if c.request.cookie ≠ some flow.id.text then c.fail Code.invalidFlow
  else if c.request.code = "" then c.fail Code.invalidFlow
  else { c with phase := .exchanging }

/-- The part between the exchange and the account; `reply` is absent when the exchange fails. -/
def checkToken (c : Callback) (flow : AuthFlowRow) (reply : Option IDToken) : Callback :=
  match reply.bind (verifyIDToken · flow.nonce) with
  | none => c.fail Code.invalidToken
  | some claims =>
      if !claims.emailVerified then c.fail Code.unverifiedEmail
      else { c with phase := .resolving claims }

def text (v : String) : Option String := if v = "" then none else some v

def supportedLocales : List String := ["en", "ru"]

def normaliseLocale (s : Service) (claim : String) : String :=
  let base := String.ofList ((s.toLower claim).toList.takeWhile (· ≠ '-'))
  if base ∈ supportedLocales then base else "en"

/-- A known subject uses its account and writes nothing; an unknown one provisions. -/
def resolveOrProvision (s : Service) (newID : UUID) (claims : IDClaims) (d : Database) :
    Except String (UUID × Database) :=
  let provision : Except Failure (UUID × Database) :=
    match findIdentity d providerGoogle claims.subject with
    | some identity => .ok (identity.userID, d)
    | none => do
        let d ← insertUser s ⟨newID, text (s.toLower claims.email), text claims.name,
          normaliseLocale s claims.locale⟩ d
        let d ← insertIdentity ⟨providerGoogle, claims.subject, newID⟩ d
        return (newID, d)
  match provision with
  | .ok result => .ok result
  | .error (.constraint "users_email_key") => .error Code.emailTaken
  | .error _ => .error Code.internal

def createSession (s : Service) (token : String) (now : Timestamp) (userID : UUID)
    (userAgent : String) (d : Database) : Except Failure (SessionRow × Database) := do
  let row : SessionRow :=
    ⟨s.hashToken token, userID, now + s.sessionLifetime, text userAgent⟩
  let d ← insertSession row d
  return (row, d)

/-! ## Browsers one after another, callbacks side by side -/

/-- What moves a callback on: its transactions are single statements or touch no flow and no
session before they insert one, so each is one step. -/
inductive Turn where
  | consume (now : Timestamp)
  | exchange (reply : Option IDToken)
  | resolve (newID : UUID)
  | issue (token : String) (now : Timestamp)
  /-- The transaction fails for a reason of its own, or the exchange is cut off. -/
  | fault
deriving DecidableEq, Repr

/-- One step of a callback, where it is the step the callback has come to. -/
def Callback.turn (s : Service) (d : Database) (c : Callback) :
    Turn → Option (Callback × Database)
  | .consume now => match c.phase with
      | .consuming => match consumeAuthFlow now c.request.state d with
          | .error _ => some (c.fail Code.invalidFlow, d)
          | .ok (flow, after) => some (checkFlow c flow, after)
      | _ => none
  | .exchange reply => match c.phase, c.flow with
      | .exchanging, some flow => some (checkToken c flow reply, d)
      | _, _ => none
  | .resolve newID => match c.phase with
      | .resolving claims => match resolveOrProvision s newID claims d with
          | .error code => some (c.fail code, d)
          | .ok (userID, after) => some ({ c with phase := .issuing userID }, after)
      | _ => none
  | .issue token now => match c.phase with
      | .issuing userID => match createSession s token now userID c.request.userAgent d with
          | .error _ => some (c.fail Code.internal, d)
          | .ok (session, after) =>
              some ({ c with phase := .answered (.signedIn session) }, after)
      | _ => none
  | .fault => match c.phase with
      | .consuming => some (c.fail Code.invalidFlow, d)
      | .exchanging => some (c.fail Code.invalidToken, d)
      | .resolving _ | .issuing _ => some (c.fail Code.internal, d)
      | .answered _ => none

/-- The database, the rows the starts have left in it so far, and the callbacks that came. -/
structure World where
  database : Database
  started : List AuthFlowRow
  callbacks : List Callback
deriving DecidableEq, Repr

inductive Event where
  | start (draws : StartDraws)
  | callback (request : Request)
  | turn (i : Nat) (turn : Turn)
deriving DecidableEq, Repr

def fire (s : Service) (w : World) : Event → Option World
  | .start draws => match handleStart s draws w.database with
      | .error _ => some w
      | .ok (row, after) => some { w with database := after, started := w.started ++ [row] }
  | .callback request => some { w with callbacks := w.callbacks ++ [handleCallback s request] }
  | .turn i turn => do
      let c ← w.callbacks[i]?
      let (moved, after) ← c.turn s w.database turn
      return { w with database := after, callbacks := w.callbacks.set i moved }

def fireAll (s : Service) (w : World) : List Event → Option World
  | [] => some w
  | event :: rest => (fire s w event).bind fun next => fireAll s next rest

/-- Nobody is signing in yet. -/
def World.idle (d : Database) : World := ⟨d, d.authFlows, []⟩

end Vekst.Identity
