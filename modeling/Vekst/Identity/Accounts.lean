import Vekst.Identity.SignIn
import Vekst.Isolation.System

namespace Vekst.Identity
open Isolation

/-! ## Accounts under sign-ins side by side -/

inductive AccountWrite where
  | insertUser (row : UserRow)
  | insertIdentity (row : IdentityRow)
deriving DecidableEq, Repr

/-- The entries of unique indexes, which an insert holds to the end of its transaction. -/
inductive AccountLock where
  | user (id : UUID)
  | email (email : String)
  | identity (provider subject : String)
deriving DecidableEq, Repr

def Database.applyAccount (d : Database) : AccountWrite → Database
  | .insertUser row => { d with users := d.users ++ [row] }
  | .insertIdentity row => { d with identities := d.identities ++ [row] }

def AccountWrite.locks : AccountWrite → List AccountLock
  | .insertUser row => .user row.id :: row.email.toList.map .email
  | .insertIdentity row => [.identity row.provider row.subject]

instance : Store Database AccountWrite Failure AccountLock where
  apply := Database.applyAccount
  locks := AccountWrite.locks
  check _ _ := .ok ()

abbrev AccountTx (α : Type) := Prog Database AccountWrite Failure α

/-- Verified claims at `resolveOrProvision`, and the identifier the database would draw. -/
structure Resolution where
  claims : IDClaims
  newID : UUID
deriving DecidableEq, Repr

def newUser (s : Service) (call : Resolution) : UserRow where
  id := call.newID
  email := text (s.toLower call.claims.email)
  name := text call.claims.name
  locale := normaliseLocale s call.claims.locale

def newIdentity (call : Resolution) : IdentityRow where
  provider := providerGoogle
  subject := call.claims.subject
  userID := call.newID

/-- `InsertIdentity`, the last statement of a sign-in that provisions. -/
def bindIdentity (call : Resolution) : AccountTx UUID :=
  Prog.exec fun d =>
    (insertIdentity (newIdentity call) d).map fun _ =>
      ([.insertIdentity (newIdentity call)], call.newID)

/-- `InsertUser`, and the identity after it. -/
def provision (s : Service) (call : Resolution) : AccountTx UUID := do
  Prog.exec fun d =>
    (insertUser s (newUser s call) d).map fun _ => ([.insertUser (newUser s call)], ())
  bindIdentity call

/-- The transaction of `resolveOrProvision`, statement by statement. -/
def resolveAccount (s : Service) (call : Resolution) : AccountTx UUID := do
  match ← Prog.query fun d => .ok (findIdentity d providerGoogle call.claims.subject) with
  | some identity => return identity.userID
  | none => provision s call

/-- What a sign-in is answered, beside the claims it came with. -/
structure Resolved where
  claims : IDClaims
  result : Except String UUID
deriving DecidableEq, Repr

abbrev AccountJob := Isolation.Job Database AccountWrite Failure Empty Empty Resolution Resolved

abbrev AccountClient := Client Database AccountWrite Failure Empty Empty Resolution Resolved

abbrev AccountSystem := System Database AccountWrite Failure Empty Empty Resolution Resolved

abbrev AccountEvent := Isolation.Event Failure Empty Resolution

def resolved (claims : IDClaims) : Except Failure UUID → AccountJob
  | .ok userID => .done ⟨claims, .ok userID⟩
  | .error e => .done ⟨claims, .error <|
      if e = .constraint "users_email_key" then Code.emailTaken else Code.internal⟩

def accountBody (s : Service) (call : Resolution) : AccountJob :=
  inTx (resolved call.claims) (resolveAccount s call)

/-- A database no sign-in is connected to. -/
def Database.idle (d : Database) : AccountSystem := ⟨d, []⟩

end Vekst.Identity
