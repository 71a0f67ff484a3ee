import Vekst.Isolation.System
import Vekst.Money.Exponents
import Vekst.Taxonomy.Template

namespace Vekst.Tenancy
open Isolation Taxonomy
open Ledger (require)

/-! ## The tables -/

structure OrganizationRow where
  id : UUID
  name : String
  country : String
  baseCurrency : String
deriving DecidableEq, Repr

structure EntityRow where
  orgID : UUID
  id : UUID
  name : String
deriving DecidableEq, Repr

structure MembershipRow where
  orgID : UUID
  userID : UUID
  role : String
deriving DecidableEq, Repr

structure Database where
  users : List UUID
  organizations : List OrganizationRow
  entities : List EntityRow
  categories : Table
  memberships : List MembershipRow
deriving DecidableEq, Repr

inductive Write where
  | insertOrganization (row : OrganizationRow)
  | insertEntity (row : EntityRow)
  | insertCategory (row : Category)
  | insertMembership (row : MembershipRow)
deriving DecidableEq, Repr

/-- The entries of unique indexes, which an insert holds to the end of its transaction. -/
inductive Lock where
  | organization (id : UUID)
  | entity (orgID id : UUID)
  | category (id : UUID)
  | categoryCode (version : String) (orgID : Option UUID) (code : String)
  | membership (orgID userID : UUID)
deriving DecidableEq, Repr

def Database.apply (d : Database) : Write → Database
  | .insertOrganization row => { d with organizations := d.organizations ++ [row] }
  | .insertEntity row => { d with entities := d.entities ++ [row] }
  | .insertCategory row => { d with categories := d.categories ++ [row] }
  | .insertMembership row => { d with memberships := d.memberships ++ [row] }

def Write.locks : Write → List Lock
  | .insertOrganization row => [.organization row.id]
  | .insertEntity row => [.entity row.orgID row.id]
  | .insertCategory row => [.category row.id, .categoryCode row.taxonomyVersion row.orgID row.code]
  | .insertMembership row => [.membership row.orgID row.userID]

inductive TenancyFailure where
  | database (cause : Failure)
  | adopting (cause : AdoptFailure)
  /-- `CreateOrganization` needs a creator to own it. -/
  | noCreator
  /-- `InTx` called with a zero `OrgID`. -/
  | noTenant
  | noEntity
deriving DecidableEq, Repr

instance : Store Database Write TenancyFailure Lock where
  apply := Database.apply
  locks := Write.locks
  check _ _ := .ok ()

abbrev TenancyTx (α : Type) := Prog Database Write TenancyFailure α

/-! ## tenancy.sql -/

/-- `length(btrim(name)) > 0`; a text column stores no U+0000. -/
def checkName (name constraint : String) : Except Failure Unit := do
  if '\x00' ∈ name.toList then throw (.fatal "22021")
  require (name.toList.any (· ≠ ' ')) constraint

/-- `^[A-Z]{n}$`. -/
def capitals (n : Nat) (code : String) : Bool :=
  code.length = n && code.toList.all fun c => 'A' ≤ c && c ≤ 'Z'

def insertOrganization (row : OrganizationRow) (d : Database) : Except Failure Unit := do
  checkName row.name "organizations_name_check"
  require (capitals 2 row.country) "organizations_country_check"
  require (capitals 3 row.baseCurrency) "organizations_base_currency_check"
  require (d.organizations.all (·.id ≠ row.id)) "organizations_pkey"

def insertEntity (row : EntityRow) (d : Database) : Except Failure Unit := do
  checkName row.name "entities_name_check"
  require (d.entities.all fun x => x.orgID ≠ row.orgID || x.id ≠ row.id) "entities_pkey"
  require (d.organizations.any (·.id = row.orgID)) "entities_org_id_fkey"

def insertMembership (row : MembershipRow) (d : Database) : Except Failure Unit := do
  require (row.role ∈ ["owner", "admin", "approver", "viewer"]) "memberships_role_check"
  require (d.memberships.all fun x => x.orgID ≠ row.orgID || x.userID ≠ row.userID)
    "memberships_pkey"
  require (d.organizations.any (·.id = row.orgID)) "memberships_org_id_fkey"
  require (d.users.any (· = row.userID)) "memberships_user_id_fkey"

/-- `orgs_for_user`. -/
def orgsForUser (userID : UUID) (d : Database) : List MembershipRow :=
  d.memberships.filter (·.userID = userID)

/-- `ListEntities` under the organisation's own policy. -/
def listEntities (org : UUID) (d : Database) : List EntityRow :=
  (d.entities.filter (·.orgID = org)).insertionSort fun a b => a.name ≤ b.name

/-! ## One transaction -/

/-- A statement that inserts a row its table admits. -/
def insertRow (checks : Database → Except Failure Unit) (write : Write) : TenancyTx Unit :=
  Prog.exec fun d =>
    match checks d with
    | .ok () => .ok ([write], ())
    | .error e => .error (.database e)

/-- The loop over the template's rows, the identifiers drawn from the `n`th on. -/
def adoptRows (version : String) (org : UUID) (draw : Nat → UUID) (globalByCode : ByCode) :
    List TemplateRow → Nat → ByCode → TenancyTx Unit
  | [], _, _ => return ()
  | r :: rest, n, orgByCode => do
      let parentID ← Prog.ofExcept ((resolveParent globalByCode orgByCode r).mapError .adopting)
      Prog.exec fun d =>
        match Taxonomy.insertCategory (some org) (adoptedRow version org (draw n) parentID r) none
            d.categories with
        | .ok after => .ok ((after.drop d.categories.length).map .insertCategory, ())
        | .error e => .error (.database e)
      adoptRows version org draw globalByCode rest (n + 1) ((r.code, draw n) :: orgByCode)

/-- The rows only a migration writes. -/
structure Service where
  templates : List TemplateRow

def taxonomyVersion : String := "v1"

def adoptIndustryTemplate (s : Service) (org : UUID) (draw : Nat → UUID) : TenancyTx Unit := do
  let rows ← Prog.query fun _ => .ok (industryTemplate s.templates taxonomyVersion)
  let shared ← Prog.query fun d => .ok (effectiveTaxonomy org taxonomyVersion d.categories)
  adoptRows taxonomyVersion org draw (globalByCode shared) rows 0 []

/-! ## tenancy.go -/

structure New where
  name : String
  country : String
  baseCurrency : String
  entityName : String
deriving DecidableEq, Repr

/-- A call of `Create`, with the identifiers it mints and those the database would draw. -/
structure Call where
  userID : UUID
  new : New
  orgID : UUID
  entityID : UUID
  categoryIDs : Nat → UUID

structure Created where
  orgID : UUID
  entityID : UUID
deriving DecidableEq, Repr

inductive Err where
  | code (code : String)
  | checking (cause : TenancyFailure)
  | creating (cause : TenancyFailure)
  | readingBack (cause : TenancyFailure)
deriving DecidableEq, Repr

namespace Code

def nameRequired : String := "org_name_required"

def entityNameRequired : String := "org_entity_name_required"

def unsupportedCountry : String := "org_unsupported_country"

def unsupportedCurrency : String := "org_unsupported_currency"

def alreadyMember : String := "org_already_a_member"

end Code

def supportedCountries : List String := ["BY", "KZ", "PL"]

def Call.organization (call : Call) : OrganizationRow :=
  ⟨call.orgID, call.new.name, call.new.country, call.new.baseCurrency⟩

def Call.entity (call : Call) : EntityRow := ⟨call.orgID, call.entityID, call.new.entityName⟩

def Call.membership (call : Call) : MembershipRow := ⟨call.orgID, call.userID, "owner"⟩

/-- The transaction of `CreateOrganization`. -/
def organizationTx (s : Service) (call : Call) : TenancyTx Unit := do
  insertRow (insertOrganization call.organization) (.insertOrganization call.organization)
  insertRow (insertEntity call.entity) (.insertEntity call.entity)
  adoptIndustryTemplate s call.orgID call.categoryIDs
  insertRow (insertMembership call.membership) (.insertMembership call.membership)

/-- The single entity of the organisation, as the first row. -/
def entityTx (org : UUID) : TenancyTx UUID :=
  Prog.query fun d =>
    match listEntities org d with
    | [] => .error .noEntity
    | first :: _ => .ok first.id

abbrev TenancyJob :=
  Isolation.Job Database Write TenancyFailure Empty Empty Call (Except Err Created)

abbrev TenancyClient := Client Database Write TenancyFailure Empty Empty Call (Except Err Created)

abbrev TenancySystem := System Database Write TenancyFailure Empty Empty Call (Except Err Created)

abbrev TenancyEvent := Isolation.Event TenancyFailure Empty Call

def readBack (call : Call) : Except TenancyFailure UUID → TenancyJob
  | .ok entity => .done (.ok ⟨call.orgID, entity⟩)
  | .error e => .done (.error (.readingBack e))

/-- What follows the transaction that creates the organisation. -/
def organizationCreated (call : Call) : Except TenancyFailure Unit → TenancyJob
  | .ok () => inTx (readBack call) (entityTx call.orgID)
  | .error e => .done (.error (.creating e))

def createOrganization (s : Service) (call : Call) : TenancyJob :=
  if call.userID = 0 then .done (.error (.creating .noCreator))
  else if call.orgID = 0 then .done (.error (.creating .noTenant))
  else inTx (organizationCreated call) (organizationTx s call)

/-- What follows the check of the caller's memberships. -/
def membershipsChecked (s : Service) (call : Call) :
    Except TenancyFailure (List MembershipRow) → TenancyJob
  | .ok memberships =>
      if 0 < memberships.length then .done (.error (.code Code.alreadyMember))
      else createOrganization s call
  | .error e => .done (.error (.checking e))

def create (s : Service) (call : Call) : TenancyJob :=
  if call.new.name = "" then .done (.error (.code Code.nameRequired))
  else if call.new.entityName = "" then .done (.error (.code Code.entityNameRequired))
  else if call.new.country ∉ supportedCountries then .done (.error (.code Code.unsupportedCountry))
  else if (Money.exponent call.new.baseCurrency).isNone then
    .done (.error (.code Code.unsupportedCurrency))
  else inTx (membershipsChecked s call) (Prog.query fun d => .ok (orgsForUser call.userID d))

/-- A database no call is connected to. -/
def Database.idle (d : Database) : TenancySystem := ⟨d, []⟩

end Vekst.Tenancy
