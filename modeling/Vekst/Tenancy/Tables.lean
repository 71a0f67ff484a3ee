import Vekst.Relational.Policy

namespace Vekst.Tenancy

/-! ## The tables of the migrations that belong to organisations -/

inductive TableName where
  | organizations
  | entities
  | accounts
  | memberships
  | categories
  | classificationRules
  | vendors
  | importBatches
  | transactions
  | classifications
  | rawRows
  | importValidations
  | importProfiles
  | dedupSkips
  | internalTransfers
  | internalTransferMembers
  | reviewDecisions
  | classificationRuns
deriving DecidableEq, Repr

inductive Value where
  | uuid (n : Nat)
  | text (s : String)
  | number (n : Int)
  | boolean (b : Bool)
deriving DecidableEq, Repr

/-- A row of a table; `none` is NULL. -/
structure TableRow where
  table : TableName
  cell : String → Option Value

/-- A primary key, a unique constraint or a unique index. -/
structure Unique where
  columns : List String
  /-- `NULLS NOT DISTINCT`. -/
  nulls : Bool
  /-- Which rows a partial index holds. -/
  holds : TableRow → Bool

/-- A foreign key; into `users`, which no policy governs, none is listed. -/
structure Foreign where
  columns : List String
  references : TableName
  target : List String
  /-- `ON DELETE CASCADE`; any other one restricts. -/
  cascade : Bool

def unique (columns : List String) : Unique := ⟨columns, false, fun _ => true⟩

def uniqueNulls (columns : List String) : Unique := ⟨columns, true, fun _ => true⟩

/-- A foreign key between the rows of one organisation. -/
def within (references : TableName) (column : String) : Foreign :=
  ⟨["org_id", column], references, ["org_id", "id"], false⟩

def cascading (references : TableName) (column : String) : Foreign :=
  { within references column with cascade := true }

def ofOrganization : Foreign := ⟨["org_id"], .organizations, ["id"], false⟩

def uniques : TableName → List Unique
  | .organizations => [unique ["id"]]
  | .entities => [unique ["org_id", "id"]]
  | .accounts => [unique ["org_id", "id"], unique ["org_id", "entity_id", "external_ref"]]
  | .memberships => [unique ["org_id", "user_id"]]
  | .categories => [unique ["id"], uniqueNulls ["taxonomy_version", "org_id", "code"]]
  | .classificationRules => [unique ["id"],
      uniqueNulls ["taxonomy_version", "ruleset_version", "org_id", "priority"]]
  | .vendors => [unique ["id"], unique ["org_id", "key_version", "key"]]
  | .importBatches => [unique ["org_id", "id"], unique ["org_id", "file_key"],
      ⟨["org_id", "file_sha256"], false, fun r => r.cell "status" = some (.text "imported")⟩]
  | .transactions => [unique ["org_id", "id"]]
  | .classifications => [unique ["org_id", "id"]]
  | .rawRows => [unique ["org_id", "id"], unique ["org_id", "batch_id", "line_no"]]
  | .importValidations => [unique ["org_id", "id"], unique ["org_id", "batch_id"]]
  | .importProfiles => [unique ["org_id", "id"], unique ["org_id", "name"]]
  | .dedupSkips => [unique ["org_id", "id"], unique ["org_id", "batch_id", "line_no", "posting_no"]]
  | .internalTransfers => [unique ["org_id", "id"]]
  | .internalTransferMembers => [unique ["org_id", "txn_id"], unique ["org_id", "transfer_id", "side"]]
  | .reviewDecisions => [unique ["org_id", "id"],
      ⟨["org_id", "key_version", "counterparty_key"], false, fun r => r.cell "undone_at" = none⟩]
  | .classificationRuns => [unique ["org_id", "id"], unique ["org_id", "batch_id"]]

/-- The foreign keys that name the organisation beside the row. -/
def foreigns : TableName → List Foreign
  | .organizations => []
  | .entities => [ofOrganization]
  | .accounts => [within .entities "entity_id"]
  | .memberships => [ofOrganization, within .entities "entity_id"]
  | .categories => [ofOrganization]
  | .classificationRules => [ofOrganization]
  | .vendors => [ofOrganization]
  | .importBatches => [within .entities "entity_id", within .importProfiles "import_profile_id"]
  | .transactions => [within .entities "entity_id", within .accounts "account_id",
      within .importBatches "batch_id"]
  | .classifications => [within .transactions "transaction_id", within .classifications "superseded_by"]
  | .rawRows => [within .importBatches "batch_id"]
  | .importValidations => [within .importBatches "batch_id"]
  | .importProfiles => []
  | .dedupSkips => [within .importBatches "batch_id"]
  | .internalTransfers => [cascading .transactions "out_txn_id", cascading .transactions "in_txn_id"]
  | .internalTransferMembers => [cascading .transactions "txn_id",
      cascading .internalTransfers "transfer_id"]
  | .reviewDecisions => [ofOrganization]
  | .classificationRuns => [within .importBatches "batch_id"]

/-- The columns that refer to a category by its identifier alone. -/
def categoryColumns : TableName → List String
  | .categories => ["parent_id"]
  | .classificationRules | .vendors => ["category_id"]
  | _ => []

/-! ## Keys -/

structure TableKey where
  table : TableName
  columns : List String
  values : List (Option Value)
deriving DecidableEq, Repr

def Unique.key (u : Unique) (r : TableRow) : Option TableKey :=
  let values := u.columns.map r.cell
  if u.holds r && (u.nulls || values.all (·.isSome)) then some ⟨r.table, u.columns, values⟩ else none

/-- A reference with a NULL in it is none. -/
def Foreign.key (f : Foreign) (r : TableRow) : Option TableKey :=
  let values := f.columns.map r.cell
  if values.all (·.isSome) then some ⟨f.references, f.target, values⟩ else none

def categoryKey (id : Value) : TableKey := ⟨.categories, ["id"], [some id]⟩

/-! ## The triggers that look at other rows -/

def findRow (rows : List TableRow) (table : TableName) (cells : List (String × Option Value)) :
    Option TableRow :=
  rows.find? fun r => r.table = table && cells.all fun (column, value) =>
    r.cell column = value && value.isSome

/-- `categories_parent_is_visible`. -/
def parentIsVisible (rows : List TableRow) (r : TableRow) : Except Policy.Fault Unit :=
  match r.cell "parent_id" with
  | none => .ok ()
  | some id => match findRow rows .categories [("id", some id)] with
      | none => .error .reference
      | some parent =>
          if (parent.cell "org_id").isSome && parent.cell "org_id" ≠ r.cell "org_id" then
            .error .reference
          else .ok ()

/-- `rules_category_is_visible`; without a category nothing is found. -/
def categoryIsVisible (rows : List TableRow) (r : TableRow) : Except Policy.Fault Unit :=
  match findRow rows .categories [("id", r.cell "category_id")] with
  | none => .error .reference
  | some category =>
      if (category.cell "org_id").isSome && category.cell "org_id" ≠ r.cell "org_id" then
        .error .reference
      else if category.cell "is_leaf" ≠ some (.boolean true) ||
          category.cell "is_computed" = some (.boolean true) then .error .check
      else .ok ()

/-- `review_decision_category_is_visible`. -/
def decisionCategoryIsVisible (rows : List TableRow) (r : TableRow) : Except Policy.Fault Unit :=
  if r.cell "category_id" = none then .ok () else categoryIsVisible rows r

/-- `txn_base_currency_is_the_orgs`. -/
def baseCurrencyIsTheOrgs (rows : List TableRow) (r : TableRow) : Except Policy.Fault Unit :=
  if r.cell "base_currency" = none then .ok ()
  else if ((findRow rows .organizations [("id", r.cell "org_id")]).bind (·.cell "base_currency")) ≠
      r.cell "base_currency" then .error .check
  else .ok ()

/-- `txn_source_kind_matches_batch`. -/
def sourceKindMatchesBatch (rows : List TableRow) (r : TableRow) : Except Policy.Fault Unit :=
  let batch := findRow rows .importBatches [("org_id", r.cell "org_id"), ("id", r.cell "batch_id")]
  if batch.bind (·.cell "source_kind") ≠ r.cell "source_kind" then .error .check else .ok ()

def trigger (rows : List TableRow) (r : TableRow) : Except Policy.Fault Unit :=
  match r.table with
  | .categories => parentIsVisible rows r
  | .classificationRules | .vendors | .classifications => categoryIsVisible rows r
  | .reviewDecisions => decisionCategoryIsVisible rows r
  | .transactions => do
      baseCurrencyIsTheOrgs rows r
      sourceKindMatchesBatch rows r
  | _ => .ok ()

/-! ## Row-level security -/

/-- The column a policy compares with `app_current_org()`. -/
def ownerColumn : TableName → String
  | .organizations => "id"
  | _ => "org_id"

def TableRow.owner (r : TableRow) : Option Value := r.cell (ownerColumn r.table)

/-- The tables under their policies, whatever their CHECK constraints make of one row. -/
def schema (check : TableRow → Bool) : Policy.Schema TableRow TableKey Value where
  owner := TableRow.owner
  check
  keys r := (uniques r.table).filterMap (·.key r)
  needs r := (foreigns r.table).filterMap (·.key r)
  plain r := (categoryColumns r.table).filterMap fun column => (r.cell column).map categoryKey
  follows r := ((foreigns r.table).filter (·.cascade)).filterMap (·.key r)
  depth := 2
  trigger

/-! ## tx.go -/

/-- How a transaction is opened. -/
inductive Opened where
  /-- `InSystemTx`. -/
  | inSystemTx
  /-- `InTx`; the zero organisation is refused before anything is opened. -/
  | inTx (org : Nat)
deriving DecidableEq, Repr

/-- What `app_current_org()` is in a transaction. -/
def Opened.tenant : Opened → Option Value
  | .inSystemTx => none
  | .inTx org => if org = 0 then none else some (.uuid org)

end Vekst.Tenancy
