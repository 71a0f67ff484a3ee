import Vekst.Ledger.Store

namespace Vekst.Taxonomy
open Ledger

/-! ## The table every organisation shares -/

/-- A row of `categories`. -/
structure Category extends CategoryRow where
  /-- Absent on a row shared by every organisation. -/
  orgID : Option UUID
  parentID : Option UUID
deriving DecidableEq, Repr

abbrev Table := List Category

/-- Who runs a statement: an organisation, or a migration with the policies lifted. -/
abbrev Writer := Option UUID

/-- The read policy: a row that is shared, or mine. -/
def sees : Writer → Category → Bool
  | none, _ => true
  | some org, row => row.orgID.isNone || row.orgID = some org

/-- The write policy: only mine, and only as mine. -/
def writes : Writer → Category → Bool
  | none, _ => true
  | some org, row => row.orgID = some org

/-- The rows an organisation's own queries read. -/
def visibleRows (org : UUID) (table : Table) : List CategoryRow :=
  (table.filter (sees (some org))).map (·.toCategoryRow)

/-! ## The triggers -/

/-- What a row takes over: a root is its own section, any other row has its parent's. Absent when
the parent is unreadable or absent. -/
def inherited (writer : Writer) (table : Table) (code : String) (parentID : Option UUID) :
    Option String :=
  match parentID with
  | none => some code
  | some id => (table.find? fun row => sees writer row && row.id = id).map (·.pnlSection)

/-- The row's section after the trigger, of the one the statement states. -/
def categorySectionFollowsParent (writer : Writer) (table : Table) (code : String)
    (parentID : Option UUID) (pnlSection : Option String) : Except Failure (Option String) :=
  match inherited writer table code parentID with
  | none => .ok pnlSection
  | some inherited =>
      match pnlSection with
      | none => .ok (some inherited)
      | some stated =>
          if stated ≠ inherited then .error (.constraint "category_section_follows_parent")
          else .ok (some stated)

def categoriesParentIsVisible (writer : Writer) (table : Table) (row : Category) :
    Except Failure Unit :=
  match row.parentID with
  | none => .ok ()
  | some id =>
      require ((table.find? fun parent => sees writer parent && parent.id = id).any fun parent =>
        parent.orgID.isNone || parent.orgID = row.orgID) "categories_parent_is_visible"

/-! ## The statements -/

def notNull (pnlSection : Option String) : Except Failure String :=
  match pnlSection with
  | some text => .ok text
  | none => .error (.constraint "categories_pnl_section_not_null")

/-- The keys and checks a row's columns take part in, beside the other rows. -/
def checkColumns (others : Table) (row : Category) : Except Failure Unit := do
  require (!row.isComputed || !row.isLeaf) "categories_computed_has_formula"
  require (others.all fun other => !(other.taxonomyVersion = row.taxonomyVersion &&
    other.orgID = row.orgID && other.code = row.code)) "categories_code_unique"

/-- `categories_parent_id_fkey`, checked once the row is in the table. -/
def checkParent (table : Table) (row : Category) : Except Failure Unit :=
  require (row.parentID.all fun id => table.any (·.id = id)) "categories_parent_id_fkey"

/-- An insert of the row, with the section the statement states, if it states one. -/
def insertCategory (writer : Writer) (row : Category) (pnlSection : Option String) (table : Table) :
    Except Failure Table := do
  let pnlSection ← categorySectionFollowsParent writer table row.code row.parentID pnlSection
  let pnlSection ← notNull pnlSection
  let row := { row with pnlSection }
  require (writes writer row) "categories_write"
  require (table.all (·.id ≠ row.id)) "categories_pkey"
  checkColumns table row
  let after := table ++ [row]
  checkParent after row
  categoriesParentIsVisible writer after row
  return after

/-- The columns an update sets. -/
structure Assignment where
  code : Option String
  parentID : Option (Option UUID)
  pnlSection : Option (Option String)
deriving DecidableEq, Repr

/-- `UPDATE OF pnl_section, parent_id, code`. -/
def Assignment.fires (set : Assignment) : Bool :=
  set.code.isSome || set.parentID.isSome || set.pnlSection.isSome

/-- An update of the row of an id; one the writer may not write is not found. -/
def updateCategory (writer : Writer) (id : UUID) (set : Assignment) (table : Table) :
    Except Failure Table :=
  match table.find? fun row => writes writer row && row.id = id with
  | none => .ok table
  | some old => do
      let code := set.code.getD old.code
      let parentID := set.parentID.getD old.parentID
      let stated := set.pnlSection.getD (some old.pnlSection)
      let pnlSection ← if set.fires then
          categorySectionFollowsParent writer table code parentID stated
        else .ok stated
      let pnlSection ← notNull pnlSection
      let row := { old with code, parentID, pnlSection }
      checkColumns (table.filter (·.id ≠ id)) row
      let after := replaceBy (·.id) row table
      checkParent after row
      if set.parentID.isSome then categoriesParentIsVisible writer after row
      return after

inductive Statement where
  | insert (writer : Writer) (row : Category) (pnlSection : Option String)
  | update (writer : Writer) (id : UUID) (set : Assignment)
deriving DecidableEq, Repr

def Statement.run (table : Table) : Statement → Except Failure Table
  | insert writer row pnlSection => insertCategory writer row pnlSection table
  | update writer id set => updateCategory writer id set table

/-- The table after a statement; a refused one leaves it. -/
def Statement.after (table : Table) (statement : Statement) : Table :=
  match statement.run table with
  | .ok after => after
  | .error _ => table

end Vekst.Taxonomy
