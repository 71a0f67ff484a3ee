import Vekst.Review.Service
import Vekst.Taxonomy.Categories

namespace Vekst.Review
open Ledger Taxonomy

/-! ## The picker of the review queue -/

/-- A category a reviewer may choose. -/
structure Choice where
  id : UUID
  code : String
  name : String
  /-- Absent where the parent links run in a circle, on which the source's loop never ends. -/
  path : Option String
  isPNL : Bool
deriving DecidableEq, Repr

def effectiveTaxonomy (org : UUID) (table : Table) (taxonomyVersion : String) : List Category :=
  (table.filter fun row => sees (some org) row && row.taxonomyVersion = taxonomyVersion).insertionSort
    fun a b => a.code ≤ b.code

/-- The names from the root down to a row: no chain of links is longer than the tree. -/
def namesTo (all : List Category) : Nat → Category → Option (List String)
  | 0, _ => none
  | turns + 1, row => match row.parentID with
      | none => some [row.name]
      | some parentID => match all.reverse.find? (·.id = parentID) with
          | none => some [row.name]
          | some parent => (namesTo all turns parent).map (· ++ [row.name])

def pathOf (all : List Category) (row : Category) : Option String :=
  (namesTo all (all.length + 1) row).map (" > ".intercalate ·)

/-- `Service.Categories`: any member may list them. -/
def categories (site : Site) (members : List Membership) (org : UUID) (table : Table)
    (userID : UUID) : Except Failure (List Choice) :=
  match members.find? (·.userID = userID) with
  | none => .error (.coded Code.forbidden)
  | some _ =>
      let all := effectiveTaxonomy org table site.taxonomyVersion
      .ok ((all.filter fun row => row.isLeaf && !row.isComputed).map fun row =>
        ⟨row.id, row.code, row.name, pathOf all row, row.isPNL⟩)

end Vekst.Review
