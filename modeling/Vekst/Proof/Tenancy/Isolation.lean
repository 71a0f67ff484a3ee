import Vekst.Relational.Interleaving
import Vekst.Tenancy.Tables

namespace Vekst.Tenancy
open Policy

/-! ## Whose a key is -/

/-- The organisation a key names, or the one its identifier was generated for. -/
def ownerOf (minter : Value → Option Value) (k : TableKey) : Option Value :=
  ((k.columns.zip k.values).lookup (ownerColumn k.table)).getD (k.values.head?.join.bind minter)

def sampleRow (table : TableName) (cells : List (String × Value)) : TableRow :=
  ⟨table, fun column => cells.lookup column⟩

/-- A shared category, and one of each organisation: the second one's names the first one's as its
parent. -/
def sampleCategories : List TableRow := [
  sampleRow .categories [("id", .uuid 100), ("code", .text "01")],
  sampleRow .categories [("id", .uuid 101), ("org_id", .uuid 1), ("parent_id", .uuid 100),
    ("code", .text "0101")],
  sampleRow .categories [("id", .uuid 102), ("org_id", .uuid 2), ("parent_id", .uuid 101),
    ("code", .text "0101")]]

def sampleEvents : List (Event TableRow Bool) := [
  .run false (.insert (sampleRow .organizations [("id", .uuid 1)])),
  .run true (.insert (sampleRow .organizations [("id", .uuid 2)])),
  .run false (.insert (sampleCategories.getD 1 (sampleRow .vendors []))),
  .commit false,
  .run true (.select fun r => r.table = .categories),
  .run true (.insert (sampleCategories.getD 2 (sampleRow .vendors [])))]

end Vekst.Tenancy
