import Mathlib.Data.List.Sort
import Vekst.Taxonomy.Categories

namespace Vekst.Taxonomy
open Ledger

/-- A row of `category_templates`. -/
structure TemplateRow where
  taxonomyVersion : String
  code : String
  parentCode : Option String
  level : Nat
  name : String
  isLeaf : Bool
  isPNL : Bool
deriving DecidableEq, Repr

/-! ## The reads -/

/-- `ORDER BY level, code`. -/
def industryTemplate (templates : List TemplateRow) (version : String) : List TemplateRow :=
  (templates.filter (·.taxonomyVersion = version)).insertionSort fun a b =>
    a.level < b.level ∨ a.level = b.level ∧ a.code ≤ b.code

def effectiveTaxonomy (org : UUID) (version : String) (table : Table) : Table :=
  (table.filter fun row => sees (some org) row && row.taxonomyVersion = version).insertionSort
    fun a b => a.code ≤ b.code

/-- A map from codes to identifiers, its latest entries first. -/
abbrev ByCode := List (String × UUID)

/-- The shared rows only. -/
def globalByCode (taxonomy : Table) : ByCode :=
  taxonomy.foldl (fun known c => if c.orgID.isNone then (c.code, c.id) :: known else known) []

/-! ## Adoption -/

inductive AdoptFailure where
  | unresolvedParent (code parent : String)
  | refused (cause : Failure)
deriving DecidableEq, Repr

/-- The organisation's own copy first, and only then the shared category of the code. -/
def resolveParent (globalByCode orgByCode : ByCode) (r : TemplateRow) :
    Except AdoptFailure (Option UUID) :=
  match r.parentCode with
  | none => .ok none
  | some code =>
      match orgByCode.lookup code with
      | some id => .ok (some id)
      | none =>
          match globalByCode.lookup code with
          | some id => .ok (some id)
          | none => .error (.unresolvedParent r.code code)

/-- The columns `InsertCategory` names; the rest take their defaults and the section its trigger's. -/
def adoptedRow (version : String) (org id : UUID) (parentID : Option UUID) (r : TemplateRow) :
    Category where
  id := id
  taxonomyVersion := version
  code := r.code
  name := r.name
  pnlSection := ""
  isPNL := r.isPNL
  isLeaf := r.isLeaf
  isComputed := false
  requiresAllocation := false
  orgID := some org
  parentID := parentID

/-- The loop over the template's rows, the identifiers drawn from the `n`th on. -/
def adoptRows (version : String) (org : UUID) (draw : Nat → UUID) (globalByCode : ByCode) :
    List TemplateRow → Nat → ByCode → Table → Except AdoptFailure Table
  | [], _, _, table => .ok table
  | r :: rest, n, orgByCode, table => do
      let parentID ← resolveParent globalByCode orgByCode r
      let table ← (insertCategory (some org) (adoptedRow version org (draw n) parentID r) none
        table).mapError .refused
      adoptRows version org draw globalByCode rest (n + 1) ((r.code, draw n) :: orgByCode) table

def adoptIndustryTemplate (templates : List TemplateRow) (version : String) (org : UUID)
    (draw : Nat → UUID) (table : Table) : Except AdoptFailure Table :=
  adoptRows version org draw (globalByCode (effectiveTaxonomy org version table))
    (industryTemplate templates version) 0 [] table

/-- The table once the transaction around the adoption has ended: a failed one is rolled back. -/
def afterAdoption (templates : List TemplateRow) (version : String) (org : UUID)
    (draw : Nat → UUID) (table : Table) : Table :=
  match adoptIndustryTemplate templates version org draw table with
  | .ok after => after
  | .error _ => table

end Vekst.Taxonomy
