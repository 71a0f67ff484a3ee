import Vekst.Proof.Web.CategoryTree

namespace Vekst.Web
open Taxonomy Review

/-! ## The path, cut again -/

/-- The rows from the section down to a row, as far as the parents are in the taxonomy. -/
inductive Lineage (all : List Category) : List Category → Category → Prop
  | section_ {row : Category} :
      (row.parentID.bind fun id => all.reverse.find? (·.id = id)) = none → Lineage all [row] row
  | under {row parent : Category} {chain : List Category} :
      (row.parentID.bind fun id => all.reverse.find? (·.id = id)) = some parent →
      Lineage all chain parent → Lineage all (chain ++ [row]) row

section Lineage

variable {all chain other : List Category} {row : Category}

theorem Lineage.unique (one : Lineage all chain row) (two : Lineage all other row) :
    chain = other := by
  induction one generalizing other with
  | section_ none_ => cases two with
    | section_ => rfl
    | under some_ _ => exact nomatch none_.symm.trans some_
  | under some_ _ ih => cases two with
    | section_ none_ => exact nomatch none_.symm.trans some_
    | under some' rest =>
        obtain rfl := Option.some.inj (some_.symm.trans some')
        rw [ih rest]

end Lineage

/-- A row as the browser has it. -/
def wireOf (all : List Category) (row : Category) : PickerCategory :=
  ⟨utf16 row.code, utf16 row.name, utf16 ((pathOf all row).getD "")⟩

/-- What the names of the rows are cut into. -/
def pieces (chain : List Category) : List JsString :=
  chain.flatMap fun row => segmentsOf (utf16 row.name)

/-- The leaves a reviewer may choose. -/
def offered (all : List Category) : List Category := all.filter fun row => row.isLeaf && !row.isComputed

/-- An ancestor under its own code, the section first. -/
def shownName (t : Catalogue) (i : Nat) (row : Category) : JsString :=
  if i = 0 then lineName t (utf16 row.code) (utf16 row.name)
  else branchName t (utf16 row.code) (utf16 row.name)

/-- A name stands for an ancestor: the stored one or the one its code has. -/
def Names (t : Catalogue) (i : Nat) (row : Category) (label : JsString) : Prop :=
  label = utf16 row.name ∨ label = shownName t i row

/-- A section before and after its chains are folded. -/
structure Refolds (section_ folded : TreeNode) : Prop where
  key : folded.key = section_.key
  label : folded.label = section_.label
  children : List.Forall₂
    (fun node => TreeNode.Keeps (separator.intercalate node.onlyLabels) node)
    section_.children folded.children

/-- The picker's tree over the rows of a taxonomy, of what the browser has of them. -/
structure Faithful (t : Catalogue) (all : List Category) (categories : List PickerCategory) : Prop where
  leaves : ((buildCategoryTree t categories).leavesOf.map TreeNode.plain).Perm
    ((offered all).map fun row => (wireOf all row).leafFor t)
  trails : ∀ row ∈ offered all, ∀ chain, Lineage all chain row →
    let trail := ((wireOf all row).leafFor t).trail
    trail.length = chain.dropLast.length ∧
      ∀ i ancestor label, chain.dropLast[i]? = some ancestor → trail[i]? = some label →
        Names t i ancestor label
  sections : ∀ row ∈ offered all, ∀ other ∈ offered all, row ≠ other → ∀ chain chain',
    Lineage all chain row → Lineage all chain' other →
      (SameSection (buildCategoryTree t categories) ((wireOf all row).leafFor t)
          ((wireOf all other).leafFor t) ↔
        chain.head?.map (·.code) = chain'.head?.map (·.code))
  wide : ∀ top ∈ (buildCategoryTree t categories).children, ∀ node ∈ top.children, node.Wide
  labels : List.Forall₂ Refolds (grow t categories).children (buildCategoryTree t categories).children

/-! ## What it takes -/

/-- The names of a leaf and of its ancestors are as many pieces, each of which, by its place in the
leaf's code where that has two characters for each piece, names the ancestor; and the keys right
above two leaves are under one section's exactly where the leaves have one section. -/
structure Readable (t : Catalogue) (all : List Category) (categories : List PickerCategory) : Prop where
  names : ∀ row ∈ offered all, ∀ chain, Lineage all chain row →
    (pieces chain).length - 1 = chain.length - 1 ∧
      ∀ i ancestor piece, chain.dropLast[i]? = some ancestor → (pieces chain)[i]? = some piece →
        Names t i ancestor
          (ancestorLabel t (lined (utf16 row.code) (pieces chain)) (utf16 row.code) i piece)
  sections : ∀ row ∈ offered all, ∀ other ∈ offered all, row ≠ other → ∀ chain chain',
    Lineage all chain row → Lineage all chain' other →
      (chain.head?.map (·.code) = chain'.head?.map (·.code) ↔
        ∃ key, Under categories (wireOf all row).parentKey key ∧
          Under categories (wireOf all other).parentKey key)

section Picker

variable {t : Catalogue} {isLined : Bool} {code parent : JsString} {i : Nat}
  {ancestors : List JsString}

end Picker

end Vekst.Web
