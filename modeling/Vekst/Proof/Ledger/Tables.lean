import Mathlib.Data.List.Nodup
import Vekst.Isolation.View
import Vekst.Ledger.Store

namespace Vekst.Ledger
open Isolation

/-! ## The tables under pending writes -/

/-- The rows the writes insert. -/
def insertedTransactions (writes : List Write) : List TransactionRow :=
  writes.filterMap fun | .insertTransaction row => some row | _ => none

theorem insertedTransactions_append (earlier later : List Write) :
    insertedTransactions (earlier ++ later) =
      insertedTransactions earlier ++ insertedTransactions later :=
  List.filterMap_append

theorem mem_insertedTransactions {writes : List Write} {row : TransactionRow} :
    row ∈ insertedTransactions writes ↔ .insertTransaction row ∈ writes := by
  rw [insertedTransactions, List.mem_filterMap]
  constructor
  · rintro ⟨w, member, eq⟩
    cases w <;> simp_all
  · intro member
    exact ⟨_, member, rfl⟩

/-- Transactions are only ever added. -/
theorem visible_transactions (d : Database) (writes : List Write) :
    (visible d writes).transactions = d.transactions ++ insertedTransactions writes := by
  induction writes generalizing d with
  | nil => simp [insertedTransactions]
  | cons w writes ih =>
      have later := ih (Store.apply d w)
      simp only [visible, List.foldl_cons] at later ⊢
      rw [later]
      cases w <;> simp [Store.apply, Database.apply, insertedTransactions]

theorem visible_baseCurrency (d : Database) (writes : List Write) :
    (visible d writes).baseCurrency = d.baseCurrency :=
  visible_eq (fun _ w => by cases w <;> rfl) d writes

theorem visible_categories (d : Database) (writes : List Write) :
    (visible d writes).categories = d.categories :=
  visible_eq (fun _ w => by cases w <;> rfl) d writes

theorem visible_members (d : Database) (writes : List Write) :
    (visible d writes).members = d.members :=
  visible_eq (fun _ w => by cases w <;> rfl) d writes

theorem replaceBy_ids {α : Type} (id : α → UUID) (row : α) (rows : List α) :
    (replaceBy id row rows).map id = rows.map id := by
  rw [replaceBy, List.map_map]
  refine List.map_congr_left fun old _ => ?_
  by_cases same : id old = id row <;> simp [same]

theorem mem_replaceBy_cases {α : Type} {id : α → UUID} {row x : α} {rows : List α}
    (member : x ∈ replaceBy id row rows) : x = row ∨ x ∈ rows ∧ id x ≠ id row := by
  obtain ⟨old, known, same⟩ := List.mem_map.mp member
  by_cases own : id old = id row
  · rw [if_pos own] at same
    exact .inl same.symm
  · rw [if_neg own] at same
    exact .inr (same ▸ ⟨known, own⟩)

theorem mem_replaceBy {α : Type} {id : α → UUID} {row x : α} {rows : List α}
    (member : x ∈ replaceBy id row rows) : x ∈ rows ∨ x = row := by
  rcases mem_replaceBy_cases member with own | ⟨other, -⟩
  · exact .inr own
  · exact .inl other

theorem mem_replaceBy_of_ne {α : Type} {id : α → UUID} {row x : α} {rows : List α}
    (member : x ∈ rows) (other : id x ≠ id row) : x ∈ replaceBy id row rows :=
  List.mem_map.mpr ⟨x, member, if_neg other⟩

theorem mem_replaceBy_self {α : Type} {id : α → UUID} {row old : α} {rows : List α}
    (member : old ∈ rows) (same : id old = id row) : row ∈ replaceBy id row rows :=
  List.mem_map.mpr ⟨old, member, if_pos same⟩

theorem find?_of_keyed {α : Type} {id : α → UUID} {x : α} {rows : List α}
    (keyed : (rows.map id).Nodup) (member : x ∈ rows) :
    rows.find? (fun row => id row = id x) = some x := by
  cases found : rows.find? fun row => id row = id x with
  | none => simpa using List.find?_eq_none.mp found x member
  | some row =>
      have same : id row = id x := by simpa using List.find?_some found
      rw [List.inj_on_of_nodup_map keyed (List.mem_of_find?_eq_some found) member same]

/-- A row given again the version it has. -/
theorem replaceBy_eq_self {α : Type} {id : α → UUID} {old : α} {rows : List α}
    (only : ∀ row ∈ rows, id row = id old → row = old) : replaceBy id old rows = rows := by
  conv => rhs; rw [← List.map_id rows]
  rw [replaceBy]
  refine List.map_congr_left fun row member => ?_
  split
  next named => exact (only row member named).symm
  next => rfl

theorem nodup_ids_append {α : Type} {id : α → UUID} {rows more : List α}
    (keyed : (rows.map id).Nodup) (added : (more.map id).Nodup)
    (new : ∀ b ∈ more, ∀ a ∈ rows, id a ≠ id b) : ((rows ++ more).map id).Nodup := by
  rw [List.map_append, List.nodup_append]
  refine ⟨keyed, added, fun i known j listed => ?_⟩
  obtain ⟨a, member, rfl⟩ := List.mem_map.mp known
  obtain ⟨b, later, rfl⟩ := List.mem_map.mp listed
  exact new b later a member

theorem foldl_replaceBy_cons {α : Type} {id : α → UUID} {f : α → α} (same : ∀ a, id (f a) = id a)
    {first : α} {changed rows : List α} (others : ∀ a ∈ changed, id first ≠ id a) :
    changed.foldl (fun rows a => replaceBy id (f a) rows) (first :: rows) =
      first :: changed.foldl (fun rows a => replaceBy id (f a) rows) rows := by
  induction changed generalizing rows with
  | nil => rfl
  | cons a changed ih =>
      have other : id first ≠ id (f a) := same a ▸ others a (by simp)
      rw [List.foldl_cons, List.foldl_cons, replaceBy, List.map_cons, if_neg other]
      exact ih fun b later => others b (by simp [later])

/-- New versions of the rows a statement selects, under identifiers of their own. -/
theorem foldl_replaceBy_filter {α : Type} {id : α → UUID} {f : α → α} (same : ∀ a, id (f a) = id a)
    (select : α → Bool) {rows : List α} (keyed : (rows.map id).Nodup) :
    (rows.filter select).foldl (fun rows a => replaceBy id (f a) rows) rows =
      rows.map fun a => if select a then f a else a := by
  induction rows with
  | nil => rfl
  | cons first rows ih =>
      rw [List.map_cons, List.nodup_cons] at keyed
      have apart : ∀ a ∈ rows, id first ≠ id a := by
        intro a member equal
        exact keyed.1 (equal ▸ List.mem_map_of_mem member)
      have later : ∀ kept, id kept = id first →
          (rows.filter select).foldl (fun rows a => replaceBy id (f a) rows) (kept :: rows) =
            kept :: rows.map fun a => if select a then f a else a := by
        intro kept own
        rw [foldl_replaceBy_cons same, ih keyed.2]
        intro a member
        rw [own]
        exact apart a (List.mem_filter.mp member).1
      rw [List.map_cons]
      by_cases selected : select first
      · rw [List.filter_cons_of_pos selected, List.foldl_cons, replaceBy, List.map_cons,
          if_pos (same first).symm, if_pos selected]
        have unchanged : (rows.map fun old => if id old = id (f first) then f first else old) = rows := by
          conv => rhs; rw [← List.map_id rows]
          refine List.map_congr_left fun a member => if_neg ?_
          rw [same]
          exact (apart a member).symm
        rw [unchanged]
        exact later _ (same first)
      · rw [List.filter_cons_of_neg selected, if_neg selected]
        exact later first rfl

theorem mem_visible_classifications {d : Database} {writes : List Write} {c : ClassificationRow}
    (member : c ∈ (visible d writes).classifications) :
    c ∈ d.classifications ∨
      ∃ w ∈ writes, w = .insertClassification c ∨ w = .updateClassification c := by
  apply mem_visible ?_ member
  intro d w row member
  cases w with
  | insertClassification new => simpa [Store.apply, Database.apply, eq_comm] using member
  | updateClassification new => simpa [eq_comm] using mem_replaceBy member
  | _ => exact .inl member

def insertedClassifications (writes : List Write) : List ClassificationRow :=
  writes.filterMap fun | .insertClassification row => some row | _ => none

theorem insertedClassifications_append (earlier later : List Write) :
    insertedClassifications (earlier ++ later) =
      insertedClassifications earlier ++ insertedClassifications later :=
  List.filterMap_append

theorem mem_insertedClassifications {writes : List Write} {row : ClassificationRow} :
    row ∈ insertedClassifications writes ↔ .insertClassification row ∈ writes := by
  rw [insertedClassifications, List.mem_filterMap]
  constructor
  · rintro ⟨w, member, eq⟩
    cases w <;> simp_all
  · intro member
    exact ⟨_, member, rfl⟩

/-- A new version of a classification keeps its identifier. -/
theorem visible_classification_ids (d : Database) (writes : List Write) :
    (visible d writes).classifications.map (·.id) =
      d.classifications.map (·.id) ++ (insertedClassifications writes).map (·.id) := by
  induction writes generalizing d with
  | nil => simp [insertedClassifications]
  | cons w writes ih =>
      have later := ih (Store.apply d w)
      simp only [visible, List.foldl_cons] at later ⊢
      rw [later]
      cases w <;> simp [Store.apply, Database.apply, insertedClassifications, replaceBy_ids]

theorem mem_visible_transfers {d : Database} {writes : List Write} {it : InternalTransferRow}
    (member : it ∈ (visible d writes).transfers) :
    it ∈ d.transfers ∨ ∃ w ∈ writes, w = .insertTransfer it ∨ w = .updateTransfer it := by
  apply mem_visible ?_ member
  intro d w row member
  cases w with
  | insertTransfer new => simpa [Store.apply, Database.apply, eq_comm] using member
  | updateTransfer new => simpa [eq_comm] using mem_replaceBy member
  | _ => exact .inl member

theorem mem_visible_transferMembers {d : Database} {writes : List Write} {m : TransferMemberRow}
    (member : m ∈ (visible d writes).transferMembers) :
    m ∈ d.transferMembers ∨ ∃ w ∈ writes, w = .insertTransferMember m := by
  apply mem_visible ?_ member
  intro d w row member
  cases w with
  | insertTransferMember new => simpa [Store.apply, Database.apply, eq_comm] using member
  | _ => exact .inl member

/-! ## Rows to evaluate on -/

theorem sampleDay_valid (day : Nat) :
    1 ≤ max 1 (min day 31) ∧ max 1 (min day 31) ≤ Calendar.daysIn 2026 1 := by
  simp [Calendar.daysIn]

/-- A day of January 2026. -/
def sampleDay (day : Nat) : Calendar.Date :=
  ⟨2026, 1, max 1 (min day 31), Calendar.Month.january_valid, sampleDay_valid day⟩

open Calendar in
def sampleTransaction (id : UUID) (kind : SourceKind) (bookedOn : Date) (amount : Int64) :
    TransactionRow where
  id := id
  entityID := 1
  accountID := 1
  batchID := 1
  lineNo := id
  sourceKind := kind
  documentRef := none
  postingNo := 0
  bookedOn := bookedOn
  valueOn := none
  amountMinor := amount
  currency := "BYN"
  fxRate := none
  fxRateOn := none
  baseAmountMinor := none
  baseCurrency := none
  counterpartyRaw := ""
  counterpartyKey := ""
  descriptionRaw := ""
  descriptionNorm := ""
  normalizeVersion := "1"
  regulatedCode := ""
  bankRef := ""
  dedupHash := ""
  createdAt := 0

def sampleCategory (id : UUID) (code pnlSection : String) : CategoryRow where
  id := id
  taxonomyVersion := "1"
  code := code
  name := code
  pnlSection := pnlSection
  isPNL := true
  isLeaf := true
  isComputed := false
  requiresAllocation := false

def sampleClassification (id txnID categoryID : UUID) : ClassificationRow where
  id := id
  transactionID := txnID
  categoryID := categoryID
  engineLayer := "L1"
  confidence := 1
  evidence := ""
  taxonomyVersion := "1"
  rulesetVersion := "1"
  engineVersion := "1"
  normalizeVersion := "1"
  decidedBy := none
  decidedAt := 0
  supersededBy := none
  retractedAt := none
  retractedBy := none

end Vekst.Ledger
