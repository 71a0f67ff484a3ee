import Vekst.Dedup.Operations
import Vekst.Isolation.Alone
import Vekst.Proof.Reports.DrillDown
import Vekst.Proof.Ledger.Writes

namespace Vekst.Dedup
open Isolation Ledger

/-- Two transactions that could be the sides of one transfer. -/
structure Compatible (t c : TransactionRow) : Prop where
  distinct : c.id ≠ t.id
  entity : c.entityID = t.entityID
  accounts : c.accountID ≠ t.accountID
  kind : c.sourceKind = t.sourceKind
  opposite : (baseAmount c).toInt = -(baseAmount t).toInt
  moved : (baseAmount t).toInt ≠ 0
  near : (daysApart c t : Int) ≤ transferWindowDays

instance (t c : TransactionRow) : Decidable (Compatible t c) :=
  decidable_of_iff (c.id ≠ t.id ∧ c.entityID = t.entityID ∧ c.accountID ≠ t.accountID ∧
      c.sourceKind = t.sourceKind ∧ (baseAmount c).toInt = -(baseAmount t).toInt ∧
      (baseAmount t).toInt ≠ 0 ∧ (daysApart c t : Int) ≤ transferWindowDays)
    ⟨fun ⟨a, b, c, d, e, f, g⟩ => ⟨a, b, c, d, e, f, g⟩, fun ⟨a, b, c, d, e, f, g⟩ =>
      ⟨a, b, c, d, e, f, g⟩⟩

theorem daysApart_comm (a b : TransactionRow) : daysApart a b = daysApart b a := by
  rw [daysApart, daysApart, ← Int.natAbs_neg, neg_sub]

theorem Compatible.symm {t c : TransactionRow} (compatible : Compatible t c) : Compatible c t where
  distinct := compatible.distinct.symm
  entity := compatible.entity.symm
  accounts := compatible.accounts.symm
  kind := compatible.kind.symm
  opposite := by have opposite := compatible.opposite; omega
  moved := by have opposite := compatible.opposite; have moved := compatible.moved; omega
  near := daysApart_comm t c ▸ compatible.near

/-- What the check on the conversion's columns leaves of a stored row. -/
def WholeFX (t : TransactionRow) : Prop := t.fxRate.isSome = t.baseAmountMinor.isSome

instance (t : TransactionRow) : Decidable (WholeFX t) := inferInstanceAs (Decidable (_ = _))

theorem WholeFX.amount_eq {t : TransactionRow} (whole : WholeFX t) : t.amount = baseAmount t := by
  unfold WholeFX at whole
  rw [TransactionRow.amount, baseAmount, whole]
  cases t.baseAmountMinor <;> simp

/-- The transaction is a side of a pair, dismissed or not. -/
def Taken (d : Database) (txnID : UUID) : Prop := ∃ m ∈ d.transferMembers, m.txnID = txnID

/-- The sides of the pair a transaction and its candidate make. -/
def sides (t c : TransactionRow) : UUID × UUID := if 0 < baseAmount t then (c.id, t.id) else (t.id, c.id)

/-- The rows a new pair adds. -/
def pairRow (id : UUID) (now : Timestamp) (t c : TransactionRow) : InternalTransferRow where
  id := id
  outTxnID := (sides t c).1
  inTxnID := (sides t c).2
  detectedAt := now
  dismissedBy := none
  dismissedAt := none

def withPair (d : Database) (id : UUID) (now : Timestamp) (t c : TransactionRow) : Database :=
  { d with
    transfers := d.transfers ++ [pairRow id now t c]
    transferMembers := d.transferMembers ++
      [⟨(sides t c).1, id, .outgoing⟩, ⟨(sides t c).2, id, .incoming⟩] }

theorem mem_transferCandidates {d : Database} {t : TransactionRow} {candidates : List TransactionRow}
    (whole : ∀ c ∈ d.transactions, WholeFX c) (moved : baseAmount t ≠ 0)
    (found : transferCandidates d t.entityID t = .ok candidates) (c : TransactionRow) :
    c ∈ candidates ↔ c ∈ d.transactions ∧ Compatible t c ∧ ¬ Taken d c.id := by
  obtain ⟨opposite, negated, rest⟩ := bind_ok.mp found
  obtain rfl := Except.ok.inj rest
  have negated := Reports.toInt_of_bigint negated
  have nonzero : (baseAmount t).toInt ≠ 0 := fun zero => moved (Int64.toInt_inj.mp zero)
  rw [List.mem_insertionSort, List.mem_filter]
  simp only [pairs, Bool.and_eq_true, decide_eq_true_eq, Bool.not_eq_true', List.any_eq_false, Taken,
    not_exists, not_and]
  constructor
  · rintro ⟨stored, ⟨⟨⟨⟨⟨entity, distinct⟩, accounts⟩, kind⟩, amount⟩, near⟩, free⟩
    refine ⟨stored, ⟨distinct, entity, accounts, kind, ?_, nonzero, near⟩, free⟩
    rw [← (whole c stored).amount_eq, amount, negated]
  · rintro ⟨stored, compatible, free⟩
    refine ⟨stored, ⟨⟨⟨⟨⟨compatible.entity, compatible.distinct⟩, compatible.accounts⟩,
      compatible.kind⟩, ?_⟩, compatible.near⟩, free⟩
    rw [(whole c stored).amount_eq, ← Int64.toInt_inj, compatible.opposite, negated]

theorem insertInternalTransferPair_ok {d after : Database} {id outTxnID inTxnID : UUID}
    {now : Timestamp} {pair : InternalTransferRow}
    (ran : (insertInternalTransferPair id now outTxnID inTxnID).run Database.apply d =
      .ok (pair, after)) :
    pair = ⟨id, outTxnID, inTxnID, now, none, none⟩ ∧
      after = { d with
        transfers := d.transfers ++ [pair]
        transferMembers := d.transferMembers ++ [⟨outTxnID, id, .outgoing⟩, ⟨inTxnID, id, .incoming⟩] } ∧
      (∀ it ∈ d.transfers, it.id ≠ id) ∧ ¬ Taken d outTxnID ∧ ¬ Taken d inTxnID := by
  obtain ⟨writes, made, rfl⟩ := (Prog.run_exec_ok _).mp ran
  obtain ⟨_, -, made⟩ := bind_ok.mp made
  obtain ⟨_, fresh, made⟩ := bind_ok.mp made
  obtain ⟨_, -, made⟩ := bind_ok.mp made
  obtain ⟨_, free, made⟩ := bind_ok.mp made
  obtain ⟨rfl, rfl⟩ := Prod.mk.inj (Except.ok.inj made)
  rw [require_ok] at fresh free
  simp only [List.all_eq_true, decide_eq_true_eq, Bool.and_eq_true] at fresh free
  refine ⟨rfl, ?_, fresh, ?_, ?_⟩
  · simp [Database.apply]
  · rintro ⟨m, known, same⟩
    exact (free m known).1 same
  · rintro ⟨m, known, same⟩
    exact (free m known).2 same

/-- What looking for a pair does: nothing, or one pair with the nearest candidate. -/
theorem detectAndPair_ok {d after : Database} {id : UUID} {now : Timestamp} {t : TransactionRow}
    {answer : Option InternalTransferRow}
    (ran : (detectAndPair id now t.entityID t).run Database.apply d = .ok (answer, after)) :
    after = d ∧ (baseAmount t = 0 ∨ transferCandidates d t.entityID t = .ok []) ∨
      ∃ c rest, baseAmount t ≠ 0 ∧ transferCandidates d t.entityID t = .ok (c :: rest) ∧
        after = withPair d id now t c ∧ (∀ it ∈ d.transfers, it.id ≠ id) ∧
        ¬ Taken d (sides t c).1 ∧ ¬ Taken d (sides t c).2 := by
  unfold detectAndPair at ran
  dsimp only at ran
  by_cases moved : baseAmount t = 0
  · simp only [moved, if_true] at ran
    obtain ⟨-, rfl⟩ := Prod.mk.inj (Except.ok.inj ran)
    exact .inl ⟨rfl, .inl moved⟩
  · simp only [moved, if_false] at ran
    obtain ⟨candidates, mid, first, ran⟩ := (Prog.run_bind_ok _).mp ran
    obtain ⟨found, rfl⟩ := (Prog.run_query_ok _).mp first
    cases candidates with
    | nil =>
        obtain ⟨-, rfl⟩ := Prod.mk.inj (Except.ok.inj ran)
        exact .inl ⟨rfl, .inr found⟩
    | cons c rest =>
        right
        refine ⟨c, rest, moved, found, ?_⟩
        obtain ⟨pair, mid, inserted, ran⟩ := (Prog.run_bind_ok _).mp ran
        obtain ⟨-, rfl⟩ := Prod.mk.inj (Except.ok.inj ran)
        obtain ⟨rfl, same, fresh, free⟩ := insertInternalTransferPair_ok inserted
        exact ⟨same, fresh, free⟩

end Vekst.Dedup
