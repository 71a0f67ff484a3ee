import Vekst.Proof.Jobs
import Vekst.Proof.Ledger.ContentKey

namespace Vekst
open Isolation Ledger

/-- Different pairs of a content key and an occurrence have different hashes. -/
def Collisionless (sha256 : String → String) : Prop :=
  ∀ key n key' n', sha256 (occurrenceKey key n) = sha256 (occurrenceKey key' n') →
    key = key' ∧ n = n'

/-- No open transaction has looked in vain for a hash that the one that commits stores. -/
def LookedUpApart : System → Nat → Prop := fun sys i =>
  ∀ other ∈ sys.others i, ∀ row ∈ insertedTransactions (sys.writesOf i),
    Write.missed row.dedupHash ∉ other.writes

instance (sys : System) (i : Nat) : Decidable (LookedUpApart sys i) := by
  unfold LookedUpApart
  infer_instance

def DistinctHashes (d : Database) : Prop := (d.transactions.map (·.dedupHash)).Nodup

instance (d : Database) : Decidable (DistinctHashes d) :=
  inferInstanceAs (Decidable (List.Nodup _))

theorem Numbered.nodup {sha256 : String → String} {hashes : List String}
    (collisionless : Collisionless sha256) (numbered : Numbered sha256 hashes) : hashes.Nodup := by
  obtain ⟨pairs, nodup, rfl⟩ := numbered
  apply List.Nodup.map_on ?_ nodup
  rintro ⟨key, n⟩ _ ⟨key', n'⟩ _ same
  obtain ⟨rfl, rfl⟩ := collisionless key n key' n' same
  rfl

/-- A transaction stores only what it has looked for, each hash once, and what it has looked for
in vain is still not stored. -/
structure Sought (d : Database) (pending : List Write) : Prop where
  looked : ∀ row ∈ insertedTransactions pending, .missed row.dedupHash ∈ pending
  distinct : ((insertedTransactions pending).map (·.dedupHash)).Nodup
  absent : ∀ hash, .missed hash ∈ pending → ∀ t ∈ d.transactions, t.dedupHash ≠ hash

theorem Sought.written {currencies : String → Prop} {sha256 : String → String}
    {d : Database} {pending writes : List Write} (collisionless : Collisionless sha256)
    (sought : Sought d pending) (lawful : Lawful currencies sha256 pending (visible d pending) writes) :
    Sought d (pending ++ writes) := by
  rcases lawful with ordinary | ⟨row, rfl, stores⟩
  · have quiet := insertedTransactions_of_ordinary ordinary
    have same : insertedTransactions (pending ++ writes) = insertedTransactions pending := by
      rw [insertedTransactions_append, quiet, List.append_nil]
    refine ⟨?_, same ▸ sought.distinct, fun hash member t stored => ?_⟩
    · intro row member
      exact List.mem_append_left _ (sought.looked row (same ▸ member))
    · rcases List.mem_append.mp member with old | new
      · exact sought.absent hash old t stored
      · have unseen := ordinary _ new
        rw [visible_transactions] at unseen
        exact unseen t (List.mem_append_left _ stored)
  · have grown : insertedTransactions (pending ++ [.insertTransaction row]) =
        insertedTransactions pending ++ [row] := insertedTransactions_append _ _
    refine ⟨?_, grown ▸ stores.numbered.nodup collisionless, fun hash member t stored => ?_⟩
    · intro other member
      rw [grown] at member
      rcases List.mem_append.mp member with old | new
      · exact List.mem_append_left _ (sought.looked other old)
      · obtain rfl := List.mem_singleton.mp new
        exact List.mem_append_left _ stores.looked
    · have old : Write.missed hash ∈ pending := by simpa using member
      exact sought.absent hash old t stored

theorem distinctHashes_carries {site : Site} (collisionless : Collisionless site.sha256) :
    Carries (rules site fun _ => True) (AtPublish LookedUpApart : System → Event → Prop)
      DistinctHashes fun d pending _ => Sought d pending where
  opened d _ := ⟨by simp [insertedTransactions], by simp [insertedTransactions], by simp⟩
  written d pending writes _ sought lawful := sought.written collisionless lawful
  passed d pending _ sought _ := sought
  published sys i client _ _ sound sought := by
    rw [DistinctHashes, visible_transactions, List.map_append]
    refine sound.append sought.distinct ?_
    intro hash old new
    obtain ⟨t, stored, rfl⟩ := List.mem_map.mp old
    obtain ⟨row, inserted, same⟩ := List.mem_map.mp new
    exact sought.absent _ (sought.looked row inserted) t stored same.symm
  unmoved sys i client other apart found aside _ _ held := by
    refine ⟨held.looked, held.distinct, fun hash member t stored => ?_⟩
    rw [visible_transactions] at stored
    rcases List.mem_append.mp stored with old | new
    · exact held.absent hash member t old
    · rintro rfl
      rw [← System.writesOf_eq found] at new
      exact apart other aside t new member

/-- When no commit stores what another open transaction has looked for in vain, no two stored
transactions carry the same hash. -/
theorem no_duplicate_dedupHash {site : Site} {d : Database} {sys : System}
    (collisionless : Collisionless site.sha256) (initially : DistinctHashes d)
    (run : Run (body site) (AtPublish LookedUpApart) (System.idle d) sys) :
    DistinctHashes sys.committed :=
  (Run.carries (distinctHashes_carries collisionless) (fun label _ => body_keeps label)
    (fun _ event _ => rules_admit event) run rfl initially).1

/-! ## Two deliveries of one batch -/

theorem collisionless_id : Collisionless id := fun _ _ _ _ => occurrenceKey_injective

/-- A validated batch of an account on file. -/
def emptyLedger : Database :=
  { Database.empty "BYN" with
    accounts := [⟨1, 1, "main", "BYN", some "BY01"⟩]
    batches := [⟨1, 1, .bank, .validated, some "file", none⟩] }

def sampleRow (lineNo : Int) (credit : Int64) : Ingest.Row where
  lineNo := lineNo
  bookedOn := "15.01.2026"
  documentNo := "77"
  counterpartyName := "buyer"
  counterpartyTaxID := ""
  counterpartyAccount := ""
  description := "invoice"
  regulatedCode := ""
  debit := ⟨"BYN", 0⟩
  credit := ⟨"BYN", credit⟩

def sampleStatement : Ingest.Statement := ⟨"BY01", "BYN", "", [sampleRow 5 120000]⟩

/-- A delivery of the batch up to the storing of its row. -/
def deliveryEvents (i : Nat) : List Event := [
  .spawn (.persistImport 1 (sampleDraws (100 * (i + 1)))), .jump i, .exec i, .check i, .publish i,
  .answer i (.statement (some sampleStatement)), .exec i, .exec i, .exec i, .exec i]

theorem no_duplicate_dedupHash_sample :
    ∃ sys, Run (body sampleSite) (AtPublish LookedUpApart) (System.idle emptyLedger) sys ∧
      sys.committed.transactions.length = 1 ∧ DistinctHashes sys.committed := by
  have evaluated : (fireAll (body sampleSite) (System.idle emptyLedger)
      (deliveryEvents 0 ++ [.exec 0, .exec 0, .check 0, .publish 0] ++
        [.spawn (.persistImport 1 (sampleDraws 200)), .jump 1, .exec 1, .check 1, .publish 1])).map
      (fun sys => sys.committed.transactions.length) = some 1 := by decide +kernel
  obtain ⟨sys, fired, stored⟩ := Option.map_eq_some_iff.mp evaluated
  have run : Run (body sampleSite) (AtPublish LookedUpApart) (System.idle emptyLedger) sys :=
    Run.of_fireAll (by decide +kernel) fired
  have initially : DistinctHashes emptyLedger := List.nodup_nil
  exact ⟨sys, run, stored, no_duplicate_dedupHash collisionless_id initially run⟩

/-- Both deliveries look before either commits; the second then only waits for the batch's row. -/
theorem two_deliveries_store_twice :
    ¬ ∀ sys, Run (body sampleSite) (fun _ _ => True) (System.idle emptyLedger) sys →
      DistinctHashes sys.committed := by
  intro claimed
  have evaluated : (fireAll (body sampleSite) (System.idle emptyLedger)
      (deliveryEvents 0 ++ deliveryEvents 1 ++ [.exec 0, .exec 0, .check 0, .publish 0] ++
        [.exec 1, .exec 1, .check 1, .publish 1])).map
      (fun sys => decide (DistinctHashes sys.committed)) = some false := by decide +kernel
  obtain ⟨sys, fired, repeated⟩ := Option.map_eq_some_iff.mp evaluated
  exact of_decide_eq_false repeated (claimed sys (Run.of_fireAll (admitsAll fun _ _ => trivial) fired))

end Vekst
