import Vekst.Jobs
import Vekst.Proof.Ledger.Tables

namespace Vekst
open Isolation Ledger

theorem bind_ok {ε α β : Type} {x : Except ε α} {f : α → Except ε β} {b : β} :
    x >>= f = .ok b ↔ ∃ a, x = .ok a ∧ f a = .ok b := by
  cases x <;> simp [bind, Except.bind]

theorem map_ok {ε α β : Type} {x : Except ε α} {f : α → β} {b : β} :
    x.map f = .ok b ↔ ∃ a, x = .ok a ∧ f a = b := by
  cases x <;> simp [Except.map]

theorem map_error {ε α β : Type} {x : Except ε α} {f : α → β} {e : ε} :
    x.map f = .error e ↔ x = .error e := by
  cases x <;> simp [Except.map]

theorem mapError_ok {ε ε' α : Type} {x : Except ε α} {f : ε → ε'} {a : α} :
    x.mapError f = .ok a ↔ x = .ok a := by
  cases x <;> simp [Except.mapError]

theorem bind_error {ε α β : Type} {x : Except ε α} {f : α → Except ε β} {e : ε} :
    x >>= f = .error e ↔ x = .error e ∨ ∃ a, x = .ok a ∧ f a = .error e := by
  cases x <;> simp [bind, Except.bind]

theorem require_error {holds : Bool} {name : String} {e : Failure} :
    require holds name = .error e ↔ holds = false ∧ e = .constraint name := by
  cases holds <;> simp [require, eq_comm]

@[simp] theorem require_ok {holds : Bool} {name : String} :
    require holds name = .ok () ↔ holds = true := by
  cases holds <;> simp [require]

theorem require_bind_ok {holds : Bool} {name : String} {β : Type} {f : Unit → Except Failure β}
    {b : β} : (require holds name >>= f) = .ok b ↔ holds = true ∧ f () = .ok b := by
  rw [bind_ok]
  constructor
  · rintro ⟨_, held, rest⟩
    exact ⟨require_ok.mp held, rest⟩
  · rintro ⟨held, rest⟩
    exact ⟨(), require_ok.mpr held, rest⟩

theorem findTransactionByDedupHash_eq_none {d : Database} {hash : String} :
    Dedup.findTransactionByDedupHash d hash = none ↔ ∀ t ∈ d.transactions, t.dedupHash ≠ hash := by
  rw [Dedup.findTransactionByDedupHash, List.head?_eq_none_iff, ← List.length_eq_zero_iff,
    List.length_insertionSort, List.length_eq_zero_iff, List.filter_eq_nil_iff]
  simp

/-! ## The writes of the persist job's statements, whatever is asked of writes -/

section Emitted

variable {may : Database → List Write → Prop}

theorem resolveAccount_emits (quiet : ∀ d, may d []) (made : ∀ d row, may d [.insertAccount row])
    (id entityID : UUID) (st : Ingest.Statement) :
    (Ingest.resolveAccount id entityID st).Emits may := by
  by_cases unnamed : st.account = ""
  · simp only [Ingest.resolveAccount, unnamed, if_true, Prog.fail_bind, Prog.emits_fail]
  · simp only [Ingest.resolveAccount, unnamed, if_false]
    refine Prog.emits_bind (Prog.emits_query quiet _) fun found => ?_
    cases found with
    | some existing => trivial
    | none =>
        refine Prog.emits_bind ?_ fun _ => trivial
        apply Prog.emits_exec
        intro d writes answer success
        obtain ⟨_, -, inserted⟩ := bind_ok.mp success
        obtain ⟨rfl, -⟩ := Prod.mk.inj (Except.ok.inj inserted)
        exact made d _

theorem findByHash_emits (quiet : ∀ d, may d [])
    (missed : ∀ d hash, (∀ t ∈ d.transactions, t.dedupHash ≠ hash) → may d [.missed hash])
    (hash : String) : (Dedup.findByHash hash).Emits may := by
  apply Prog.emits_exec
  intro d writes answer success
  split at success
  next t found =>
    obtain ⟨rfl, -⟩ := Prod.mk.inj (Except.ok.inj success)
    exact quiet d
  next absent =>
    obtain ⟨rfl, -⟩ := Prod.mk.inj (Except.ok.inj success)
    exact missed d hash (findTransactionByDedupHash_eq_none.mp absent)

theorem insertSkip_emits (made : ∀ d row, may d [.insertDedupSkip row]) (id : UUID)
    (s : Dedup.Skip) : (Dedup.insertSkip id s).Emits may := by
  apply Prog.emits_exec
  intro d writes answer success
  obtain ⟨_, -, inserted⟩ := bind_ok.mp success
  obtain ⟨rfl, -⟩ := Prod.mk.inj (Except.ok.inj inserted)
  exact made d _

theorem insertTransaction_emits
    (made : ∀ d row, checkTransaction d row = .ok () → may d [.insertTransaction row]) (id : UUID)
    (now : Timestamp) (t : Transaction) : (insertTransaction id now t).Emits may := by
  apply Prog.emits_exec
  intro d writes answer success
  obtain ⟨_, -, success⟩ := bind_ok.mp success
  obtain ⟨_, checked, inserted⟩ := bind_ok.mp success
  obtain ⟨rfl, -⟩ := Prod.mk.inj (Except.ok.inj inserted)
  exact made d _ checked

theorem detectAndPair_emits (quiet : ∀ d, may d [])
    (made : ∀ d pair, may d [.insertTransfer pair,
      .insertTransferMember ⟨pair.outTxnID, pair.id, .outgoing⟩,
      .insertTransferMember ⟨pair.inTxnID, pair.id, .incoming⟩])
    (id : UUID) (now : Timestamp) (entityID : UUID) (txn : TransactionRow) :
    (Dedup.detectAndPair id now entityID txn).Emits may := by
  unfold Dedup.detectAndPair
  dsimp only
  split
  next => trivial
  next =>
    refine Prog.emits_bind (Prog.emits_query quiet _) fun candidates => ?_
    cases candidates with
    | nil => trivial
    | cons candidate rest =>
        refine Prog.emits_bind (Prog.emits_exec ?_) fun _ => trivial
        intro d writes answer success
        obtain ⟨_, -, success⟩ := bind_ok.mp success
        obtain ⟨_, -, success⟩ := bind_ok.mp success
        obtain ⟨_, -, success⟩ := bind_ok.mp success
        obtain ⟨_, -, inserted⟩ := bind_ok.mp success
        obtain ⟨rfl, -⟩ := Prod.mk.inj (Except.ok.inj inserted)
        exact made d _

theorem setImportBatchStatus_emits {batchID : UUID} {status : BatchStatus}
    {failureCode : Option String}
    (made : ∀ (d : Database) (rows : List ImportBatchRow), (∀ row ∈ rows, ∃ old ∈ d.batches, old.id = batchID ∧
      row = { old with status, failureCode }) → may d (rows.map .updateBatch)) :
    (Ingest.setImportBatchStatus batchID status failureCode).Emits may := by
  apply Prog.emits_exec
  intro d writes answer success
  obtain ⟨_, -, updated⟩ := bind_ok.mp success
  obtain ⟨rfl, -⟩ := Prod.mk.inj (Except.ok.inj updated)
  refine made d _ fun row member => ?_
  obtain ⟨old, known, rfl⟩ := List.mem_map.mp member
  obtain ⟨stored, same⟩ := List.mem_filter.mp known
  exact ⟨old, stored, of_decide_eq_true same, rfl⟩

/-- Whatever the statements of an import write is allowed. -/
structure AllowsImport (may : Database → List Write → Prop) (batchID : UUID) : Prop where
  quiet : ∀ d, may d []
  account : ∀ d row, may d [.insertAccount row]
  missed : ∀ d hash, (∀ t ∈ d.transactions, t.dedupHash ≠ hash) → may d [.missed hash]
  skip : ∀ d row, may d [.insertDedupSkip row]
  transaction : ∀ d row, checkTransaction d row = .ok () → may d [.insertTransaction row]
  pair : ∀ d pair, may d [.insertTransfer pair,
    .insertTransferMember ⟨pair.outTxnID, pair.id, .outgoing⟩,
    .insertTransferMember ⟨pair.inTxnID, pair.id, .incoming⟩]
  batch : ∀ (d : Database) (rows : List ImportBatchRow) (status : BatchStatus)
    (failureCode : Option String), status ∈ [BatchStatus.imported, .failed] →
    (∀ row ∈ rows, ∃ old ∈ d.batches, old.id = batchID ∧ row = { old with status, failureCode }) →
    may d (rows.map .updateBatch)
  enqueue : ∀ d, may d [.enqueueClassify batchID]

theorem persistRows_emits (site : Site) (draws : Draws) {batch : ImportBatchRow}
    (st : Ingest.Statement) (allows : AllowsImport may batch.id) :
    (Ingest.persistRows site draws batch st).Emits may := by
  refine Prog.emits_bind (resolveAccount_emits allows.quiet allows.account _ _ _) fun _ =>
    Prog.emits_bind (Prog.emits_ofExcept _) fun candidates => Prog.emits_bind ?_ fun sorted =>
      Prog.emits_bind (Prog.emits_forM _ fun _ _ => insertSkip_emits allows.skip _ _) fun _ =>
        Prog.emits_bind ?_ fun inserted => Prog.emits_bind ?_ fun _ =>
          Prog.emits_bind (Prog.emits_ofExcept _) fun _ =>
            Prog.emits_bind (Prog.emits_ofExcept _) fun _ => Prog.emits_bind ?_ fun affected =>
              Prog.emits_bind (Prog.emits_ofExcept _) fun _ => ?_
  · refine Prog.emits_foldlM _ (fun sorted c => ?_) _
    refine Prog.emits_bind (findByHash_emits allows.quiet allows.missed _) ?_
    intro found
    cases found <;> trivial
  · exact Prog.emits_mapM _ fun _ => insertTransaction_emits allows.transaction _ _ _
  · refine Prog.emits_forM _ fun _ _ => Prog.emits_bind ?_ fun _ => trivial
    exact detectAndPair_emits allows.quiet allows.pair _ _ _ _
  · exact setImportBatchStatus_emits fun d rows made => allows.batch d rows _ _ (by simp) made
  · apply Prog.emits_exec
    intro d writes answer success
    obtain ⟨rfl, -⟩ := Prod.mk.inj (Except.ok.inj success)
    exact allows.enqueue d

theorem failImport_emits {batchID : UUID} (code : String) (allows : AllowsImport may batchID) :
    (do
      let affected ← Ingest.setImportBatchStatus batchID .failed (some code)
      Prog.ofExcept (exactlyOneRow affected) : Tx Unit).Emits may :=
  Prog.emits_bind
    (setImportBatchStatus_emits fun d rows made => allows.batch d rows _ _ (by simp) made)
    fun _ => Prog.emits_ofExcept _

end Emitted

end Vekst
