import Vekst.Proof.Dedup.Pairing

namespace Vekst.Dedup
open Isolation Ledger

/-- A recorded pair joins two transactions that could be one transfer, money out and money in. -/
def PairSound (d : Database) (it : InternalTransferRow) : Prop :=
  ∃ out ∈ d.transactions, ∃ in_ ∈ d.transactions, out.id = it.outTxnID ∧ in_.id = it.inTxnID ∧
    Compatible out in_ ∧ (baseAmount out).toInt < 0 ∧ 0 < (baseAmount in_).toInt

def outMember (it : InternalTransferRow) : TransferMemberRow := ⟨it.outTxnID, it.id, .outgoing⟩

def inMember (it : InternalTransferRow) : TransferMemberRow := ⟨it.inTxnID, it.id, .incoming⟩

structure Sound (d : Database) : Prop where
  whole : ∀ t ∈ d.transactions, WholeFX t
  transactionKeys : (d.transactions.map (·.id)).Nodup
  transferKeys : (d.transfers.map (·.id)).Nodup
  memberKeys : (d.transferMembers.map (·.txnID)).Nodup
  pairs : ∀ it ∈ d.transfers, PairSound d it
  members : ∀ it ∈ d.transfers, outMember it ∈ d.transferMembers ∧ inMember it ∈ d.transferMembers
  paired : ∀ m ∈ d.transferMembers, ∃ it ∈ d.transfers, m = outMember it ∨ m = inMember it

theorem sound_withoutTransactions (d : Database) : Sound (withoutTransactions d) := by
  constructor <;> simp [withoutTransactions]

/-- Neither transactions nor pairs are among what is written. -/
def Untouched (writes : List Write) : Prop :=
  ∀ w ∈ writes, match w with
    | .insertTransaction _ | .insertTransfer _ | .updateTransfer _ | .insertTransferMember _ => False
    | _ => True

structure SameTables (d d' : Database) : Prop where
  transactions : d'.transactions = d.transactions
  transfers : d'.transfers = d.transfers
  members : d'.transferMembers = d.transferMembers

theorem sameTables_of_untouched {d : Database} {writes : List Write} (untouched : Untouched writes) :
    SameTables d (writes.foldl Database.apply d) := by
  induction writes generalizing d with
  | nil => exact ⟨rfl, rfl, rfl⟩
  | cons w writes ih =>
      have first := untouched w (by simp)
      have rest : SameTables (d.apply w) (writes.foldl Database.apply (d.apply w)) :=
        ih fun other member => untouched other (by simp [member])
      rw [List.foldl_cons]
      cases w with
      | insertTransaction row => exact first.elim
      | insertTransfer row => exact first.elim
      | updateTransfer row => exact first.elim
      | insertTransferMember row => exact first.elim
      | _ => exact ⟨rest.transactions, rest.transfers, rest.members⟩

theorem Sound.congr {d d' : Database} (sound : Sound d) (same : SameTables d d') : Sound d' := by
  obtain ⟨transactions, transfers, members⟩ := same
  obtain ⟨whole, transactionKeys, transferKeys, memberKeys, pairs, membersOf, paired⟩ := sound
  constructor <;> simp only [transactions, transfers, members, PairSound] at * <;> assumption

theorem Sound.insertTransaction {d : Database} (sound : Sound d) {row : TransactionRow}
    (whole : WholeFX row) (fresh : ∀ t ∈ d.transactions, t.id ≠ row.id) :
    Sound (d.apply (.insertTransaction row)) where
  whole t member := by
    rcases List.mem_append.mp member with old | new
    · exact sound.whole t old
    · exact List.mem_singleton.mp new ▸ whole
  transactionKeys := by
    rw [Database.apply, List.map_append]
    refine List.Nodup.append sound.transactionKeys (List.nodup_singleton _) ?_
    intro id known same
    obtain ⟨t, stored, rfl⟩ := List.mem_map.mp known
    exact fresh t stored (by simpa using same)
  transferKeys := sound.transferKeys
  memberKeys := sound.memberKeys
  pairs it member := by
    obtain ⟨out, outStored, in_, inStored, rest⟩ := sound.pairs it member
    exact ⟨out, List.mem_append_left _ outStored, in_, List.mem_append_left _ inStored, rest⟩
  members := sound.members
  paired := sound.paired

theorem not_taken_iff {d : Database} {txnID : UUID} :
    ¬ Taken d txnID ↔ txnID ∉ d.transferMembers.map (·.txnID) := by
  simp [Taken]

/-- The sides of a pair, in the order of their signs. -/
theorem sides_spec {t c : TransactionRow} (compatible : Compatible t c) :
    ∃ out in_, (sides t c).1 = out.id ∧ (sides t c).2 = in_.id ∧ Compatible out in_ ∧
      (baseAmount out).toInt < 0 ∧ 0 < (baseAmount in_).toInt ∧
      (out = t ∧ in_ = c ∨ out = c ∧ in_ = t) := by
  have opposite := compatible.opposite
  have moved := compatible.moved
  have sign : 0 < baseAmount t ↔ 0 < (baseAmount t).toInt := Int64.lt_iff_toInt_lt
  unfold sides
  split_ifs with positive
  · have amount := sign.mp positive
    exact ⟨c, t, rfl, rfl, compatible.symm, by omega, amount, .inr ⟨rfl, rfl⟩⟩
  · have amount := mt sign.mpr positive
    exact ⟨t, c, rfl, rfl, compatible, by omega, by omega, .inl ⟨rfl, rfl⟩⟩

theorem Sound.withPair {d : Database} (sound : Sound d) {t c : TransactionRow} {id : UUID}
    {now : Timestamp} (tStored : t ∈ d.transactions) (cStored : c ∈ d.transactions)
    (compatible : Compatible t c) (fresh : ∀ it ∈ d.transfers, it.id ≠ id)
    (outFree : ¬ Taken d (sides t c).1) (inFree : ¬ Taken d (sides t c).2) :
    Sound (withPair d id now t c) := by
  obtain ⟨out, in_, outSide, inSide, sound', negative, positive, ends⟩ := sides_spec compatible
  have stored : out ∈ d.transactions ∧ in_ ∈ d.transactions := by
    rcases ends with ⟨rfl, rfl⟩ | ⟨rfl, rfl⟩
    · exact ⟨tStored, cStored⟩
    · exact ⟨cStored, tStored⟩
  refine ⟨sound.whole, sound.transactionKeys, ?_, ?_, ?_, ?_, ?_⟩
  · simp only [Dedup.withPair, List.map_append]
    refine List.Nodup.append sound.transferKeys (List.nodup_singleton _) ?_
    intro other known same
    obtain ⟨it, member, rfl⟩ := List.mem_map.mp known
    exact fresh it member (by simpa [pairRow] using same)
  · simp only [Dedup.withPair, List.map_append]
    refine List.Nodup.append sound.memberKeys ?_ ?_
    · simpa [outSide, inSide] using sound'.distinct.symm
    · intro txnID known new
      rcases List.mem_cons.mp new with rfl | last
      · exact not_taken_iff.mp outFree known
      · obtain rfl := List.mem_singleton.mp last
        exact not_taken_iff.mp inFree known
  · intro it member
    rcases List.mem_append.mp member with old | new
    · exact sound.pairs it old
    · obtain rfl := List.mem_singleton.mp new
      exact ⟨out, stored.1, in_, stored.2, outSide.symm, inSide.symm, sound', negative, positive⟩
  · intro it member
    simp only [Dedup.withPair, List.mem_append]
    rcases List.mem_append.mp member with old | new
    · exact ⟨.inl (sound.members it old).1, .inl (sound.members it old).2⟩
    · obtain rfl := List.mem_singleton.mp new
      exact ⟨.inr (by simp [outMember, pairRow]), .inr (by simp [inMember, pairRow])⟩
  · intro m member
    rcases List.mem_append.mp member with old | new
    · obtain ⟨it, known, side⟩ := sound.paired m old
      exact ⟨it, List.mem_append_left _ known, side⟩
    · refine ⟨pairRow id now t c, List.mem_append_right _ (by simp), ?_⟩
      simpa [outMember, inMember, pairRow] using new

theorem mem_replaceBy {α : Type} {id : α → UUID} {row : α} {rows : List α} {found : α}
    (member : found ∈ replaceBy id row rows) :
    found ∈ rows ∨ found = row ∧ ∃ old ∈ rows, id old = id row := by
  obtain ⟨old, known, same⟩ := List.mem_map.mp member
  split at same
  next matching => exact .inr ⟨same.symm, old, known, matching⟩
  next => exact .inl (same ▸ known)

theorem map_replaceBy {α β : Type} {id : α → UUID} {row : α} {rows : List α} (f : α → β)
    (same : ∀ old ∈ rows, id old = id row → f old = f row) :
    (replaceBy id row rows).map f = rows.map f := by
  rw [replaceBy, List.map_map]
  apply List.map_congr_left
  intro old member
  by_cases matching : id old = id row
  · simp [matching, same old member matching]
  · simp [matching]

/-- A pair dismissed keeps its sides. -/
theorem Sound.updateTransfer {d : Database} (sound : Sound d) {it row : InternalTransferRow}
    (known : it ∈ d.transfers) (id : row.id = it.id) (out : row.outTxnID = it.outTxnID)
    (in_ : row.inTxnID = it.inTxnID) : Sound (d.apply (.updateTransfer row)) := by
  -- Whatever the pair's identifier finds is the pair.
  have only : ∀ old ∈ d.transfers, old.id = row.id → old = it := by
    intro old member same
    exact List.inj_on_of_nodup_map sound.transferKeys member known (same.trans id)
  have members : outMember row = outMember it ∧ inMember row = inMember it := by
    simp [outMember, inMember, id, out, in_]
  refine ⟨sound.whole, sound.transactionKeys, ?_, sound.memberKeys, ?_, ?_, ?_⟩
  · have keys : (replaceBy (·.id) row d.transfers).map (·.id) = d.transfers.map (·.id) :=
      map_replaceBy _ fun old _ same => same
    rw [Database.apply, keys]
    exact sound.transferKeys
  · intro found member
    rcases mem_replaceBy member with old | ⟨rfl, -⟩
    · exact sound.pairs found old
    · have pair := sound.pairs it known
      unfold PairSound at pair ⊢
      rwa [out, in_]
  · intro found member
    rcases mem_replaceBy member with old | ⟨rfl, -⟩
    · exact sound.members found old
    · rw [members.1, members.2]
      exact sound.members it known
  · intro m member
    obtain ⟨old, listed, side⟩ := sound.paired m member
    by_cases same : old.id = row.id
    · obtain rfl := only old listed same
      refine ⟨row, List.mem_map.mpr ⟨old, listed, if_pos same⟩, ?_⟩
      rwa [members.1, members.2]
    · exact ⟨old, List.mem_map.mpr ⟨old, listed, if_neg same⟩, side⟩

/-! ## The operations -/

/-- The state is sound, and the pairs there were are as they were. -/
def Kept (start s : Database) : Prop := Sound s ∧ ∀ it ∈ start.transfers, it ∈ s.transfers

variable {start : Database}

theorem Kept.untouched {s : Database} {writes : List Write} (kept : Kept start s)
    (untouched : Untouched writes) : Kept start (writes.foldl Database.apply s) := by
  have same : SameTables s (writes.foldl Database.apply s) := sameTables_of_untouched untouched
  refine ⟨kept.1.congr same, fun it member => ?_⟩
  rw [same.transfers]
  exact kept.2 it member

theorem untouched_resolveAccount (id entityID : UUID) (st : Ingest.Statement) :
    (Ingest.resolveAccount id entityID st).Emits fun _ writes => Untouched writes :=
  resolveAccount_emits (by simp [Untouched]) (by simp [Untouched]) id entityID st

theorem untouched_findByHash (hash : String) :
    (findByHash hash).Emits fun _ writes => Untouched writes :=
  findByHash_emits (by simp [Untouched]) (by simp [Untouched]) hash

theorem untouched_insertSkip (id : UUID) (s : Skip) :
    (insertSkip id s).Emits fun _ writes => Untouched writes :=
  insertSkip_emits (by simp [Untouched]) id s

theorem untouched_setImportBatchStatus (batchID : UUID) (status : BatchStatus)
    (failureCode : Option String) :
    (Ingest.setImportBatchStatus batchID status failureCode).Emits
      fun _ writes => Untouched writes := by
  apply setImportBatchStatus_emits
  intro d rows _ w member
  obtain ⟨row, -, rfl⟩ := List.mem_map.mp member
  trivial

/-! ## Storing transactions and pairing them -/

theorem toInsertParams_entity {id : UUID} {now : Timestamp} {t : Transaction} {row : TransactionRow}
    (success : toInsertParams id now t = .ok row) : row.entityID = t.entityID ∧ row.id = id := by
  obtain ⟨currency, -, success⟩ := bind_ok.mp success
  dsimp only at success
  by_cases noLine : t.lineNo ≤ 0
  · simp only [noLine, if_true] at success
    obtain ⟨_, stopped, -⟩ := bind_ok.mp success
    cases stopped
  · simp only [noLine, if_false] at success
    cases converted : t.fx with
    | none =>
        simp only [converted] at success
        obtain rfl := Except.ok.inj success
        exact ⟨rfl, rfl⟩
    | some fx =>
        simp only [converted] at success
        obtain ⟨baseCurrency, -, made⟩ := bind_ok.mp success
        obtain rfl := Except.ok.inj made
        exact ⟨rfl, rfl⟩

theorem checkTransaction_ok {d : Database} {row : TransactionRow}
    (success : checkTransaction d row = .ok ()) :
    WholeFX row ∧ ∀ t ∈ d.transactions, t.id ≠ row.id := by
  obtain ⟨_, -, success⟩ := bind_ok.mp success
  obtain ⟨_, -, success⟩ := bind_ok.mp success
  obtain ⟨_, -, success⟩ := bind_ok.mp success
  obtain ⟨_, -, success⟩ := bind_ok.mp success
  obtain ⟨_, -, success⟩ := bind_ok.mp success
  obtain ⟨_, whole, success⟩ := bind_ok.mp success
  obtain ⟨_, -, success⟩ := bind_ok.mp success
  obtain ⟨_, -, success⟩ := bind_ok.mp success
  obtain ⟨_, -, success⟩ := bind_ok.mp success
  obtain ⟨_, fresh, -⟩ := bind_ok.mp success
  rw [require_ok] at whole fresh
  refine ⟨?_, by simpa using fresh⟩
  unfold WholeFX
  revert whole
  cases row.fxRate <;> cases row.fxRateOn <;> cases row.baseAmountMinor <;>
    cases row.baseCurrency <;> simp

theorem leaves_insert {draw : Nat → UUID} {now : Timestamp} {txns : List Transaction}
    {under : TransactionRow → Prop}
    (each : ∀ t ∈ txns, ∀ row : TransactionRow, row.entityID = t.entityID → under row) :
    (insert draw now txns).Leaves Database.apply (Kept start) fun rows s =>
      Kept start s ∧ ∀ row ∈ rows, row ∈ s.transactions ∧ under row := by
  let inv (rows : List TransactionRow) (s : Database) : Prop :=
    Kept start s ∧ ∀ row ∈ rows, row ∈ s.transactions ∧ under row
  have all : (insert draw now txns).Leaves Database.apply (inv []) fun rows => inv ([] ++ rows) := by
    apply Prog.leaves_mapM
    rintro ⟨t, i⟩ member done_
    have known : t ∈ txns := List.fst_mem_of_mem_zipIdx member
    apply Prog.leaves_exec
    rintro s writes row ⟨kept, rows⟩ success
    obtain ⟨_, params, success⟩ := bind_ok.mp success
    obtain ⟨_, checked, made⟩ := bind_ok.mp success
    obtain ⟨rfl, rfl⟩ := Prod.mk.inj (Except.ok.inj made)
    obtain ⟨whole, fresh⟩ := checkTransaction_ok checked
    refine ⟨⟨kept.1.insertTransaction whole fresh, kept.2⟩, ?_⟩
    intro found listed
    rcases List.mem_append.mp listed with old | new
    · exact ⟨List.mem_append_left _ (rows found old).1, (rows found old).2⟩
    · obtain rfl := List.mem_singleton.mp new
      exact ⟨List.mem_append_right _ (by simp), each t known _ (toInsertParams_entity params).1⟩
  exact Prog.leaves_mono all (fun s kept => ⟨kept, by simp⟩) fun rows s left => left

theorem leaves_detectAndPair {id : UUID} {now : Timestamp} {t : TransactionRow}
    {rows : List TransactionRow} (listed : t ∈ rows) :
    (detectAndPair id now t.entityID t).Leaves Database.apply
      (fun s => Kept start s ∧ ∀ row ∈ rows, row ∈ s.transactions)
      fun _ s => Kept start s ∧ ∀ row ∈ rows, row ∈ s.transactions := by
  rintro s answer after ⟨kept, stored⟩ ran
  rcases detectAndPair_ok ran with ⟨rfl, -⟩ | ⟨c, rest, moved, found, rfl, fresh, outFree, inFree⟩
  · exact ⟨kept, stored⟩
  · have candidate := (mem_transferCandidates kept.1.whole moved found c).mp (by simp)
    have sound : Sound (withPair s id now t c) :=
      kept.1.withPair (stored t listed) candidate.1 candidate.2.1 fresh outFree inFree
    exact ⟨⟨sound, fun it member => List.mem_append_left _ (kept.2 it member)⟩, stored⟩

theorem buildTransaction_entity {site : Site} {accountID : UUID} {batch : ImportBatchRow}
    {currency : String} {r : Ingest.Row} {t : Transaction}
    (success : Ingest.buildTransaction site accountID batch currency r = .ok t) :
    t.entityID = batch.entityID := by
  obtain ⟨bookedOn, -, made⟩ := bind_ok.mp success
  obtain rfl := Except.ok.inj made
  rfl

/-- The rows a batch's statement makes belong to the batch's entity. -/
theorem candidates_entity {site : Site} {accountID : UUID} {batch : ImportBatchRow}
    {st : Ingest.Statement} {candidates : List Candidate}
    (built : (st.rows.mapM fun r => (Ingest.buildTransaction site accountID batch st.currency r).map
      fun txn => (⟨r.lineNo, txn⟩ : Candidate)) = .ok candidates) :
    ∀ c ∈ partition site.sha256 candidates, c.txn.entityID = batch.entityID := by
  intro c member
  obtain ⟨old, original, hash, rfl⟩ := mem_partitionFrom member
  obtain ⟨r, -, success⟩ := Relational.mem_of_mapM built original
  cases one : Ingest.buildTransaction site accountID batch st.currency r with
  | error e => simp [one, Except.map] at success
  | ok txn =>
      obtain rfl : ⟨r.lineNo, txn⟩ = old := by simpa [one, Except.map] using success
      have owned := buildTransaction_entity one
      exact owned

theorem leaves_lookUp {batchID entityID : UUID} {c : Candidate} (own : c.txn.entityID = entityID)
    (sorted : Ingest.Sorted) :
    (Ingest.lookUp batchID sorted c).Leaves Database.apply
      (fun s => Kept start s ∧ ∀ t ∈ sorted.toInsert, t.entityID = entityID)
      fun sorted s => Kept start s ∧ ∀ t ∈ sorted.toInsert, t.entityID = entityID := by
  rintro s after t ⟨kept, owned⟩ ran
  obtain ⟨found, mid, first, ran⟩ := (Prog.run_bind_ok _).mp ran
  have looked : (findByHash c.txn.dedupHash).Leaves Database.apply (Kept start) fun _ => Kept start :=
    Prog.leaves_of_emits (untouched_findByHash _) fun s writes kept untouched => kept.untouched untouched
  have known := looked s found mid kept first
  cases found with
  | some found =>
      obtain ⟨rfl, rfl⟩ := Prod.mk.inj (Except.ok.inj ran)
      exact ⟨known, owned⟩
  | none =>
      obtain ⟨rfl, rfl⟩ := Prod.mk.inj (Except.ok.inj ran)
      refine ⟨known, fun t member => ?_⟩
      rcases List.mem_append.mp member with old | new
      · exact owned t old
      · exact List.mem_singleton.mp new ▸ own

theorem leaves_persistRows {site : Site} {draws : Draws} {batch : ImportBatchRow}
    {st : Ingest.Statement} :
    (Ingest.persistRows site draws batch st).Leaves Database.apply (Kept start)
      fun _ => Kept start := by
  -- Statements that touch neither transactions nor pairs.
  have quiet {α : Type} {p : Tx α} (emits : p.Emits fun _ writes => Untouched writes) :
      p.Leaves Database.apply (Kept start) fun _ => Kept start :=
    Prog.leaves_of_emits emits fun s writes kept untouched => kept.untouched untouched
  refine Prog.leaves_bind (quiet (untouched_resolveAccount _ _ st)) ?_
  rintro ⟨accountID, mismatched⟩
  refine Prog.leaves_bind (Prog.leaves_ofExcept fun s candidates kept built =>
    And.intro kept (candidates_entity built)) fun candidates => Prog.leaves_assume fun owned => ?_
  refine Prog.leaves_bind (Prog.leaves_mono (Prog.leaves_foldlM _
    (fun c member sorted => leaves_lookUp (owned c member) sorted) ⟨[], []⟩)
      (fun s kept => ⟨kept, by simp⟩) fun sorted s left => left)
        fun sorted => Prog.leaves_assume fun owned => ?_
  refine Prog.leaves_bind (quiet (Prog.emits_forM _ fun _ _ => untouched_insertSkip _ _)) fun _ => ?_
  refine Prog.leaves_bind (leaves_insert fun t member row same =>
    (same.trans (owned t member) : row.entityID = batch.entityID)) fun inserted => ?_
  have apart : ∀ s, (Kept start s ∧ ∀ row ∈ inserted, row ∈ s.transactions ∧
      row.entityID = batch.entityID) → (Kept start s ∧ ∀ row ∈ inserted, row ∈ s.transactions) ∧
        ∀ row ∈ inserted, row.entityID = batch.entityID :=
    fun s both => ⟨⟨both.1, fun row member => (both.2 row member).1⟩,
      fun row member => (both.2 row member).2⟩
  refine Prog.leaves_mono (Prog.leaves_assume fun own => ?_) apart fun _ _ left => left
  refine Prog.leaves_bind (Prog.leaves_forM _ ?_) fun _ => ?_
  · rintro ⟨t, i⟩ member
    have listed : t ∈ inserted := List.fst_mem_of_mem_zipIdx member
    rw [← own t listed]
    exact Prog.leaves_bind (leaves_detectAndPair listed) fun _ =>
      Prog.leaves_ret fun _ known => known
  refine Prog.leaves_mono (quiet ?_) (fun s both => both.1) fun _ _ left => left
  refine Prog.emits_bind (Prog.emits_ofExcept _) fun _ => ?_
  refine Prog.emits_bind (Prog.emits_ofExcept _) fun _ => ?_
  refine Prog.emits_bind (untouched_setImportBatchStatus _ _ _) fun affected => ?_
  refine Prog.emits_bind (Prog.emits_ofExcept _) fun _ => ?_
  apply Prog.emits_exec
  intro d writes answer success
  obtain ⟨rfl, -⟩ := Prod.mk.inj (Except.ok.inj success)
  simp [Untouched]

/-! ## Any sequence of operations -/

/-- What becomes of a pair in one operation: nothing, or its own dismissal. -/
def Followed (op : Operation) (it : InternalTransferRow) (after : Database) : Prop :=
  it ∈ after.transfers ∨ ∃ now userID, op = .dismiss now it.id userID ∧ it.dismissedAt = none ∧
    { it with dismissedBy := some userID, dismissedAt := some now } ∈ after.transfers

theorem dismiss_ok {d after : Database} {now : Timestamp} {transferID userID : UUID}
    {answer : InternalTransferRow}
    (ran : (dismiss now transferID userID).run Database.apply d = .ok (answer, after)) :
    ∃ it ∈ d.transfers, it.id = transferID ∧ it.dismissedAt = none ∧
      after = d.apply (.updateTransfer
        { it with dismissedBy := some userID, dismissedAt := some now }) := by
  obtain ⟨writes, made, rfl⟩ := (Prog.run_exec_ok _).mp ran
  split at made
  next => cases made
  next it found =>
    obtain ⟨rfl, -⟩ := Prod.mk.inj (Except.ok.inj made)
    have chosen := List.find?_some found
    simp only [Bool.and_eq_true, decide_eq_true_eq, Option.isNone_iff_eq_none] at chosen
    exact ⟨it, List.mem_of_find?_eq_some found, chosen.1, chosen.2, rfl⟩

theorem findTransaction_ok {d : Database} {txnID : UUID} {txn : TransactionRow}
    (success : findTransaction d txnID = .ok txn) : txn ∈ d.transactions := by
  unfold findTransaction at success
  split at success
  next found =>
    obtain rfl := Except.ok.inj success
    exact List.mem_of_find?_eq_some found
  next => cases success

theorem sound_step {site : Site} {d : Database} (sound : Sound d) (op : Operation) :
    Sound (op.step site d) ∧ ∀ it ∈ d.transfers, Followed op it (op.step site d) := by
  unfold Operation.step
  cases ran : (op.body site).run Database.apply d with
  | error e => exact ⟨sound, fun it member => .inl member⟩
  | ok result =>
      obtain ⟨answer, after⟩ := result
      have opened : Kept d d := ⟨sound, fun it member => member⟩
      have finish (kept : Kept d after) :
          Sound after ∧ ∀ it ∈ d.transfers, Followed op it after :=
        ⟨kept.1, fun it member => .inl (kept.2 it member)⟩
      cases op with
      | persist batchID draws st =>
          obtain ⟨batch, mid, first, ran⟩ := (Prog.run_bind_ok _).mp ran
          obtain ⟨-, rfl⟩ := (Prog.run_query_ok _).mp first
          exact finish (leaves_persistRows d answer after opened ran)
      | insert draw now txns =>
          obtain ⟨rows, mid, first, ran⟩ := (Prog.run_bind_ok _).mp ran
          obtain ⟨-, rfl⟩ := Prod.mk.inj (Except.ok.inj ran)
          have anything : ∀ t ∈ txns, ∀ row : TransactionRow, row.entityID = t.entityID → True :=
            fun _ _ _ _ => trivial
          exact finish (leaves_insert anything d rows _ opened first).1
      | detectAndPair id now txnID =>
          obtain ⟨txn, mid, first, ran⟩ := (Prog.run_bind_ok _).mp ran
          obtain ⟨found, rfl⟩ := (Prog.run_query_ok _).mp first
          obtain ⟨pair, mid, second, ran⟩ := (Prog.run_bind_ok _).mp ran
          obtain ⟨-, rfl⟩ := Prod.mk.inj (Except.ok.inj ran)
          have stored := findTransaction_ok found
          have listed : txn ∈ [txn] := by simp
          exact finish (leaves_detectAndPair listed d pair _ ⟨opened, by simpa using stored⟩ second).1
      | dismiss now transferID userID =>
          obtain ⟨row, mid, first, ran⟩ := (Prog.run_bind_ok _).mp ran
          obtain ⟨-, rfl⟩ := Prod.mk.inj (Except.ok.inj ran)
          obtain ⟨it, known, rfl, undismissed, rfl⟩ := dismiss_ok first
          refine ⟨sound.updateTransfer known rfl rfl rfl, fun other member => ?_⟩
          by_cases own : other.id = it.id
          · obtain rfl := List.inj_on_of_nodup_map sound.transferKeys member known own
            exact .inr ⟨now, userID, rfl, undismissed, List.mem_map.mpr ⟨other, member, if_pos rfl⟩⟩
          · exact .inl (List.mem_map.mpr ⟨other, member, if_neg own⟩)

theorem sound_performAll {site : Site} {d : Database} (sound : Sound d) (ops : List Operation) :
    Sound (performAll site d ops) := by
  induction ops generalizing d with
  | nil => exact sound
  | cons op ops ih => exact ih (sound_step sound op).1

/-- A pair is never lost, and keeps its identifier and sides. -/
theorem pair_persists {site : Site} {d : Database} (sound : Sound d) (ops : List Operation)
    {it : InternalTransferRow} (known : it ∈ d.transfers) :
    ∃ later ∈ (performAll site d ops).transfers,
      later.id = it.id ∧ later.outTxnID = it.outTxnID ∧ later.inTxnID = it.inTxnID := by
  induction ops generalizing d it with
  | nil => exact ⟨it, known, rfl, rfl, rfl⟩
  | cons op ops ih =>
      obtain ⟨next, followed⟩ := @sound_step site d sound op
      rcases followed it known with same | ⟨now, userID, -, -, dismissed⟩
      · exact ih next same
      · obtain ⟨later, listed, sides⟩ := ih next dismissed
        exact ⟨later, listed, sides⟩

/-- A transaction is on a side of the pair. -/
def Joins (it : InternalTransferRow) (txnID : UUID) : Prop :=
  txnID = it.outTxnID ∨ txnID = it.inTxnID

theorem Sound.only_pair {d : Database} (sound : Sound d) {it other : InternalTransferRow}
    (known : it ∈ d.transfers) (listed : other ∈ d.transfers) {txnID : UUID}
    (joins : Joins it txnID) (joins' : Joins other txnID) : it = other := by
  have member : ∀ it ∈ d.transfers, Joins it txnID →
      ∃ m ∈ d.transferMembers, m.txnID = txnID ∧ m.transferID = it.id := by
    rintro it known (rfl | rfl)
    · exact ⟨_, (sound.members it known).1, rfl, rfl⟩
    · exact ⟨_, (sound.members it known).2, rfl, rfl⟩
  obtain ⟨m, mKnown, own, belongs⟩ := member it known joins
  obtain ⟨m', mKnown', own', belongs'⟩ := member other listed joins'
  obtain rfl := List.inj_on_of_nodup_map sound.memberKeys mKnown mKnown' (own.trans own'.symm)
  exact List.inj_on_of_nodup_map sound.transferKeys known listed (belongs.symm.trans belongs')

/-- After any operations every pair is sound; no transaction is on a side of two pairs, then or
ever after; and an operation changes no pair but the one it dismisses. -/
theorem transfers_sound (site : Site) (d : Database) (ops later : List Operation) :
    (∀ it ∈ (performAll site (withoutTransactions d) ops).transfers,
      PairSound (performAll site (withoutTransactions d) ops) it) ∧
    (∀ it ∈ (performAll site (withoutTransactions d) ops).transfers,
      ∀ other ∈ (performAll site (withoutTransactions d) (ops ++ later)).transfers,
        ∀ txnID, Joins it txnID → Joins other txnID →
          other.id = it.id ∧ other.outTxnID = it.outTxnID ∧ other.inTxnID = it.inTxnID) ∧
    ∀ op, ∀ it ∈ (performAll site (withoutTransactions d) ops).transfers,
      Followed op it (op.step site (performAll site (withoutTransactions d) ops)) := by
  have sound : Sound (performAll site (withoutTransactions d) ops) :=
    sound_performAll (sound_withoutTransactions d) ops
  refine ⟨sound.pairs, ?_, fun op => (sound_step sound op).2⟩
  intro it known other listed txnID joins joins'
  rw [performAll, List.foldl_append] at listed
  obtain ⟨it', kept, id, out, in_⟩ := @pair_persists site _ sound later it known
  have joins'' : Joins it' txnID := by
    unfold Joins at joins ⊢
    rwa [out, in_]
  have same := (sound_performAll sound later).only_pair kept listed joins'' joins'
  rw [← same]
  exact ⟨id, out, in_⟩

end Vekst.Dedup
