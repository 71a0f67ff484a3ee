import Vekst.Proof.Dedup.Soundness

namespace Vekst.Dedup
open Isolation Ledger

/-- Rows that can be stored together: under keys of their own, with amounts that can be negated. -/
structure Storable (rows : List TransactionRow) : Prop where
  keys : (rows.map (·.id)).Nodup
  whole : ∀ t ∈ rows, WholeFX t
  negatable : ∀ t ∈ rows, -2 ^ 63 < (baseAmount t).toInt

/-- No transaction has two others it could be paired with. -/
def Unambiguous (rows : List TransactionRow) : Prop :=
  ∀ t ∈ rows, ∀ c ∈ rows, ∀ c' ∈ rows, Compatible t c → Compatible t c' → c = c'

/-- Whatever the order and the batches the rows arrive in, the pairs are the same. -/
def OrderFree (d : Database) (rows : List TransactionRow) : Prop :=
  ∀ (draw draw' : UUID → UUID) (now now' : Timestamp) (batches batches' : List (List TransactionRow)),
    Function.Injective draw → Function.Injective draw' →
    batches.flatten.Perm rows → batches'.flatten.Perm rows →
    pairsAfter d draw now batches = pairsAfter d draw' now' batches'

section

variable {rows : List TransactionRow} {draw : UUID → UUID} {now : Timestamp} {d after : Database}

theorem Taken.pair (sound : Sound d) {t : TransactionRow} (stored : t ∈ d.transactions)
    (taken : Taken d t.id) : ∃ it ∈ d.transfers, ∃ c ∈ d.transactions, Compatible t c ∧
      Joins it t.id ∧ Joins it c.id ∧ Taken d c.id := by
  obtain ⟨m, known, own⟩ := taken
  obtain ⟨it, listed, side⟩ := sound.paired m known
  obtain ⟨out, outStored, in_, inStored, outID, inID, compatible, -⟩ := sound.pairs it listed
  have same {x : TransactionRow} (xStored : x ∈ d.transactions) (id : x.id = t.id) : x = t :=
    List.inj_on_of_nodup_map sound.transactionKeys xStored stored id
  obtain ⟨outListed, inListed⟩ := sound.members it listed
  rcases side with rfl | rfl
  · obtain rfl := same outStored (outID.trans own)
    exact ⟨it, listed, in_, inStored, compatible, .inl outID, .inr inID, _, inListed, inID.symm⟩
  · obtain rfl := same inStored (inID.trans own)
    exact ⟨it, listed, out, outStored, compatible.symm, .inr inID, .inl outID, _, outListed, outID.symm⟩

theorem sides_cases (t c : TransactionRow) :
    sides t c = (t.id, c.id) ∨ sides t c = (c.id, t.id) := by
  unfold sides
  split_ifs
  · exact .inr rfl
  · exact .inl rfl

theorem insertInternalTransferPair_runs {id outTxnID inTxnID : UUID}
    (distinct : outTxnID ≠ inTxnID) (unkeyed : d.transfers.all (·.id ≠ id))
    (known : d.transactions.any (·.id = outTxnID) ∧ d.transactions.any (·.id = inTxnID))
    (unused : d.transferMembers.all fun m => m.txnID ≠ outTxnID && m.txnID ≠ inTxnID) :
    ∃ pair after, (insertInternalTransferPair id now outTxnID inTxnID).run Database.apply d =
      .ok (pair, after) := by
  rw [insertInternalTransferPair, Prog.run_exec]
  simp only [require, decide_eq_true distinct, unkeyed, known, unused, Bool.and_self, if_true, bind,
    Except.bind, pure, Except.pure, Except.map]
  exact ⟨_, _, rfl⟩

/-- Looking for a pair succeeds when the transaction is free wherever a candidate is. -/
theorem detectAndPair_runs {id : UUID} {t : TransactionRow} (sound : Sound d)
    (stored : t ∈ d.transactions) (negatable : -2 ^ 63 < (baseAmount t).toInt)
    (fresh : ∀ it ∈ d.transfers, it.id ≠ id)
    (free : ∀ c ∈ d.transactions, Compatible t c → ¬ Taken d c.id → ¬ Taken d t.id) :
    ∃ answer after, (detectAndPair id now t.entityID t).run Database.apply d =
      .ok (answer, after) := by
  by_cases moved : baseAmount t = 0
  · refine ⟨none, d, ?_⟩
    simp [detectAndPair, moved]
  have fits : Wrapping.Fits (-(baseAmount t).toInt) := by
    have range := Wrapping.fits_toInt (baseAmount t)
    unfold Wrapping.Fits at range ⊢
    omega
  have found : ∃ candidates, transferCandidates d t.entityID t = .ok candidates := by
    simp [transferCandidates, bigint, fits, bind, Except.bind, pure, Except.pure]
  obtain ⟨candidates, found⟩ := found
  unfold detectAndPair
  simp only [moved, if_false, Prog.run_bind, Prog.run_query, found, Except.map, Except.bind]
  cases candidates with
  | nil => exact ⟨none, d, rfl⟩
  | cons c rest =>
      obtain ⟨cStored, compatible, untaken⟩ :=
        (mem_transferCandidates sound.whole moved found c).mp (by simp)
      have tFree := free c cStored compatible untaken
      have distinct : (sides t c).1 ≠ (sides t c).2 := by
        rcases sides_cases t c with same | same <;> rw [same]
        · exact compatible.distinct.symm
        · exact compatible.distinct
      have known : d.transactions.any (·.id = (sides t c).1) ∧
          d.transactions.any (·.id = (sides t c).2) := by
        rcases sides_cases t c with same | same <;> rw [same] <;> constructor <;>
          rw [List.any_eq_true]
        · exact ⟨t, stored, by simp⟩
        · exact ⟨c, cStored, by simp⟩
        · exact ⟨c, cStored, by simp⟩
        · exact ⟨t, stored, by simp⟩
      have unused : d.transferMembers.all fun m =>
          m.txnID ≠ (sides t c).1 && m.txnID ≠ (sides t c).2 := by
        rw [List.all_eq_true]
        intro m member
        rcases sides_cases t c with same | same <;> rw [same]
        · simpa using ⟨fun own => tFree ⟨m, member, own⟩, fun own => untaken ⟨m, member, own⟩⟩
        · simpa using ⟨fun own => untaken ⟨m, member, own⟩, fun own => tFree ⟨m, member, own⟩⟩
      have unkeyed : d.transfers.all (·.id ≠ id) := by
        rw [List.all_eq_true]
        exact fun it member => decide_eq_true (fresh it member)
      obtain ⟨pair, after, inserted⟩ : ∃ pair after, (insertInternalTransferPair id now (sides t c).1
          (sides t c).2).run Database.apply d = .ok (pair, after) :=
        insertInternalTransferPair_runs distinct unkeyed known unused
      refine ⟨some pair, after, ?_⟩
      exact (Prog.run_bind_ok _).mpr ⟨pair, after, inserted, rfl⟩

/-! ## One arrival after another -/

/-- The state once pairs have been looked for on some of the rows. -/
structure Arrived (rows : List TransactionRow) (draw : UUID → UUID)
    (processed : List TransactionRow) (d : Database) : Prop where
  sound : Sound d
  among : ∀ t ∈ d.transactions, t ∈ rows
  drawn : ∀ it ∈ d.transfers, ∃ t ∈ processed, it.id = draw t.id

theorem Taken.withPair {t c : TransactionRow} {id txnID : UUID} (taken : Taken d txnID) :
    Taken (withPair d id now t c) txnID := by
  obtain ⟨m, known, own⟩ := taken
  exact ⟨m, List.mem_append_left _ known, own⟩

theorem taken_withPair (t c : TransactionRow) (id : UUID) :
    Taken (withPair d id now t c) t.id ∧ Taken (withPair d id now t c) c.id := by
  have first : Taken (Dedup.withPair d id now t c) (sides t c).1 :=
    ⟨⟨_, id, .outgoing⟩, List.mem_append_right _ (by simp), rfl⟩
  have second : Taken (Dedup.withPair d id now t c) (sides t c).2 :=
    ⟨⟨_, id, .incoming⟩, List.mem_append_right _ (by simp), rfl⟩
  rcases sides_cases t c with same | same <;> rw [same] at first second
  · exact ⟨first, second⟩
  · exact ⟨second, first⟩

/-- What looking for a pair on the next row does, where it can be done. -/
theorem Arrived.detect {processed : List TransactionRow} (storable : Storable rows)
    (injective : Function.Injective draw) (arrived : Arrived rows draw processed d)
    {t : TransactionRow} (stored : t ∈ d.transactions) (unprocessed : ∀ p ∈ processed, p.id ≠ t.id)
    (free : ∀ c ∈ d.transactions, Compatible t c → ¬ Taken d c.id → ¬ Taken d t.id) :
    ∃ answer after, (detectAndPair (draw t.id) now t.entityID t).run Database.apply d =
        .ok (answer, after) ∧
      Arrived rows draw (processed ++ [t]) after ∧ after.transactions = d.transactions ∧
      (∀ it ∈ d.transfers, it ∈ after.transfers) ∧
      (∀ txnID, Taken d txnID → Taken after txnID) ∧
      ((∀ c ∈ d.transactions, Compatible t c → Taken d c.id) ∨
        ∃ c ∈ d.transactions, Compatible t c ∧ Taken after t.id ∧ Taken after c.id) := by
  have fresh : ∀ it ∈ d.transfers, it.id ≠ draw t.id := by
    intro it member same
    obtain ⟨p, known, id⟩ := arrived.drawn it member
    exact unprocessed p known (injective (id.symm.trans same))
  obtain ⟨answer, after, ran⟩ := @detectAndPair_runs now d (draw t.id) t arrived.sound stored
    (storable.negatable t (arrived.among t stored)) fresh free
  refine ⟨answer, after, ran, ?_⟩
  have drawn : ∀ it ∈ d.transfers, ∃ p ∈ processed ++ [t], it.id = draw p.id := by
    intro it member
    obtain ⟨p, known, id⟩ := arrived.drawn it member
    exact ⟨p, List.mem_append_left _ known, id⟩
  rcases detectAndPair_ok ran with ⟨rfl, alone⟩ | ⟨c, rest, moved, found, rfl, -, outFree, inFree⟩
  · refine ⟨⟨arrived.sound, arrived.among, drawn⟩, rfl, fun _ member => member, fun _ taken => taken,
      .inl fun c cStored compatible => ?_⟩
    have moved : baseAmount t ≠ 0 := by
      intro zero
      exact compatible.moved (by rw [zero]; rfl)
    rcases alone with zero | none_
    · exact absurd zero moved
    · by_contra untaken
      have candidate := (mem_transferCandidates arrived.sound.whole moved none_ c).mpr
        ⟨cStored, compatible, untaken⟩
      cases candidate
  · obtain ⟨cStored, compatible, -⟩ :=
      (mem_transferCandidates arrived.sound.whole moved found c).mp (by simp)
    have sound : Sound (Dedup.withPair d (draw t.id) now t c) :=
      arrived.sound.withPair stored cStored compatible fresh outFree inFree
    refine ⟨⟨sound, arrived.among, fun it member => ?_⟩, rfl,
      fun it member => List.mem_append_left _ member, fun _ taken => taken.withPair,
      .inr ⟨c, cStored, compatible, taken_withPair t c _⟩⟩
    rcases List.mem_append.mp member with old | new
    · exact drawn it old
    · obtain rfl := List.mem_singleton.mp new
      exact ⟨t, by simp, rfl⟩

theorem store_run (batch : List TransactionRow) (d : Database) :
    (batch.forM fun t => (Prog.exec fun _ => .ok ([.insertTransaction t], ()) : Tx Unit)).run
      Database.apply d = .ok ((), { d with transactions := d.transactions ++ batch }) := by
  induction batch generalizing d with
  | nil => simp [pure]
  | cons t batch ih =>
      change ((Prog.exec fun _ => .ok ([.insertTransaction t], ()) : Tx Unit) >>= fun _ =>
        batch.forM fun t => Prog.exec fun _ => .ok ([.insertTransaction t], ())).run _ d = _
      rw [Prog.run_bind, Prog.run_exec]
      simp only [Except.map, Except.bind, ih, List.foldl_cons, List.foldl_nil, Database.apply,
        List.append_assoc, List.singleton_append]

theorem Arrived.store {processed batch : List TransactionRow} (storable : Storable rows)
    (arrived : Arrived rows draw processed d) (inside : ∀ t ∈ batch, t ∈ rows)
    (keys : ((d.transactions ++ batch).map (·.id)).Nodup) :
    Arrived rows draw processed { d with transactions := d.transactions ++ batch } := by
  obtain ⟨sound, among, drawn⟩ := arrived
  have all : ∀ t ∈ d.transactions ++ batch, t ∈ rows := by
    intro t member
    rcases List.mem_append.mp member with old | new
    · exact among t old
    · exact inside t new
  refine ⟨⟨fun t member => storable.whole t (all t member), keys, sound.transferKeys,
    sound.memberKeys, ?_, sound.members, sound.paired⟩, all, drawn⟩
  intro it member
  obtain ⟨out, outStored, in_, inStored, rest⟩ := sound.pairs it member
  exact ⟨out, List.mem_append_left _ outStored, in_, List.mem_append_left _ inStored, rest⟩

/-- The pass of a batch over the rows it stored. -/
def detectAll (draw : UUID → UUID) (now : Timestamp) (todo : List TransactionRow) : Tx Unit :=
  todo.forM fun t => do
    let _ ← detectAndPair (draw t.id) now t.entityID t

theorem arrive_run (batch : List TransactionRow) (d : Database) :
    (arrive draw now batch).run Database.apply d =
      (detectAll draw now batch).run Database.apply
        { d with transactions := d.transactions ++ batch } := by
  rw [arrive, Prog.run_bind, store_run]
  rfl

theorem detectAll_cons {t : TransactionRow} {todo : List TransactionRow} {mid : Database}
    {answer : Option InternalTransferRow} {last : Unit}
    (first : (detectAndPair (draw t.id) now t.entityID t).run Database.apply d = .ok (answer, mid))
    (rest : (detectAll draw now todo).run Database.apply mid = .ok (last, after)) :
    (detectAll draw now (t :: todo)).run Database.apply d = .ok (last, after) := by
  change ((do let _ ← detectAndPair (draw t.id) now t.entityID t) >>= fun _ =>
    detectAll draw now todo).run _ d = _
  exact (Prog.run_bind_ok _).mpr ⟨(), mid, (Prog.run_bind_ok _).mpr ⟨answer, mid, first, rfl⟩, rest⟩

/-! ## Unambiguous rows -/

/-- Every two compatible rows looked at so far are paired. -/
def Complete (processed : List TransactionRow) (d : Database) : Prop :=
  ∀ t ∈ processed, ∀ c ∈ processed, Compatible t c → Taken d t.id

theorem Unambiguous.taken (unambiguous : Unambiguous rows) (sound : Sound d)
    (among : ∀ t ∈ d.transactions, t ∈ rows) {t c : TransactionRow} (tStored : t ∈ d.transactions)
    (cStored : c ∈ d.transactions) (compatible : Compatible t c) (taken : Taken d t.id) :
    Taken d c.id := by
  obtain ⟨-, -, partner, partnerStored, paired, -, -, partnerTaken⟩ := taken.pair sound tStored
  obtain rfl := unambiguous t (among t tStored) c (among c cStored) partner
    (among partner partnerStored) compatible paired
  exact partnerTaken

theorem detectAll_unambiguous (storable : Storable rows) (unambiguous : Unambiguous rows)
    (injective : Function.Injective draw) {processed todo : List TransactionRow}
    (arrived : Arrived rows draw processed d) (complete : Complete processed d)
    (stored : ∀ t ∈ processed ++ todo, t ∈ d.transactions)
    (keys : ((processed ++ todo).map (·.id)).Nodup) :
    ∃ after, (detectAll draw now todo).run Database.apply d = .ok ((), after) ∧
      Arrived rows draw (processed ++ todo) after ∧ Complete (processed ++ todo) after ∧
      after.transactions = d.transactions := by
  induction todo generalizing d processed with
  | nil => exact ⟨d, rfl, by rwa [List.append_nil], by rwa [List.append_nil], rfl⟩
  | cons t todo ih =>
      have tStored : t ∈ d.transactions := stored t (by simp)
      have processedStored : ∀ p ∈ processed, p ∈ d.transactions := fun p member => stored p (by simp [member])
      have unprocessed : ∀ p ∈ processed, p.id ≠ t.id := by
        intro p member same
        rw [List.map_append, List.nodup_append] at keys
        exact keys.2.2 p.id (List.mem_map_of_mem member) t.id (by simp) same
      have free : ∀ c ∈ d.transactions, Compatible t c → ¬ Taken d c.id → ¬ Taken d t.id :=
        fun c cStored compatible untaken taken => untaken
          (unambiguous.taken arrived.sound arrived.among tStored cStored compatible taken)
      obtain ⟨answer, mid, ran, next, same, -, kept, outcome⟩ :=
        arrived.detect storable injective tStored unprocessed free
      have covered : ∀ p ∈ processed, Compatible t p → Taken mid p.id ∧ Taken mid t.id := by
        intro p member compatible
        have pStored := processedStored p member
        rcases outcome with all | ⟨c, cStored, paired, tTaken, cTaken⟩
        · have taken := all p pStored compatible
          exact ⟨kept _ taken, kept _ (unambiguous.taken arrived.sound arrived.among pStored tStored
            compatible.symm taken)⟩
        · obtain rfl := unambiguous t (arrived.among t tStored) p (arrived.among p pStored) c
            (arrived.among c cStored) compatible paired
          exact ⟨cTaken, tTaken⟩
      have more : Complete (processed ++ [t]) mid := by
        intro p pMember c cMember compatible
        rcases List.mem_append.mp pMember with old | new
        · rcases List.mem_append.mp cMember with old' | new'
          · exact kept _ (complete p old c old' compatible)
          · obtain rfl := List.mem_singleton.mp new'
            exact (covered p old compatible.symm).1
        · obtain rfl := List.mem_singleton.mp new
          rcases List.mem_append.mp cMember with old' | new'
          · exact (covered c old' compatible).2
          · obtain rfl := List.mem_singleton.mp new'
            exact absurd rfl compatible.distinct
      rw [List.append_cons] at keys stored
      obtain ⟨after, rest, arrived', complete', transactions⟩ := ih next more
        (fun p member => same ▸ stored p member) keys
      rw [List.append_cons]
      exact ⟨after, detectAll_cons ran rest, arrived', complete', transactions.trans same⟩

theorem arriveAll_unambiguous (storable : Storable rows) (unambiguous : Unambiguous rows)
    (injective : Function.Injective draw) {processed : List TransactionRow}
    {batches : List (List TransactionRow)} (arrived : Arrived rows draw processed d)
    (complete : Complete processed d) (stored : d.transactions = processed)
    (inside : ∀ t ∈ batches.flatten, t ∈ rows)
    (keys : ((processed ++ batches.flatten).map (·.id)).Nodup) :
    ∃ after, (arriveAll draw now batches).run Database.apply d = .ok ((), after) ∧
      Arrived rows draw (processed ++ batches.flatten) after ∧
      Complete (processed ++ batches.flatten) after ∧
      after.transactions = processed ++ batches.flatten := by
  induction batches generalizing d processed with
  | nil =>
      rw [List.flatten_nil, List.append_nil]
      exact ⟨d, rfl, arrived, complete, stored⟩
  | cons batch batches ih =>
      rw [List.flatten_cons, ← List.append_assoc] at keys ⊢
      have keysNow : ((processed ++ batch).map (·.id)).Nodup := by
        rw [List.map_append] at keys
        exact keys.of_append_left
      have storing := arrived.store storable (fun t member => inside t (by simp [member]))
        (stored ▸ keysNow)
      obtain ⟨mid, ran, next, more, same⟩ := @detectAll_unambiguous rows draw now _ storable
        unambiguous injective processed batch storing complete
        (fun t member => stored ▸ member) keysNow
      obtain ⟨after, rest, last⟩ := ih next more (same.trans (by rw [stored]))
        (fun t member => inside t (by simp [member])) keys
      refine ⟨after, ?_, last⟩
      change (arrive draw now batch >>= fun _ => arriveAll draw now batches).run _ d = _
      exact (Prog.run_bind_ok _).mpr ⟨(), mid, (arrive_run batch d).trans ran, rest⟩

theorem arrived_withoutTransactions (rows : List TransactionRow) (draw : UUID → UUID)
    (d : Database) : Arrived rows draw [] (withoutTransactions d) where
  sound := sound_withoutTransactions d
  among := by simp [withoutTransactions]
  drawn := by simp [withoutTransactions]

/-- The pairs of complete rows are the compatible ones. -/
theorem mem_sides_iff (unambiguous : Unambiguous rows) {processed : List TransactionRow}
    (arrived : Arrived rows draw processed d) (complete : Complete processed d)
    (stored : d.transactions = processed) (all : ∀ t ∈ rows, t ∈ processed) (x : UUID × UUID) :
    x ∈ (d.transfers.map fun it => (it.outTxnID, it.inTxnID)).toFinset ↔
      ∃ out ∈ rows, ∃ in_ ∈ rows, Compatible out in_ ∧ (baseAmount out).toInt < 0 ∧
        x = (out.id, in_.id) := by
  rw [List.mem_toFinset, List.mem_map]
  constructor
  · rintro ⟨it, member, rfl⟩
    obtain ⟨out, outStored, in_, inStored, outID, inID, compatible, negative, -⟩ :=
      arrived.sound.pairs it member
    exact ⟨out, arrived.among out outStored, in_, arrived.among in_ inStored, compatible, negative,
      by rw [outID, inID]⟩
  · rintro ⟨out, outKnown, in_, inKnown, compatible, negative, rfl⟩
    have taken := complete out (all out outKnown) in_ (all in_ inKnown) compatible
    have outStored : out ∈ d.transactions := stored ▸ all out outKnown
    obtain ⟨it, member, partner, partnerStored, paired, joinsOut, -⟩ :=
      taken.pair arrived.sound outStored
    obtain rfl := unambiguous out outKnown in_ inKnown partner
      (arrived.among partner partnerStored) compatible paired
    obtain ⟨out', outStored', in', inStored', outID, inID, compatible', negative', positive'⟩ :=
      arrived.sound.pairs it member
    have same {x : TransactionRow} (xStored : x ∈ d.transactions) (id : x.id = out.id) : x = out :=
      List.inj_on_of_nodup_map arrived.sound.transactionKeys xStored outStored id
    rcases joinsOut with isOut | isIn
    · obtain rfl := same outStored' (outID.trans isOut.symm)
      obtain rfl := unambiguous out' outKnown in_ inKnown in' (arrived.among in' inStored')
        compatible compatible'
      exact ⟨it, member, by rw [← outID, ← inID]⟩
    · obtain rfl := same inStored' (inID.trans isIn.symm)
      omega

/-- The pairs unambiguous rows leave, whatever the order they arrive in. -/
theorem pairsAfter_unambiguous (storable : Storable rows) (unambiguous : Unambiguous rows)
    (injective : Function.Injective draw) {batches : List (List TransactionRow)}
    (same : batches.flatten.Perm rows) (d : Database) :
    ∃ pairs, pairsAfter d draw now batches = .ok pairs ∧ ∀ x, x ∈ pairs ↔
      ∃ out ∈ rows, ∃ in_ ∈ rows, Compatible out in_ ∧ (baseAmount out).toInt < 0 ∧
        x = (out.id, in_.id) := by
  have keys : (([] ++ batches.flatten).map TransactionRow.id).Nodup :=
    (same.map TransactionRow.id).nodup_iff.mpr storable.keys
  obtain ⟨after, ran, arrived, complete, stored⟩ := @arriveAll_unambiguous rows draw now _ storable
    unambiguous injective [] batches (arrived_withoutTransactions rows draw d)
    (fun _ member => nomatch member) rfl (fun t member => same.mem_iff.mp member) keys
  refine ⟨_, by rw [pairsAfter, ran]; rfl, ?_⟩
  exact mem_sides_iff unambiguous arrived complete stored fun t known => same.mem_iff.mpr known

/-! ## Rows one at a time -/

/-- A row that has just been stored is on no side. -/
theorem not_taken_of_fresh (sound : Sound d) {t : TransactionRow}
    (fresh : ∀ p ∈ d.transactions, p.id ≠ t.id) : ¬ Taken d t.id := by
  rintro ⟨m, known, own⟩
  obtain ⟨it, listed, side⟩ := sound.paired m known
  obtain ⟨out, outStored, in_, inStored, outID, inID, -⟩ := sound.pairs it listed
  rcases side with rfl | rfl
  · exact fresh out outStored (outID.trans own)
  · exact fresh in_ inStored (inID.trans own)

/-- The arrival of one row by itself. -/
theorem arrive_one (storable : Storable rows) (injective : Function.Injective draw)
    {processed : List TransactionRow} (arrived : Arrived rows draw processed d)
    (stored : d.transactions = processed) {t : TransactionRow} (known : t ∈ rows)
    (keys : ((processed ++ [t]).map (·.id)).Nodup) :
    ∃ after, (arrive draw now [t]).run Database.apply d = .ok ((), after) ∧
      Arrived rows draw (processed ++ [t]) after ∧ after.transactions = processed ++ [t] ∧
      (∀ it ∈ d.transfers, it ∈ after.transfers) ∧
      ∀ c ∈ processed, Compatible t c → Taken d c.id ∨ Taken after t.id := by
  have unprocessed : ∀ p ∈ processed, p.id ≠ t.id := by
    intro p member same
    rw [List.map_append, List.nodup_append] at keys
    exact keys.2.2 p.id (List.mem_map_of_mem member) t.id (by simp) same
  have storing : Arrived rows draw processed { d with transactions := d.transactions ++ [t] } :=
    arrived.store storable (by simpa using known) (stored ▸ keys)
  have untaken : ¬ Taken d t.id :=
    not_taken_of_fresh arrived.sound fun p member => unprocessed p (stored ▸ member)
  obtain ⟨answer, after, ran, next, same, persist, -, outcome⟩ := @Arrived.detect rows draw now _ _
    storable injective storing t (List.mem_append_right _ (by simp)) unprocessed
    (fun _ _ _ _ => untaken)
  refine ⟨after, ?_, next, by rw [same, stored], persist, fun c member compatible => ?_⟩
  · rw [arrive_run]
    exact detectAll_cons ran rfl
  · rcases outcome with all | ⟨_, -, -, tTaken, -⟩
    · exact .inl (all c (List.mem_append_left _ (stored ▸ member)) compatible)
    · exact .inr tTaken

theorem arriveAll_cons {batch : List TransactionRow} {batches : List (List TransactionRow)}
    {mid : Database} (first : (arrive draw now batch).run Database.apply d = .ok ((), mid))
    (rest : (arriveAll draw now batches).run Database.apply mid = .ok ((), after)) :
    (arriveAll draw now (batch :: batches)).run Database.apply d = .ok ((), after) := by
  change (arrive draw now batch >>= fun _ => arriveAll draw now batches).run _ d = _
  exact (Prog.run_bind_ok _).mpr ⟨(), mid, first, rest⟩

theorem arriveAll_single (storable : Storable rows) (injective : Function.Injective draw)
    {processed : List TransactionRow} (arrived : Arrived rows draw processed d)
    (stored : d.transactions = processed) {todo : List TransactionRow} (inside : ∀ t ∈ todo, t ∈ rows)
    (keys : ((processed ++ todo).map (·.id)).Nodup) :
    ∃ after, (arriveAll draw now (todo.map fun t => [t])).run Database.apply d = .ok ((), after) ∧
      Sound after ∧ ∀ it ∈ d.transfers, it ∈ after.transfers := by
  induction todo generalizing d processed with
  | nil => exact ⟨d, rfl, arrived.sound, fun _ member => member⟩
  | cons t todo ih =>
      rw [List.append_cons] at keys
      have keysNow : ((processed ++ [t]).map (·.id)).Nodup := by
        rw [List.map_append] at keys
        exact keys.of_append_left
      obtain ⟨mid, ran, next, same, persist, -⟩ := @arrive_one rows draw now d storable injective
        processed arrived stored t (inside t (by simp)) keysNow
      obtain ⟨after, rest, sound, later⟩ := ih next same
        (fun other member => inside other (by simp [member])) keys
      exact ⟨after, arriveAll_cons ran rest, sound, fun it member => later it (persist it member)⟩

/-- Two compatible rows that arrive first, one after the other, end up in one pair. -/
theorem pairs_first_two (storable : Storable rows) (injective : Function.Injective draw)
    {t c : TransactionRow} {todo : List TransactionRow} (same : (t :: c :: todo).Perm rows)
    (compatible : Compatible c t) (d : Database) :
    ∃ after, (arriveAll draw now ((t :: c :: todo).map fun t => [t])).run Database.apply
        (withoutTransactions d) = .ok ((), after) ∧ Sound after ∧
      ∃ it ∈ after.transfers, Joins it t.id ∧ Joins it c.id := by
  have keys : ((t :: c :: todo).map (·.id)).Nodup :=
    (same.map TransactionRow.id).nodup_iff.mpr storable.keys
  have inside : ∀ x ∈ t :: c :: todo, x ∈ rows := fun x member => same.mem_iff.mp member
  have firstKeys : (([] ++ [t]).map TransactionRow.id).Nodup := by simp
  obtain ⟨one, ran, arrived, stored, -⟩ := @arrive_one rows draw now _ storable injective []
    (arrived_withoutTransactions rows draw d) rfl t (inside t (by simp)) firstKeys
  have twoKeys : ((([] ++ [t]) ++ [c]).map TransactionRow.id).Nodup := by
    have prefix_ : (([t, c] ++ todo).map TransactionRow.id).Nodup := keys
    rw [List.map_append] at prefix_
    exact prefix_.of_append_left
  obtain ⟨two, ran', arrived', stored', -, outcome⟩ := @arrive_one rows draw now _ storable
    injective _ arrived stored c (inside c (by simp)) twoKeys
  have allKeys : ((([] ++ [t]) ++ [c] ++ todo).map TransactionRow.id).Nodup := keys
  obtain ⟨after, rest, sound, persist⟩ := @arriveAll_single rows draw now _ storable injective _
    arrived' stored' todo (fun x member => inside x (by simp [member])) allKeys
  refine ⟨after, arriveAll_cons ran (arriveAll_cons ran' rest), sound, ?_⟩
  have taken : Taken two c.id := by
    rcases outcome t (by simp) compatible with before | now_
    · have tStored : t ∈ one.transactions := by simp [stored]
      obtain ⟨-, -, partner, partnerStored, paired, -⟩ := before.pair arrived.sound tStored
      have itself : partner = t := by simpa [stored] using partnerStored
      exact absurd (congrArg TransactionRow.id itself) paired.distinct
    · exact now_
  have cStored : c ∈ two.transactions := by simp [stored']
  obtain ⟨it, member, partner, partnerStored, paired, joinsC, joinsPartner, -⟩ :=
    taken.pair arrived'.sound cStored
  have other : partner = t ∨ partner = c := by simpa [stored'] using partnerStored
  rcases other with rfl | rfl
  · exact ⟨it, persist it member, joinsPartner, joinsC⟩
  · exact absurd rfl paired.distinct

end

/-- Rows that can be stored leave the same pairs in every order and every batches exactly when none
of them has two others it could be paired with. -/
theorem orderFree_iff_unambiguous {rows : List TransactionRow} (storable : Storable rows)
    (d : Database) : OrderFree d rows ↔ Unambiguous rows := by
  constructor
  · intro free t tKnown c cKnown c' cKnown' compatible compatible'
    by_contra different
    have inj : Function.Injective fun id : UUID => id := fun _ _ same => same
    have distinct {x y : TransactionRow} (known : x ∈ rows) (known' : y ∈ rows)
        (same : x.id = y.id) : x = y := List.inj_on_of_nodup_map storable.keys known known' same
    -- The row first, then one of its two partners, then the others.
    have order {x : TransactionRow} (known : x ∈ rows) (paired : Compatible t x) :
        (t :: x :: (rows.erase t).erase x).Perm rows := by
      have differs : x ≠ t := fun same => paired.distinct (congrArg TransactionRow.id same)
      have kept : x ∈ rows.erase t := (List.mem_erase_of_ne differs).mpr known
      exact ((List.perm_cons_erase kept).symm.cons t).trans (List.perm_cons_erase tKnown).symm
    obtain ⟨after, ran, sound, it, member, joinsT, joinsC⟩ := @pairs_first_two rows _ 0 storable inj
      t c _ (order cKnown compatible) compatible.symm d
    obtain ⟨after', ran', sound', it', member', joinsT', joinsC'⟩ := @pairs_first_two rows _ 0
      storable inj t c' _ (order cKnown' compatible') compatible'.symm d
    have flat (xs : List TransactionRow) : (xs.map fun x => [x]).flatten = xs := by
      induction xs with
      | nil => rfl
      | cons x xs ih => simp [ih]
    have arrives {x : TransactionRow} (known : x ∈ rows) (paired : Compatible t x) :
        ((t :: x :: (rows.erase t).erase x).map fun x => [x]).flatten.Perm rows := by
      rw [flat]
      exact order known paired
    have agree := free _ _ 0 0 _ _ inj inj (arrives cKnown compatible) (arrives cKnown' compatible')
    rw [pairsAfter, pairsAfter, ran, ran'] at agree
    have sets : (after.transfers.map fun it => (it.outTxnID, it.inTxnID)).toFinset =
        (after'.transfers.map fun it => (it.outTxnID, it.inTxnID)).toFinset := Except.ok.inj agree
    have listed : (it.outTxnID, it.inTxnID) ∈
        (after'.transfers.map fun it => (it.outTxnID, it.inTxnID)).toFinset := by
      rw [← sets, List.mem_toFinset]
      exact List.mem_map_of_mem member
    obtain ⟨twin, twinListed, sides⟩ := List.mem_map.mp (List.mem_toFinset.mp listed)
    obtain ⟨outSame, inSame⟩ := Prod.mk.inj sides
    have twinT : Joins twin t.id := by
      unfold Joins at joinsT ⊢
      rwa [outSame, inSame]
    have twinC : Joins twin c.id := by
      unfold Joins at joinsC ⊢
      rwa [outSame, inSame]
    obtain rfl := sound'.only_pair twinListed member' twinT joinsT'
    -- One pair would have three sides.
    have ct := compatible.distinct
    have ct' := compatible'.distinct
    have cc : c.id ≠ c'.id := fun same => different (distinct cKnown cKnown' same)
    unfold Joins at joinsT' joinsC' twinC
    grind
  · intro unambiguous draw draw' now now' batches batches' injective injective' same same'
    obtain ⟨pairs, after, members⟩ := @pairsAfter_unambiguous rows draw now storable unambiguous
      injective batches same d
    obtain ⟨pairs', after', members'⟩ := @pairsAfter_unambiguous rows draw' now' storable unambiguous
      injective' batches' same' d
    rw [after, after']
    congr 1
    apply Finset.ext
    intro x
    rw [members, members']

/-! ## Two equal payments into one transfer -/

/-- Money out of one account, and twice the same amount into another. -/
def threeLegs : List TransactionRow := [
  sampleTransaction 1 .bank (sampleDay 9) (-100),
  { sampleTransaction 2 .bank (sampleDay 10) 100 with accountID := 2 },
  { sampleTransaction 3 .bank (sampleDay 9) 100 with accountID := 2 }]

theorem storable_threeLegs : Storable threeLegs :=
  ⟨by decide, by decide, by decide⟩

theorem orderFree_iff_unambiguous_sample :
    ¬ OrderFree (Database.empty "BYN") threeLegs ∧
      OrderFree (Database.empty "BYN") (threeLegs.take 2) := by
  have fewer : Storable (threeLegs.take 2) := ⟨by decide, by decide, by decide⟩
  constructor
  · rw [orderFree_iff_unambiguous storable_threeLegs]
    unfold Unambiguous
    decide
  · rw [orderFree_iff_unambiguous fewer]
    unfold Unambiguous
    decide

/-- The outgoing leg pairs with whichever of the two equal legs arrives before the other. -/
theorem pairing_depends_on_order :
    ¬ ∀ (batches batches' : List (List TransactionRow)), batches.flatten.Perm threeLegs →
      batches'.flatten.Perm threeLegs →
      pairsAfter (Database.empty "BYN") id 0 batches = pairsAfter (Database.empty "BYN") id 0 batches' := by
  intro claimed
  have differ : pairsAfter (Database.empty "BYN") id 0 (threeLegs.map fun t => [t]) ≠
      pairsAfter (Database.empty "BYN") id 0 [threeLegs.take 1, threeLegs.drop 2,
        (threeLegs.drop 1).take 1] := by decide +kernel
  exact differ (claimed _ _ (by decide) (by decide))

end Vekst.Dedup
