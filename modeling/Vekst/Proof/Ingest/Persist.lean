import Vekst.Proof.Ledger.Writes

namespace Vekst
open Isolation Ledger Relational

variable {currencies : String → Prop} {sha256 : String → String}

theorem insertedTransactions_of_ordinary {d : Database} {writes : List Write}
    (ordinary : Ordinary d writes) : insertedTransactions writes = [] := by
  rw [List.eq_nil_iff_forall_not_mem]
  intro row member
  exact ordinary _ (mem_insertedTransactions.mp member)

/-- A body that stores no transaction leaves what is known of those stored before it. -/
theorem wp_of_ordinary {α : Type} {inv : List Write → Prop} {p : Tx α} {pending : List Write}
    (emits : p.Emits Ordinary)
    (kept : ∀ pending more, inv pending → insertedTransactions more = [] → inv (pending ++ more))
    (initially : inv pending) :
    p.wp (Lawful currencies sha256) (fun _ writes => inv writes) pending := by
  apply Prog.wp_of_emits emits ?_ initially
  intro pending d writes held ordinary
  exact ⟨.inl ordinary, kept pending writes held (insertedTransactions_of_ordinary ordinary)⟩

theorem wp_anything {α : Type} {p : Tx α} {pending : List Write} (emits : p.Emits Ordinary) :
    p.wp (Lawful currencies sha256) (fun _ _ => True) pending :=
  wp_of_ordinary emits (fun _ _ _ _ => trivial) trivial

/-- After the lookups: nothing is stored, and each row still to store was looked for. -/
structure Searched (done : List Dedup.Candidate) (sorted : Ingest.Sorted) (pending : List Write) :
    Prop where
  unstored : insertedTransactions pending = []
  kept : sorted.toInsert.Sublist (done.map (·.txn))
  looked : ∀ t ∈ sorted.toInsert, .missed t.dedupHash ∈ pending

theorem Searched.append {done : List Dedup.Candidate} {sorted : Ingest.Sorted}
    {pending more : List Write} (searched : Searched done sorted pending)
    (quiet : insertedTransactions more = []) : Searched done sorted (pending ++ more) where
  unstored := by rw [insertedTransactions_append, searched.unstored, quiet, List.append_nil]
  kept := searched.kept
  looked t member := List.mem_append_left _ (searched.looked t member)

theorem wp_lookUp {batchID : UUID} {done : List Dedup.Candidate} {sorted : Ingest.Sorted}
    {c : Dedup.Candidate} {pending : List Write} (searched : Searched done sorted pending) :
    (Ingest.lookUp batchID sorted c).wp (Lawful currencies sha256)
      (Searched (done ++ [c])) pending := by
  have skipped : sorted.toInsert.Sublist ((done ++ [c]).map (·.txn)) := by
    rw [List.map_append]
    exact searched.kept.trans (List.sublist_append_left _ _)
  apply Prog.wp_bind
  apply Prog.wp_exec
  intro d writes answer success
  split at success
  next t found =>
    obtain ⟨rfl, rfl⟩ := Prod.mk.inj (Except.ok.inj success)
    refine ⟨.inl (ordinary_nil d), ?_⟩
    rw [List.append_nil]
    exact ⟨searched.unstored, skipped, searched.looked⟩
  next absent =>
    obtain ⟨rfl, rfl⟩ := Prod.mk.inj (Except.ok.inj success)
    have unseen := findTransactionByDedupHash_eq_none.mp absent
    refine ⟨.inl (by simpa [Ordinary] using unseen), ?_⟩
    have grown : Searched done sorted (pending ++ [.missed c.txn.dedupHash]) := searched.append rfl
    refine ⟨grown.unstored, ?_, ?_⟩
    · rw [List.map_append]
      exact searched.kept.append (List.Sublist.refl _)
    · intro t member
      rcases List.mem_append.mp member with old | new
      · exact grown.looked t old
      · obtain rfl := List.mem_singleton.mp new
        simp

/-- While the rows are stored: those done are stored, and the others were looked for. -/
structure Storing (txns : List Transaction) (done : List (Transaction × Nat))
    (pending : List Write) : Prop where
  stored : (insertedTransactions pending).map (·.dedupHash) = done.map (·.1.dedupHash)
  looked : ∀ t ∈ txns, .missed t.dedupHash ∈ pending

theorem wp_insert {draw : Nat → UUID} {now : Timestamp} {txns : List Transaction}
    {pending : List Write} (plain : ∀ t ∈ txns, t.fx = none ∧ currencies t.amount.currencyCode)
    (numbered : Numbered sha256 (txns.map (·.dedupHash))) (storing : Storing txns [] pending) :
    (insert draw now txns).wp (Lawful currencies sha256) (fun _ _ => True) pending := by
  refine Prog.wp_mono (Prog.wp_mapM txns.zipIdx [] storing ?_) fun _ _ _ => trivial
  rintro earlier ⟨t, i⟩ later split pending storing
  have members : earlier.map Prod.fst ++ t :: later.map Prod.fst = txns := by
    have firsts := congrArg (List.map Prod.fst) split
    simpa using firsts.symm
  have member : t ∈ txns := by simp [← members]
  obtain ⟨noFX, allowed⟩ := plain t member
  apply Prog.wp_exec
  intro d writes answer success
  obtain ⟨row, params, success⟩ := bind_ok.mp success
  obtain ⟨_, -, made⟩ := bind_ok.mp success
  obtain ⟨rfl, rfl⟩ := Prod.mk.inj (Except.ok.inj made)
  obtain rfl := toInsertParams_ok noFX params
  have hashes : ((insertedTransactions pending ++ [storedRow (draw i) now t]).map (·.dedupHash)) =
      (earlier ++ [(t, i)]).map (·.1.dedupHash) := by
    rw [List.map_append, storing.stored, List.map_append]
    rfl
  have before : (((earlier ++ [(t, i)]).map (·.1.dedupHash))).Sublist (txns.map (·.dedupHash)) := by
    rw [← members]
    simp only [List.map_append, List.map_cons, List.map_nil, List.map_map, Function.comp_def]
    exact (List.Sublist.refl _).append (by simp)
  refine ⟨.inr ⟨_, rfl, ?_⟩, ?_⟩
  · exact ⟨allowed, ⟨rfl, rfl, rfl, rfl⟩, storing.looked t member,
      hashes ▸ numbered.sublist before⟩
  · refine ⟨?_, fun other known => List.mem_append_left _ (storing.looked other known)⟩
    rw [insertedTransactions_append]
    exact hashes

/-- The candidates of a statement carry no conversion and are in its currency. -/
theorem candidates_plain {site : Site} {accountID : UUID} {batch : ImportBatchRow}
    {st : Ingest.Statement} {candidates : List Dedup.Candidate}
    (built : (st.rows.mapM fun r => (Ingest.buildTransaction site accountID batch st.currency r).map
      fun txn => (⟨r.lineNo, txn⟩ : Dedup.Candidate)) = .ok candidates) :
    ∀ c ∈ candidates, st.rows ≠ [] ∧ c.txn.fx = none ∧ c.txn.amount.currencyCode = st.currency := by
  intro c member
  obtain ⟨r, known, success⟩ := mem_of_mapM built member
  cases one : Ingest.buildTransaction site accountID batch st.currency r with
  | error e => simp [one, Except.map] at success
  | ok txn =>
      obtain rfl : ⟨r.lineNo, txn⟩ = c := by simpa [one, Except.map] using success
      exact ⟨List.ne_nil_of_mem known, buildTransaction_ok one⟩

/-- The whole of a batch's transaction is lawful. -/
theorem wp_persistRows {site : Site} {draws : Draws} {batch : ImportBatchRow}
    {st : Ingest.Statement} (answered : st.rows ≠ [] → currencies st.currency) :
    (Ingest.persistRows site draws batch st).wp (Lawful currencies site.sha256)
      (fun _ _ => True) [] := by
  apply Prog.wp_bind
  have unstored : ∀ pending more : List Write, insertedTransactions pending = [] →
      insertedTransactions more = [] → insertedTransactions (pending ++ more) = [] := by
    intro pending more none_ quiet
    rw [insertedTransactions_append, none_, quiet, List.append_nil]
  refine Prog.wp_mono (wp_of_ordinary (emits_resolveAccount _ _ st) unstored rfl) ?_
  rintro ⟨accountID, mismatched⟩ pending quiet
  apply Prog.wp_bind
  apply Prog.wp_ofExcept
  intro candidates built
  have plain := candidates_plain built
  apply Prog.wp_bind
  have opened : Searched [] ⟨[], []⟩ pending := ⟨quiet, List.Sublist.refl _, by simp⟩
  refine Prog.wp_mono (Prog.wp_foldlM _ [] opened fun _ _ _ _ _ _ held => wp_lookUp held) ?_
  intro sorted pending searched
  rw [List.nil_append] at searched
  apply Prog.wp_bind
  refine Prog.wp_mono (wp_of_ordinary (Prog.emits_forM _ fun _ _ => emits_insertSkip _ _)
    (fun _ _ held more => held.append more) searched) ?_
  intro _ pending searched
  apply Prog.wp_bind
  have numbered : Numbered site.sha256 (sorted.toInsert.map (·.dedupHash)) := by
    have all := numbered_partition site.sha256 candidates
    have some_ := searched.kept.map (·.dedupHash)
    rw [List.map_map] at some_
    exact all.sublist some_
  have each : ∀ t ∈ sorted.toInsert, t.fx = none ∧ currencies t.amount.currencyCode := by
    intro t member
    obtain ⟨c, known, rfl⟩ := List.mem_map.mp (searched.kept.subset member)
    obtain ⟨old, original, hash, rfl⟩ := mem_partitionFrom known
    obtain ⟨rows, noFX, currency⟩ := plain old original
    exact ⟨noFX, currency ▸ answered rows⟩
  have storing : Storing sorted.toInsert [] pending := by
    refine ⟨?_, searched.looked⟩
    rw [searched.unstored]
    rfl
  refine Prog.wp_mono (wp_insert each numbered storing) ?_
  intro inserted pending _
  apply wp_anything
  apply Prog.emits_bind
  · apply Prog.emits_forM
    rintro ⟨t, i⟩ -
    exact Prog.emits_bind (emits_detectAndPair _ _ _ _) fun _ => trivial
  intro _
  apply Prog.emits_bind (Prog.emits_ofExcept _)
  intro _
  apply Prog.emits_bind (Prog.emits_ofExcept _)
  intro _
  apply Prog.emits_bind (emits_setImportBatchStatus _ _ _)
  intro affected
  apply Prog.emits_bind (Prog.emits_ofExcept _)
  intro _
  apply Prog.emits_exec
  intro d writes answer success
  obtain ⟨rfl, -⟩ := Prod.mk.inj (Except.ok.inj success)
  simp [Ordinary]

end Vekst
