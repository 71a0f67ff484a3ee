import Vekst.Proof.Ingest.Balance
import Vekst.Proof.Ingest.Sequence

namespace Vekst.Ingest
open Isolation Ledger Dedup Relational

/-! ## Every row of a statement is stored or set aside -/

/-- A transaction that a row is stored as. -/
structure Books (batch : ImportBatchRow) (r : Priorbank.Row) (t : TransactionRow) : Prop where
  owner : t.batchID = batch.id
  entity : t.entityID = batch.entityID
  line : t.lineNo = r.lineNo
  amount : t.amount = Priorbank.signedAmount r

/-- A skip that names a row. -/
structure SetsAside (batchID : UUID) (r : Priorbank.Row) (s : DedupSkipRow) : Prop where
  owner : s.batchID = batchID
  line : s.lineNo = r.lineNo

/-- What a row becomes on its way to the lookups. -/
structure Offers (batch : ImportBatchRow) (r : Priorbank.Row) (c : Candidate) : Prop where
  line : c.lineNo = r.lineNo
  own : c.txn.batchID = batch.id ∧ c.txn.lineNo = r.lineNo
  entity : c.txn.entityID = batch.entityID
  amount : c.txn.amount.minorUnits = Priorbank.signedAmount r

section Rows

variable {site : Site} {accountID : UUID} {batch : ImportBatchRow} {st : Priorbank.Statement}

theorem offers_candidates {built : List Candidate} (sides : ∀ r ∈ st.rows, Priorbank.OneSided r)
    (success : Priorbank.candidates site accountID batch st.stored = .ok built) :
    List.Forall₂ (Offers batch) st.rows built := by
  have rows : st.stored.rows = st.rows.map Priorbank.Row.stored := rfl
  unfold Priorbank.candidates at success
  rw [rows, mapM_eq_ok_iff, List.forall₂_map_left_iff] at success
  refine ((List.forall₂_and_left _ _).mpr ⟨sides, success⟩).imp fun r c ⟨side, made⟩ => ?_
  obtain ⟨txn, built, rfl⟩ := map_ok.mp made
  have amount := Priorbank.amount_buildTransaction side built
  obtain ⟨date, _, made⟩ := bind_ok.mp built
  cases made
  exact ⟨rfl, ⟨rfl, rfl⟩, rfl, amount⟩

/-- The numbering of the rows changes nothing of them but their hashes. -/
theorem forall₂_partitionFrom (sha256 : String → String) (seen : String → Nat) (cs : List Candidate) :
    List.Forall₂ (fun c numbered => ∃ hash,
      numbered = { c with txn := { c.txn with dedupHash := hash } }) cs
      (partitionFrom sha256 seen cs) := by
  induction cs generalizing seen with
  | nil => exact .nil
  | cons c cs ih => exact .cons ⟨_, rfl⟩ (ih _)

theorem offers_rows (sides : ∀ r ∈ st.rows, Priorbank.OneSided r)
    (made : ∃ built, (⟨batch, st.stored, accountID⟩ : File).candidates site = .ok built) :
    List.Forall₂ (Offers batch) st.rows ((⟨batch, st.stored, accountID⟩ : File).rows site) := by
  obtain ⟨built, success⟩ := made
  rw [File.rows, success]
  refine (forall₂_comp (offers_candidates sides success)
    (forall₂_partitionFrom site.sha256 _ built)).imp ?_
  rintro r numbered ⟨c, offers, hash, rfl⟩
  exact ⟨offers.line, offers.own, offers.entity, offers.amount⟩

/-- The job stores a row or sets it aside, and stores with it the amount it moves. -/
theorem persistRows_books {draws : Draws} {d after : Database}
    (sides : ∀ r ∈ st.rows, Priorbank.OneSided r)
    (ran : (persistRows site draws batch st.stored).run Database.apply d = .ok ((), after)) :
    ∃ kept dropped stored skipped, st.rows.Perm (kept ++ dropped) ∧ dropped.Sublist st.rows ∧
      after.transactions = d.transactions ++ stored ∧ after.dedupSkips = d.dedupSkips ++ skipped ∧
      List.Forall₂ (Books batch) kept stored ∧ List.Forall₂ (SetsAside batch.id) dropped skipped := by
  obtain ⟨⟨accountID, mismatched⟩, mid, resolved, rest⟩ := (Prog.run_bind_ok _).mp ran
  obtain ⟨built, _, made, -⟩ := (Prog.run_bind_ok _).mp rest
  obtain ⟨success, -⟩ := (Prog.run_ofExcept_ok _).mp made
  let file : File := ⟨batch, st.stored, accountID⟩
  obtain ⟨stored, skipped, transactions, skips, rows, aside⟩ :=
    @persistRows_rows site draws file d after mid mismatched resolved ran
  obtain ⟨dropped, kept, apart, fewer, each, others⟩ :=
    forall₂_filter (offers_rows sides ⟨built, success⟩) (isStored d)
  refine ⟨kept, dropped, stored, skipped, apart.trans List.perm_append_comm, fewer, transactions,
    skips, (forall₂_comp others rows).imp ?_, (forall₂_comp each aside).imp ?_⟩
  · rintro r t ⟨c, offers, id, now, rfl⟩
    exact ⟨offers.own.1, offers.entity, offers.own.2, offers.amount⟩
  · rintro r s ⟨c, offers, own, line, -⟩
    exact ⟨own, line.trans offers.line⟩

end Rows

/-! ## What the persist job leaves of the other tables -/

/-- Only the batch may differ, and of that neither its identifier nor its entity; no answer and no
category does. -/
structure Reshaped (batchID : UUID) (d e : Database) : Prop where
  ids : e.batches.map (·.id) = d.batches.map (·.id)
  rows : ∀ b ∈ e.batches, ∃ old ∈ d.batches, b.id = old.id ∧ b.entityID = old.entityID ∧
    (b.id ≠ batchID → b = old)
  categories : e.categories = d.categories
  classifications : e.classifications = d.classifications

def Reshapes (batchID : UUID) (d : Database) (writes : List Write) : Prop :=
  ∀ w ∈ writes, match w with
    | .updateBatch row => ∃ old ∈ d.batches, old.id = batchID ∧ row.id = old.id ∧
        row.entityID = old.entityID
    | .insertClassification _ => False
    | .updateClassification _ => False
    | _ => True

section Reshaped

variable {site : Site} {draws : Draws} {batch : ImportBatchRow} {batchID : UUID} {st : Statement}
  {d e : Database}

theorem reshaped_refl (batchID : UUID) (d : Database) : Reshaped batchID d d :=
  ⟨rfl, fun b member => ⟨b, member, rfl, rfl, fun _ => rfl⟩, rfl, rfl⟩

theorem Reshaped.update {row : ImportBatchRow} (reshaped : Reshaped batchID d e)
    (was : ∃ old ∈ d.batches, old.id = batchID ∧ row.id = old.id ∧ row.entityID = old.entityID) :
    Reshaped batchID d (e.apply (.updateBatch row)) := by
  refine ⟨(replaceBy_ids (·.id) row e.batches).trans reshaped.ids, fun b member => ?_,
    reshaped.categories, reshaped.classifications⟩
  obtain ⟨stored, known, rfl⟩ := List.mem_map.mp member
  by_cases same : stored.id = row.id
  · rw [if_pos same]
    obtain ⟨old, there, own, id, entity⟩ := was
    exact ⟨old, there, id, entity, fun apart => absurd (id.trans own) apart⟩
  · rw [if_neg same]
    exact reshaped.rows stored known

theorem Reshaped.visible {writes : List Write} (reshaped : Reshaped batchID d e)
    (allowed : Reshapes batchID e writes) : Reshaped batchID d (writes.foldl Database.apply e) := by
  have first : Reshapes batchID d writes := by
    intro w member
    have one := allowed w member
    cases w with
    | updateBatch row =>
        obtain ⟨old, known, own, id, entity⟩ := one
        obtain ⟨older, there, id', entity', -⟩ := reshaped.rows old known
        exact ⟨older, there, id' ▸ own, id.trans id', entity.trans entity'⟩
    | _ => exact one
  clear allowed
  induction writes generalizing e with
  | nil => exact reshaped
  | cons w writes ih =>
      have one := first w (by simp)
      have later : Reshapes batchID d writes := fun other member => first other (by simp [member])
      rw [List.foldl_cons]
      cases w with
      | updateBatch row => exact ih (reshaped.update one) later
      | insertClassification row => exact absurd one id
      | updateClassification row => exact absurd one id
      | _ => exact ih ⟨reshaped.ids, reshaped.rows, reshaped.categories, reshaped.classifications⟩ later

theorem allowsImport_reshapes (batchID : UUID) : AllowsImport (Reshapes batchID) batchID where
  quiet := by simp [Reshapes]
  account := by simp [Reshapes]
  missed := by simp [Reshapes]
  skip := by simp [Reshapes]
  transaction := by simp [Reshapes]
  pair := by simp [Reshapes]
  batch d rows status failureCode _ made w member := by
    obtain ⟨row, known, rfl⟩ := List.mem_map.mp member
    obtain ⟨old, there, own, rfl⟩ := made row known
    exact ⟨old, there, own, rfl, rfl⟩
  enqueue := by simp [Reshapes]

theorem reshaped_persistRows
    (ran : (persistRows site draws batch st).run Database.apply d = .ok ((), e)) :
    Reshaped batch.id d e :=
  Prog.leaves_of_emits (persistRows_emits site draws st (allowsImport_reshapes batch.id))
    (fun _ _ reshaped allowed => reshaped.visible allowed) d () e (reshaped_refl _ d) ran

/-- The other batches are still there. -/
theorem Reshaped.others (reshaped : Reshaped batchID d e) (keyed : (d.batches.map (·.id)).Nodup)
    {b : ImportBatchRow} (known : b ∈ d.batches) (apart : b.id ≠ batchID) : b ∈ e.batches := by
  have listed : b.id ∈ e.batches.map (·.id) := by
    rw [reshaped.ids]
    exact List.mem_map_of_mem known
  obtain ⟨b', member, same⟩ := List.mem_map.mp listed
  obtain ⟨old, stored, id, -, other⟩ := reshaped.rows b' member
  obtain rfl := List.inj_on_of_nodup_map keyed stored known (id.symm.trans same)
  exact other (same ▸ apart) ▸ member

/-- The rows are stored of a batch that is imported then. -/
theorem imported_persistRows (keyed : (e.batches.map (·.id)).Nodup)
    (ran : (persistRows site draws batch st).run Database.apply d = .ok ((), e)) :
    ∀ b ∈ e.batches, b.id = batch.id → b.status = .imported := by
  intro b member own
  have status := statusOf_persistRows ⟨d, [], [], []⟩ ran
  obtain ⟨row, found, imported⟩ := Option.map_eq_some_iff.mp status
  have same : row.id = batch.id := by simpa using List.find?_some found
  have known := List.mem_of_find?_eq_some found
  rw [List.inj_on_of_nodup_map keyed member known (own.trans same.symm)]
  exact imported

end Reshaped

/-! ## What is on the books -/

/-- Validation found nothing wrong with the rows of the statement. -/
def Passed (st : Priorbank.Statement) : Prop :=
  ∃ time now params, (Priorbank.validateStatementWithParams time st now params).outcome ≠ .rejected

/-- The rows of the statement are those on the books of the batch, and those it set aside. -/
def Whole (st : Priorbank.Statement) (batch : ImportBatchRow) (d : Database) : Prop :=
  ∃ kept dropped, st.rows.Perm (kept ++ dropped) ∧ dropped.Sublist st.rows ∧
    List.Forall₂ (Books batch) kept (d.transactions.filter (·.batchID = batch.id)) ∧
    List.Forall₂ (SetsAside batch.id) dropped (d.dedupSkips.filter (·.batchID = batch.id))

/-- The books hold the statements of the imported batches and nothing else. -/
structure Entered (file : UUID → Priorbank.Statement) (d : Database) : Prop where
  keyed : (d.batches.map (·.id)).Nodup
  owned : ∀ t ∈ d.transactions, ∃ b ∈ d.batches, b.id = t.batchID ∧ b.entityID = t.entityID ∧
    b.status = .imported
  skipped : ∀ s ∈ d.dedupSkips, ∃ b ∈ d.batches, b.id = s.batchID ∧ b.status = .imported
  waiting : ∀ b ∈ d.batches, b.status = .validated → Passed (file b.id)
  imported : ∀ b ∈ d.batches, b.status = .imported → Passed (file b.id) ∧ Whole (file b.id) b d

section Entered

variable {site : Site} {draws : Draws} {file : UUID → Priorbank.Statement} {batch : ImportBatchRow}
  {batchID : UUID} {d e : Database}

theorem Passed.sides {st : Priorbank.Statement} (passed : Passed st) :
    ∀ r ∈ st.rows, Priorbank.OneSided r := by
  obtain ⟨time, now, params, accepted⟩ := passed
  exact Priorbank.oneSided_of_not_rejected accepted

theorem Entered.same (entered : Entered file d) (batches : e.batches = d.batches)
    (rows : SameRows d e) : Entered file e := by
  obtain ⟨transactions, skips⟩ := rows
  constructor
  · exact batches ▸ entered.keyed
  · rw [transactions, batches]
    exact entered.owned
  · rw [skips, batches]
    exact entered.skipped
  · rw [batches]
    exact entered.waiting
  · intro b member status
    rw [Whole, transactions, skips]
    exact entered.imported b (batches ▸ member) status

/-- A batch that waits for its import has nothing on the books. -/
theorem Entered.nothing (entered : Entered file d) (known : batch ∈ d.batches)
    (validated : batch.status = .validated) :
    (∀ t ∈ d.transactions, t.batchID ≠ batch.id) ∧ ∀ s ∈ d.dedupSkips, s.batchID ≠ batch.id := by
  have other : ∀ b ∈ d.batches, b.status = .imported → b.id ≠ batch.id := by
    intro b member imported same
    obtain rfl := List.inj_on_of_nodup_map entered.keyed member known same
    rw [validated] at imported
    cases imported
  constructor
  · intro t stored same
    obtain ⟨b, member, own, -, imported⟩ := entered.owned t stored
    exact other b member imported (own.trans same)
  · intro s recorded same
    obtain ⟨b, member, own, imported⟩ := entered.skipped s recorded
    exact other b member imported (own.trans same)

/-- What one batch adds leaves the books of the others. -/
theorem Whole.grown {st : Priorbank.Statement} {b : ImportBatchRow} {stored : List TransactionRow}
    {skipped : List DedupSkipRow} (whole : Whole st b d)
    (transactions : e.transactions = d.transactions ++ stored)
    (skips : e.dedupSkips = d.dedupSkips ++ skipped) (others : ∀ t ∈ stored, t.batchID ≠ b.id)
    (others' : ∀ s ∈ skipped, s.batchID ≠ b.id) : Whole st b e := by
  have none_ : stored.filter (·.batchID = b.id) = [] := by simpa [List.filter_eq_nil_iff] using others
  have none' : skipped.filter (·.batchID = b.id) = [] := by
    simpa [List.filter_eq_nil_iff] using others'
  rw [Whole, transactions, skips, List.filter_append, List.filter_append, none_, none',
    List.append_nil, List.append_nil]
  exact whole

/-- An attempt that moves a waiting batch on: to failed with nothing, or to imported with its
statement. -/
structure Moved (file : UUID → Priorbank.Statement) (batch : ImportBatchRow) (d e : Database)
    (stored : List TransactionRow) (skipped : List DedupSkipRow) : Prop where
  reshaped : Reshaped batch.id d e
  transactions : e.transactions = d.transactions ++ stored
  skips : e.dedupSkips = d.dedupSkips ++ skipped
  owned : ∀ t ∈ stored, t.batchID = batch.id ∧ t.entityID = batch.entityID
  aside : ∀ s ∈ skipped, s.batchID = batch.id
  status : ∀ b ∈ e.batches, b.id = batch.id → b.entityID = batch.entityID →
    b.status = .failed ∧ stored = [] ∧ skipped = [] ∨ b.status = .imported ∧ Whole (file b.id) b e

theorem Entered.moved {stored : List TransactionRow} {skipped : List DedupSkipRow}
    (entered : Entered file d) (known : batch ∈ d.batches) (validated : batch.status = .validated)
    (moved : Moved file batch d e stored skipped) : Entered file e := by
  have keyed : (e.batches.map (·.id)).Nodup := moved.reshaped.ids ▸ entered.keyed
  -- A row of the batch after the attempt has the identity of the one before it.
  have entity : ∀ b ∈ e.batches, b.id = batch.id → b.entityID = batch.entityID := by
    intro b member own
    obtain ⟨old, there, id, entity, -⟩ := moved.reshaped.rows b member
    rw [List.inj_on_of_nodup_map entered.keyed there known (id.symm.trans own)] at entity
    exact entity
  have elsewhere : ∀ b ∈ e.batches, b.id ≠ batch.id → b ∈ d.batches := by
    intro b member apart
    obtain ⟨old, there, -, -, other⟩ := moved.reshaped.rows b member
    exact other apart ▸ there
  have kept : ∀ b ∈ d.batches, b.status = .imported → b ∈ e.batches := by
    intro b member imported
    refine moved.reshaped.others entered.keyed member fun same => ?_
    rw [List.inj_on_of_nodup_map entered.keyed member known same, validated] at imported
    cases imported
  have there : ∃ b ∈ e.batches, b.id = batch.id := by
    have listed : batch.id ∈ e.batches.map (·.id) := by
      rw [moved.reshaped.ids]
      exact List.mem_map_of_mem known
    obtain ⟨b, member, own⟩ := List.mem_map.mp listed
    exact ⟨b, member, own⟩
  obtain ⟨b', member', own'⟩ := there
  have status' := moved.status b' member' own' (entity b' member' own')
  constructor
  · exact keyed
  · intro t member
    rw [moved.transactions] at member
    rcases List.mem_append.mp member with old | new
    · obtain ⟨b, there, own, same, imported⟩ := entered.owned t old
      exact ⟨b, kept b there imported, own, same, imported⟩
    · obtain ⟨own, same⟩ := moved.owned t new
      rcases status' with ⟨-, rfl, -⟩ | ⟨imported, -⟩
      · cases new
      · exact ⟨b', member', own'.trans own.symm, (entity b' member' own').trans same.symm, imported⟩
  · intro s member
    rw [moved.skips] at member
    rcases List.mem_append.mp member with old | new
    · obtain ⟨b, there, own, imported⟩ := entered.skipped s old
      exact ⟨b, kept b there imported, own, imported⟩
    · rcases status' with ⟨-, -, rfl⟩ | ⟨imported, -⟩
      · cases new
      · exact ⟨b', member', own'.trans (moved.aside s new).symm, imported⟩
  · intro b member waits
    by_cases own : b.id = batch.id
    · rcases moved.status b member own (entity b member own) with ⟨other, -⟩ | ⟨other, -⟩ <;>
        simp [waits] at other
    · exact entered.waiting b (elsewhere b member own) waits
  · intro b member imported
    by_cases own : b.id = batch.id
    · rcases moved.status b member own (entity b member own) with ⟨other, -⟩ | ⟨-, whole⟩
      · simp [imported] at other
      · exact ⟨own ▸ entered.waiting batch known validated, whole⟩
    · obtain ⟨passed, whole⟩ := entered.imported b (elsewhere b member own) imported
      refine ⟨passed, whole.grown moved.transactions moved.skips ?_ ?_⟩
      · exact fun t new same => own (same.symm.trans (moved.owned t new).1)
      · exact fun s new same => own (same.symm.trans (moved.aside s new))

/-- The persist job answered with the statements of the batches keeps the books. -/
theorem Entered.persisted {answers : Question → Reply → Prop} (entered : Entered file d)
    (reads : ∀ batchID st, answers (.object batchID) (.statement (some st)) →
      st = (file batchID).stored)
    (persisted : Persisted site draws answers batchID d e) : Entered file e := by
  cases persisted with
  | unchanged => exact entered
  | @failed old code validated only =>
      have member : old ∈ d.batches.filter (·.id = batchID) := by simp [only]
      obtain ⟨known, own⟩ := List.mem_filter.mp member
      have moved : Moved file old d (d.apply (.updateBatch (failedAs code old))) [] [] := {
        reshaped := (reshaped_refl old.id d).update ⟨old, known, rfl, rfl, rfl⟩
        transactions := by simp [Database.apply]
        skips := by simp [Database.apply]
        owned := by simp
        aside := by simp
        status := by
          intro b there same _
          obtain ⟨was, stored, rfl⟩ := List.mem_map.mp there
          by_cases hit : was.id = (failedAs code old).id
          · rw [if_pos hit]
            exact .inl ⟨rfl, rfl, rfl⟩
          · rw [if_neg hit] at same
            exact absurd same hit }
      exact entered.moved known validated moved
  | @stored batch st _ found validated given ran =>
      have known := List.mem_of_find?_eq_some (getImportBatch_ok found).1
      obtain rfl := reads _ _ given
      have passed := entered.waiting batch known validated
      obtain ⟨kept, dropped, stored, skipped, apart, fewer, transactions, skips, booked, aside⟩ :=
        persistRows_books passed.sides ran
      obtain ⟨fresh, fresh'⟩ := entered.nothing known validated
      have reshaped := reshaped_persistRows ran
      have keyed : (e.batches.map (·.id)).Nodup := reshaped.ids ▸ entered.keyed
      have owned : ∀ t ∈ stored, t.batchID = batch.id ∧ t.entityID = batch.entityID := by
        intro t member
        obtain ⟨r, -, books⟩ := exists_left_of_forall₂ booked member
        exact ⟨books.owner, books.entity⟩
      have owned' : ∀ s ∈ skipped, s.batchID = batch.id := by
        intro s member
        obtain ⟨r, -, sets⟩ := exists_left_of_forall₂ aside member
        exact sets.owner
      have mine : e.transactions.filter (·.batchID = batch.id) = stored := by
        rw [transactions, List.filter_append, List.filter_eq_nil_iff.mpr (by simpa using fresh),
          List.nil_append, List.filter_eq_self.mpr (by simpa using fun t new => (owned t new).1)]
      have mine' : e.dedupSkips.filter (·.batchID = batch.id) = skipped := by
        rw [skips, List.filter_append, List.filter_eq_nil_iff.mpr (by simpa using fresh'),
          List.nil_append, List.filter_eq_self.mpr (by simpa using owned')]
      have moved : Moved file batch d e stored skipped := {
        reshaped, transactions, skips, owned
        aside := owned'
        status := by
          intro b member own same
          refine .inr ⟨imported_persistRows keyed ran b member own, kept, dropped, ?_, ?_, ?_, ?_⟩
          · rwa [own]
          · rwa [own]
          · rw [own, mine]
            exact booked.imp fun r t books =>
              ⟨books.owner.trans own.symm, books.entity.trans same.symm, books.line, books.amount⟩
          · rw [own, mine']
            exact aside }
      exact entered.moved known validated moved

end Entered

end Vekst.Ingest
