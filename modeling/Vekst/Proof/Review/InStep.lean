import Vekst.Proof.Review.Undo

namespace Vekst.Review
open Isolation Ledger Classify

/-! ## Decisions, what they wrote and what is remembered of them -/

/-- One step stored both the decision and the classification. -/
structure WroteIn (before after : Database) (decisionID classificationID : UUID) : Prop where
  decisionNew : ∀ x ∈ before.decisions, x.id ≠ decisionID
  decision : ∃ x ∈ after.decisions, x.id = decisionID
  classificationNew : ∀ c ∈ before.classifications, c.id ≠ classificationID
  classification : ∃ c ∈ after.classifications, c.id = classificationID

/-- The decision wrote the classification in a step of this history, the latest state first. -/
def Wrote : List Database → UUID → UUID → Prop
  | after :: before :: earlier => fun x c => WroteIn before after x c ∨ Wrote (before :: earlier) x c
  | _ => fun _ _ => False

/-- A person's answer on a transaction of this counterparty. -/
def HumanOn (transactions : List TransactionRow) (key : String) (c : ClassificationRow) : Prop :=
  c.engineLayer = "human" ∧ ∃ t ∈ transactions, t.id = c.transactionID ∧ t.counterpartyKey = key

def LiveFor (key : String) (x : ReviewDecisionRow) : Prop :=
  x.counterpartyKey = key ∧ x.undoneAt = none

/-- The live answers of people and the vendors are those of the live decisions. -/
structure InStep (wrote : UUID → UUID → Prop) (d : Database) : Prop where
  classified : ∀ key, ∀ c ∈ d.classifications, c.live = true ∧ HumanOn d.transactions key c ↔
    ∃ x ∈ d.decisions, LiveFor key x ∧ x.outcome ≠ outcomeSkipped ∧ wrote x.id c.id
  remembered : ∀ key, (∃ v ∈ d.vendors, v.key = key) ↔
    ∃ x ∈ d.decisions, LiveFor key x ∧ x.outcome = outcomeCategorised
  named : ∀ v ∈ d.vendors, ∀ x ∈ d.decisions, LiveFor v.key x → x.categoryID = some v.categoryID

/-- What the keys, the references and the index of the tables keep, in one normalisation version. -/
structure Tidy (wrote : UUID → UUID → Prop) (d : Database) : Prop where
  transactions : (d.transactions.map (·.id)).Nodup
  classifications : (d.classifications.map (·.id)).Nodup
  decisions : (d.decisions.map (·.id)).Nodup
  attached : ∀ c ∈ d.classifications, ∃ t ∈ d.transactions, t.id = c.transactionID
  current : ∀ v ∈ d.vendors, v.keyVersion = normalizeVersion
  versioned : ∀ x ∈ d.decisions, x.keyVersion = normalizeVersion
  once : ∀ x ∈ d.decisions, ∀ y ∈ d.decisions, ∀ key, LiveFor key x → LiveFor key y → x = y
  known : ∀ x c, wrote x c → (∃ y ∈ d.decisions, y.id = x) ∧ ∃ e ∈ d.classifications, e.id = c
  skips : ∀ x ∈ d.decisions, x.outcome = outcomeSkipped → ∀ c, ¬ wrote x.id c

/-- The invariant of sequential runs. -/
structure Kept (wrote : UUID → UUID → Prop) (d : Database) : Prop extends Tidy wrote d, InStep wrote d

section Steps

variable {wrote : UUID → UUID → Prop} {d after : Database} {key other : String}
  {c : ClassificationRow} {x : ReviewDecisionRow}

/-- A transaction has one counterparty. -/
theorem HumanOn.unique {transactions : List TransactionRow} (keyed : (transactions.map (·.id)).Nodup)
    (first : HumanOn transactions key c) (second : HumanOn transactions other c) : key = other := by
  obtain ⟨-, t, known, same, rfl⟩ := first
  obtain ⟨-, t', known', same', rfl⟩ := second
  rw [List.inj_on_of_nodup_map keyed known known' (same.trans same'.symm)]

theorem kept_of_tables (kept : Kept wrote d) (transactions : after.transactions = d.transactions)
    (classifications : after.classifications = d.classifications)
    (decisions : after.decisions = d.decisions) (vendors : after.vendors = d.vendors) :
    Kept wrote after := by
  obtain ⟨⟨t, c, x, attached, current, versioned, once, known, skips⟩, ⟨classified, remembered, named⟩⟩ :=
    kept
  constructor
  · constructor <;> simp only [transactions, classifications, decisions, vendors] <;> assumption
  · constructor <;> simp only [transactions, classifications, decisions, vendors] <;> assumption

/-! ## What an import adds -/

theorem kept_transaction {row : TransactionRow} (kept : Kept wrote d)
    (new : ∀ t ∈ d.transactions, t.id ≠ row.id) :
    Kept wrote { d with transactions := d.transactions ++ [row] } where
  transactions := nodup_ids_append kept.transactions (List.nodup_singleton _) fun t added =>
    List.mem_singleton.mp added ▸ new
  classifications := kept.classifications
  decisions := kept.decisions
  attached c member := by
    obtain ⟨t, known, same⟩ := kept.attached c member
    exact ⟨t, List.mem_append_left _ known, same⟩
  current := kept.current
  versioned := kept.versioned
  once := kept.once
  known := kept.known
  skips := kept.skips
  classified key c member := by
    rw [← kept.classified key c member]
    obtain ⟨own, known, same⟩ := kept.attached c member
    -- A classification is on a transaction that was there before.
    have on : HumanOn (d.transactions ++ [row]) key c ↔ HumanOn d.transactions key c := by
      refine and_congr_right fun _ => ⟨?_, ?_⟩
      · rintro ⟨t, stored, named, keyed⟩
        rcases List.mem_append.mp stored with old | added
        · exact ⟨t, old, named, keyed⟩
        · rw [List.mem_singleton.mp added] at named
          exact absurd (same.trans named.symm) (new own known)
      · rintro ⟨t, stored, both⟩
        exact ⟨t, List.mem_append_left _ stored, both⟩
    rw [on]
  remembered := kept.remembered
  named := kept.named

theorem kept_machine {row : ClassificationRow} (kept : Kept wrote d)
    (new : ∀ c ∈ d.classifications, c.id ≠ row.id) (machine : row.engineLayer ≠ "human")
    (attached : ∃ t ∈ d.transactions, t.id = row.transactionID) :
    Kept wrote { d with classifications := d.classifications ++ [row] } where
  transactions := kept.transactions
  classifications := nodup_ids_append kept.classifications (List.nodup_singleton _) fun c added =>
    List.mem_singleton.mp added ▸ new
  decisions := kept.decisions
  attached c member := by
    rcases List.mem_append.mp member with old | added
    · exact kept.attached c old
    · rw [List.mem_singleton.mp added]
      exact attached
  current := kept.current
  versioned := kept.versioned
  once := kept.once
  known x c wrote_ := by
    obtain ⟨decision, e, known, same⟩ := kept.known x c wrote_
    exact ⟨decision, e, List.mem_append_left _ known, same⟩
  skips := kept.skips
  classified key c member := by
    rcases List.mem_append.mp member with old | added
    · exact kept.classified key c old
    · obtain rfl := List.mem_singleton.mp added
      constructor
      · rintro ⟨-, human, -⟩
        exact absurd human machine
      · rintro ⟨x, -, -, -, wrote_⟩
        obtain ⟨-, e, known, same⟩ := kept.known x.id c.id wrote_
        exact absurd same (new e known)
  remembered := kept.remembered
  named := kept.named

/-! ## What a resolution adds -/

/-- A decision and what is stored with it. -/
structure Settles (d : Database) (x : ReviewDecisionRow) (rows : List ClassificationRow)
    (vendors : List VendorRow) : Prop where
  new : ∀ y ∈ d.decisions, y.id ≠ x.id
  undecided : ∀ y ∈ d.decisions, ¬ LiveFor x.counterpartyKey y
  live : x.undoneAt = none
  versioned : x.keyVersion = normalizeVersion
  skips : x.outcome = outcomeSkipped → rows = []
  rowsNew : ∀ row ∈ rows, ∀ c ∈ d.classifications, c.id ≠ row.id
  rowsApart : (rows.map (·.id)).Nodup
  rowsLive : ∀ row ∈ rows, row.live = true ∧ HumanOn d.transactions x.counterpartyKey row
  vendors : x.outcome = outcomeCategorised ∧ (∃ v : VendorRow, v.key = x.counterpartyKey ∧
      v.keyVersion = normalizeVersion ∧ x.categoryID = some v.categoryID ∧
      vendors = d.vendors.filter (fun old => !(old.keyVersion = normalizeVersion &&
        old.key = x.counterpartyKey)) ++ [v]) ∨
    x.outcome ≠ outcomeCategorised ∧ vendors = d.vendors

def settledBy (d : Database) (x : ReviewDecisionRow) (rows : List ClassificationRow)
    (vendors : List VendorRow) : Database :=
  { d with
    vendors
    classifications := d.classifications ++ rows
    decisions := d.decisions ++ [x] }

variable {rows : List ClassificationRow} {vendors : List VendorRow}

theorem Settles.wroteIn (settles : Settles d x rows vendors) (member : c ∈ rows) :
    WroteIn d (settledBy d x rows vendors) x.id c.id where
  decisionNew := settles.new
  decision := ⟨x, List.mem_append_right _ (List.mem_singleton_self _), rfl⟩
  classificationNew := settles.rowsNew c member
  classification := ⟨c, List.mem_append_right _ member, rfl⟩

/-- What the step wrote, it wrote for the new decision. -/
theorem writer_settled {decisionID classificationID : UUID}
    (wroteIn : WroteIn d (settledBy d x rows vendors) decisionID classificationID) :
    decisionID = x.id ∧ ∃ c ∈ rows, c.id = classificationID := by
  obtain ⟨y, listed, rfl⟩ := wroteIn.decision
  obtain ⟨c, stored, rfl⟩ := wroteIn.classification
  constructor
  · rcases List.mem_append.mp listed with old | added
    · exact absurd rfl (wroteIn.decisionNew y old)
    · rw [List.mem_singleton.mp added]
  · rcases List.mem_append.mp stored with old | added
    · exact absurd rfl (wroteIn.classificationNew c old)
    · exact ⟨c, added, rfl⟩

theorem tidy_settled (kept : Kept wrote d) (settles : Settles d x rows vendors) :
    Tidy (fun y c => WroteIn d (settledBy d x rows vendors) y c ∨ wrote y c)
      (settledBy d x rows vendors) where
  transactions := kept.transactions
  classifications := nodup_ids_append kept.classifications settles.rowsApart settles.rowsNew
  decisions := nodup_ids_append kept.decisions (List.nodup_singleton _) fun y added =>
    List.mem_singleton.mp added ▸ settles.new
  attached c member := by
    rcases List.mem_append.mp member with old | added
    · exact kept.attached c old
    · obtain ⟨t, known, same, -⟩ := (settles.rowsLive c added).2.2
      exact ⟨t, known, same⟩
  current v member := by
    rcases settles.vendors with ⟨-, new, -, version, -, rfl⟩ | ⟨-, rfl⟩
    · rcases List.mem_append.mp member with old | added
      · exact kept.current v (List.mem_filter.mp old).1
      · rw [List.mem_singleton.mp added]
        exact version
    · exact kept.current v member
  versioned y member := by
    rcases List.mem_append.mp member with old | added
    · exact kept.versioned y old
    · rw [List.mem_singleton.mp added]
      exact settles.versioned
  once y first z second key live live' := by
    rcases List.mem_append.mp first with old | added
    · rcases List.mem_append.mp second with old' | added'
      · exact kept.once y old z old' key live live'
      · obtain rfl := List.mem_singleton.mp added'
        exact absurd (live'.1 ▸ live) (settles.undecided y old)
    · obtain rfl := List.mem_singleton.mp added
      rcases List.mem_append.mp second with old' | added'
      · exact absurd (live.1 ▸ live') (settles.undecided z old')
      · exact (List.mem_singleton.mp added').symm
  known y c wrote_ := by
    rcases wrote_ with now | before
    · exact ⟨now.decision, now.classification⟩
    · obtain ⟨⟨z, known, named⟩, e, stored, same⟩ := kept.known y c before
      exact ⟨⟨z, List.mem_append_left _ known, named⟩, e, List.mem_append_left _ stored, same⟩
  skips y member skipped c wrote_ := by
    rcases List.mem_append.mp member with old | added
    · rcases wrote_ with now | before
      · exact now.decisionNew y old rfl
      · exact kept.skips y old skipped c before
    · obtain rfl := List.mem_singleton.mp added
      rcases wrote_ with now | before
      · obtain ⟨-, row, member, -⟩ := writer_settled now
        rw [settles.skips skipped] at member
        cases member
      · obtain ⟨⟨z, known, named⟩, -⟩ := kept.known _ c before
        exact settles.new z known named

theorem classified_settled (kept : Kept wrote d) (settles : Settles d x rows vendors)
    (member : c ∈ d.classifications ++ rows) :
    c.live = true ∧ HumanOn d.transactions key c ↔ ∃ y ∈ d.decisions ++ [x], LiveFor key y ∧
      y.outcome ≠ outcomeSkipped ∧
      (WroteIn d (settledBy d x rows vendors) y.id c.id ∨ wrote y.id c.id) := by
  rcases List.mem_append.mp member with old | added
  · rw [kept.classified key c old]
    constructor
    · rintro ⟨y, known, live, named, wrote_⟩
      exact ⟨y, List.mem_append_left _ known, live, named, .inr wrote_⟩
    · rintro ⟨y, known, live, named, now | before⟩
      · exact absurd rfl (now.classificationNew c old)
      · rcases List.mem_append.mp known with stored | new
        · exact ⟨y, stored, live, named, before⟩
        · obtain rfl := List.mem_singleton.mp new
          obtain ⟨⟨z, stored, same⟩, -⟩ := kept.known _ _ before
          exact absurd same (settles.new z stored)
  · obtain ⟨born, on⟩ := settles.rowsLive c added
    constructor
    · rintro ⟨-, here⟩
      obtain rfl := on.unique kept.transactions here
      refine ⟨x, by simp, ⟨rfl, settles.live⟩, fun skipped => ?_, .inl (settles.wroteIn added)⟩
      rw [settles.skips skipped] at added
      cases added
    · rintro ⟨y, known, live, -, now | before⟩
      · rcases List.mem_append.mp known with stored | new
        · exact absurd rfl (now.decisionNew y stored)
        · obtain rfl := List.mem_singleton.mp new
          exact ⟨born, live.1 ▸ on⟩
      · obtain ⟨-, e, stored, same⟩ := kept.known _ _ before
        exact absurd same (settles.rowsNew c added e stored)

/-- Where no decision of the key is live, nothing of it is remembered. -/
theorem Settles.forgotten (kept : Kept wrote d) (settles : Settles d x rows vendors) {v : VendorRow}
    (member : v ∈ d.vendors) : v.key ≠ x.counterpartyKey := by
  intro same
  obtain ⟨y, known, live, -⟩ := (kept.remembered _).mp ⟨v, member, same⟩
  exact settles.undecided y known live

theorem mem_settled_vendors (kept : Kept wrote d) (settles : Settles d x rows vendors)
    {v : VendorRow} : v ∈ vendors ↔ v ∈ d.vendors ∨
      x.outcome = outcomeCategorised ∧ v ∈ vendors ∧ v.key = x.counterpartyKey ∧
        x.categoryID = some v.categoryID := by
  rcases settles.vendors with ⟨categorised, new, keyed, -, names, rfl⟩ | ⟨other, rfl⟩
  · rw [List.mem_append, List.mem_filter, List.mem_singleton]
    constructor
    · rintro (⟨old, -⟩ | rfl)
      · exact .inl old
      · exact .inr ⟨categorised, .inr rfl, keyed, names⟩
    · rintro (old | ⟨-, both, -⟩)
      · have apart : v.key ≠ x.counterpartyKey := settles.forgotten kept old
        exact .inl ⟨old, by simp [apart]⟩
      · exact both
  · simp [other]

theorem kept_settled (kept : Kept wrote d) (settles : Settles d x rows vendors) :
    Kept (fun y c => WroteIn d (settledBy d x rows vendors) y c ∨ wrote y c)
      (settledBy d x rows vendors) where
  toTidy := tidy_settled kept settles
  classified key c member := classified_settled kept settles member
  remembered key := by
    constructor
    · rintro ⟨v, member, rfl⟩
      rcases (mem_settled_vendors kept settles).mp member with old | ⟨categorised, -, keyed, -⟩
      · obtain ⟨y, known, live⟩ := (kept.remembered v.key).mp ⟨v, old, rfl⟩
        exact ⟨y, List.mem_append_left _ known, live⟩
      · exact ⟨x, List.mem_append_right _ (by simp), ⟨keyed.symm, settles.live⟩, categorised⟩
    · rintro ⟨y, known, live, categorised⟩
      rcases List.mem_append.mp known with stored | new
      · obtain ⟨v, member, same⟩ := (kept.remembered key).mpr ⟨y, stored, live, categorised⟩
        exact ⟨v, (mem_settled_vendors kept settles).mpr (.inl member), same⟩
      · obtain rfl := List.mem_singleton.mp new
        rcases settles.vendors with ⟨-, v, keyed, -, -, rfl⟩ | ⟨other, -⟩
        · exact ⟨v, List.mem_append_right _ (by simp), keyed.trans live.1⟩
        · exact absurd categorised other
  named v member y known live := by
    rcases (mem_settled_vendors kept settles).mp member with old | ⟨-, -, keyed, names⟩
    · rcases List.mem_append.mp known with stored | new
      · exact kept.named v old y stored live
      · obtain rfl := List.mem_singleton.mp new
        exact absurd live.1.symm (settles.forgotten kept old)
    · rcases List.mem_append.mp known with stored | new
      · exact absurd (keyed ▸ live) (settles.undecided y stored)
      · rw [List.mem_singleton.mp new]
        exact names

/-! ## What an undo takes back -/

variable {now : Timestamp} {userID decisionID : UUID}

/-- The rows an undo retracts are the live human answers on its counterparty's transactions. -/
theorem mem_undoneIDs {txnID : UUID} : txnID ∈ undoneIDs d key ↔
    ∃ c ∈ d.classifications, c.transactionID = txnID ∧ c.live = true ∧ HumanOn d.transactions key c := by
  rw [undoneIDs, List.mem_map]
  constructor
  · rintro ⟨c, member, rfl⟩
    obtain ⟨known, selected⟩ := List.mem_filter.mp member
    simp only [Bool.and_eq_true, decide_eq_true_eq, List.any_eq_true] at selected
    exact ⟨c, known, rfl, selected.1.1, selected.1.2, selected.2⟩
  · rintro ⟨c, known, rfl, live, human, on⟩
    refine ⟨c, List.mem_filter.mpr ⟨known, ?_⟩, rfl⟩
    simp only [Bool.and_eq_true, decide_eq_true_eq, List.any_eq_true]
    exact ⟨⟨live, human⟩, on⟩

/-- A live human answer is retracted when it is on the counterparty of the decision. -/
theorem mem_undoneIDs_iff (kept : Kept wrote d) (here : HumanOn d.transactions other c)
    (known : c ∈ d.classifications) (live : c.live = true) :
    c.transactionID ∈ undoneIDs d key ↔ key = other := by
  rw [mem_undoneIDs]
  constructor
  · rintro ⟨e, -, same, -, human, t, stored, own, keyed⟩
    exact HumanOn.unique kept.transactions ⟨here.1, t, stored, own.trans same, keyed⟩ here
  · rintro rfl
    exact ⟨c, known, rfl, live, here⟩

/-- The decisions left live. -/
theorem mem_undone_decisions (kept : Kept wrote d) (undone : Undone d now userID decisionID x after)
    {y : ReviewDecisionRow} : y ∈ after.decisions ∧ y.undoneAt = none ↔
      y ∈ d.decisions ∧ y.undoneAt = none ∧ y ≠ x := by
  have left : after.decisions = replaceBy (·.id)
      { x with undoneAt := some now, undoneBy := some userID } d.decisions := by
    rw [undone.left]
  rw [left]
  constructor
  · rintro ⟨member, live⟩
    rcases mem_replaceBy_cases member with rfl | ⟨known, other⟩
    · cases live
    · exact ⟨known, live, fun same => other (by rw [same])⟩
  · rintro ⟨known, live, other⟩
    refine ⟨mem_replaceBy_of_ne known fun same => other ?_, live⟩
    exact List.inj_on_of_nodup_map kept.decisions known undone.known same

theorem mem_undone_vendors (kept : Kept wrote d) (undone : Undone d now userID decisionID x after)
    {v : VendorRow} : v ∈ after.vendors ↔ v ∈ d.vendors ∧ v.key ≠ x.counterpartyKey := by
  have left : after.vendors = forgottenVendors x d.vendors := by rw [undone.left]
  rw [left, forgottenVendors]
  split
  next categorised =>
    rw [List.mem_filter]
    refine and_congr_right fun known => ?_
    simp [kept.current v known, kept.versioned x undone.known]
  next other =>
    refine ⟨fun known => ⟨known, fun same => ?_⟩, fun both => both.1⟩
    obtain ⟨y, stored, live, categorised⟩ := (kept.remembered v.key).mp ⟨v, known, rfl⟩
    obtain rfl := kept.once y stored x undone.known v.key live ⟨same.symm, undone.live⟩
    exact other categorised

theorem undone_ids (undone : Undone d now userID decisionID x after) :
    after.decisions.map (·.id) = d.decisions.map (·.id) ∧
      after.classifications.map (·.id) = d.classifications.map (·.id) := by
  rw [undone.left]
  refine ⟨replaceBy_ids _ _ _, ?_⟩
  rw [List.map_map]
  exact List.map_congr_left fun c _ => retractOf_id c

theorem exists_id {α : Type} {id : α → UUID} {rows more : List α} (same : more.map id = rows.map id)
    {i : UUID} : (∃ a ∈ more, id a = i) ↔ ∃ a ∈ rows, id a = i := by
  rw [← List.mem_map, ← List.mem_map, same]

theorem tidy_undone (kept : Kept wrote d) (undone : Undone d now userID decisionID x after) :
    Tidy wrote after where
  transactions := by
    rw [undone.left]
    exact kept.transactions
  classifications := by
    rw [(undone_ids undone).2]
    exact kept.classifications
  decisions := by
    rw [(undone_ids undone).1]
    exact kept.decisions
  attached c member := by
    rw [undone.left] at member ⊢
    obtain ⟨e, known, rfl⟩ := List.mem_map.mp member
    rw [retractOf_transactionID]
    exact kept.attached e known
  current v member := kept.current v ((mem_undone_vendors kept undone).mp member).1
  versioned y member := by
    rw [undone.left] at member
    rcases mem_replaceBy member with known | rfl
    · exact kept.versioned y known
    · exact kept.versioned x undone.known
  once y first z second key live live' := by
    have old := (mem_undone_decisions kept undone).mp ⟨first, live.2⟩
    have old' := (mem_undone_decisions kept undone).mp ⟨second, live'.2⟩
    exact kept.once y old.1 z old'.1 key live live'
  known y c wrote_ := by
    rw [exists_id (undone_ids undone).1, exists_id (undone_ids undone).2]
    exact kept.known y c wrote_
  skips y member skipped := by
    rw [undone.left] at member
    rcases mem_replaceBy member with known | rfl
    · exact kept.skips y known skipped
    · exact kept.skips x undone.known skipped

theorem kept_undone (kept : Kept wrote d) (undone : Undone d now userID decisionID x after) :
    Kept wrote after where
  toTidy := tidy_undone kept undone
  classified key c member := by
    have tables : after.transactions = d.transactions ∧ after.classifications =
        d.classifications.map (retractOf now userID (undoneIDs d x.counterpartyKey)) := by
      rw [undone.left]
      exact ⟨rfl, rfl⟩
    rw [tables.2] at member
    obtain ⟨e, known, rfl⟩ := List.mem_map.mp member
    rw [tables.1, retractOf_live, HumanOn, retractOf_engineLayer, retractOf_transactionID,
      retractOf_id]
    constructor
    · rintro ⟨⟨live, kept_⟩, on⟩
      obtain ⟨y, stored, holds, named, wrote_⟩ := (kept.classified key e known).mp ⟨live, on⟩
      have apart : y ≠ x := by
        rintro rfl
        exact kept_ ((mem_undoneIDs_iff kept on known live).mpr holds.1)
      have still := (mem_undone_decisions kept undone).mpr ⟨stored, holds.2, apart⟩
      exact ⟨y, still.1, holds, named, wrote_⟩
    · rintro ⟨y, stored, holds, named, wrote_⟩
      obtain ⟨old, -, apart⟩ := (mem_undone_decisions kept undone).mp ⟨stored, holds.2⟩
      obtain ⟨live, on⟩ := (kept.classified key e known).mpr ⟨y, old, holds, named, wrote_⟩
      refine ⟨⟨live, fun taken => ?_⟩, on⟩
      have same := (mem_undoneIDs_iff kept on known live).mp taken
      exact apart (kept.once y old x undone.known key holds ⟨same, undone.live⟩)
  remembered key := by
    constructor
    · rintro ⟨v, member, rfl⟩
      obtain ⟨known, other⟩ := (mem_undone_vendors kept undone).mp member
      obtain ⟨y, stored, live, categorised⟩ := (kept.remembered v.key).mp ⟨v, known, rfl⟩
      have apart : y ≠ x := by
        rintro rfl
        exact other live.1.symm
      exact ⟨y, ((mem_undone_decisions kept undone).mpr ⟨stored, live.2, apart⟩).1, live, categorised⟩
    · rintro ⟨y, stored, live, categorised⟩
      obtain ⟨old, -, apart⟩ := (mem_undone_decisions kept undone).mp ⟨stored, live.2⟩
      obtain ⟨v, known, same⟩ := (kept.remembered key).mpr ⟨y, old, live, categorised⟩
      refine ⟨v, (mem_undone_vendors kept undone).mpr ⟨known, fun taken => ?_⟩, same⟩
      exact apart (kept.once y old x undone.known key live ⟨taken.symm.trans same, undone.live⟩)
  named v member y stored live := by
    obtain ⟨old, -, -⟩ := (mem_undone_decisions kept undone).mp ⟨stored, live.2⟩
    exact kept.named v ((mem_undone_vendors kept undone).mp member).1 y old live

/-- An undo retracts what the decision wrote, and nothing else, and its rows wait again. -/
structure Retracts (wrote : UUID → UUID → Prop) (d : Database) (now : Timestamp) (userID : UUID)
    (x : ReviewDecisionRow) (after : Database) : Prop where
  exactly : List.Forall₂ (fun c c' : ClassificationRow =>
    (wrote x.id c.id → c.live = true ∧ c' = stampRetracted now userID c) ∧
      (¬ wrote x.id c.id → c' = c)) d.classifications after.classifications
  transactions : after.transactions = d.transactions
  returned : ∀ t ∈ d.transactions, (∃ c ∈ d.classifications, c.transactionID = t.id ∧
    wrote x.id c.id) → t ∈ waiting after t.entityID

theorem retracts_of_undone (kept : Kept wrote d) (sound : OneLive d)
    (undone : Undone d now userID decisionID x after) : Retracts wrote d now userID x after := by
  have written : ∀ c ∈ d.classifications, wrote x.id c.id →
      c.live = true ∧ HumanOn d.transactions x.counterpartyKey c := fun c known wrote_ =>
    (kept.classified x.counterpartyKey c known).mpr
      ⟨x, undone.known, ⟨rfl, undone.live⟩, fun skipped => kept.skips x undone.known skipped _ wrote_,
        wrote_⟩
  have taken : ∀ c ∈ d.classifications,
      (c.transactionID ∈ undoneIDs d x.counterpartyKey && c.live) = true ↔ wrote x.id c.id := by
    intro c known
    rw [Bool.and_eq_true, decide_eq_true_eq]
    constructor
    · rintro ⟨listed, live⟩
      obtain ⟨e, known', same, live', on⟩ := mem_undoneIDs.mp listed
      -- One live answer a transaction: the one retracted is the human one.
      have first : c ∈ d.liveOf c.transactionID := List.mem_filter.mpr ⟨known, by simp [live]⟩
      have second : e ∈ d.liveOf c.transactionID := List.mem_filter.mpr ⟨known', by simp [same, live']⟩
      obtain rfl := sound.unique first second
      obtain ⟨y, stored, holds, -, wrote_⟩ := (kept.classified _ c known).mp ⟨live, on⟩
      obtain rfl := kept.once y stored x undone.known _ holds ⟨rfl, undone.live⟩
      exact wrote_
    · intro wrote_
      obtain ⟨live, on⟩ := written c known wrote_
      exact ⟨(mem_undoneIDs_iff kept on known live).mpr rfl, live⟩
  have tables : after.transactions = d.transactions ∧ after.classifications =
      d.classifications.map (retractOf now userID (undoneIDs d x.counterpartyKey)) := by
    rw [undone.left]
    exact ⟨rfl, rfl⟩
  refine ⟨?_, tables.1, fun t stored wrote_ => ?_⟩
  · rw [tables.2, List.forall₂_map_right_iff, List.forall₂_same]
    intro c known
    refine ⟨fun wrote_ => ⟨(written c known wrote_).1, ?_⟩, fun other => ?_⟩
    · exact if_pos ((taken c known).mpr wrote_)
    · exact if_neg fun chosen => other ((taken c known).mp chosen)
  · obtain ⟨c, known, own, wrote_⟩ := wrote_
    obtain ⟨live, on⟩ := written c known wrote_
    refine List.mem_filter.mpr ⟨tables.1 ▸ stored, ?_⟩
    rw [Bool.and_eq_true, decide_eq_true_eq, unanswered_iff_unclassified, Unclassified,
      Database.liveOf, List.filter_eq_nil_iff, tables.2]
    refine ⟨rfl, fun c' member matching => ?_⟩
    obtain ⟨e, -, rfl⟩ := List.mem_map.mp member
    rw [Bool.and_eq_true, decide_eq_true_eq, retractOf_transactionID, retractOf_live] at matching
    refine matching.2.2 (mem_undoneIDs.mpr ⟨c, known, own.trans matching.1.symm, live, on⟩)

end Steps

end Vekst.Review
