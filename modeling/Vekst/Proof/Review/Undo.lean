import Vekst.Proof.Review.Queue

namespace Vekst.Review
open Isolation Ledger

/-! ## The statements of an undo -/

def stampRetracted (now : Timestamp) (userID : UUID) (c : ClassificationRow) : ClassificationRow :=
  { c with retractedAt := some now, retractedBy := some userID }

/-- A classification once the live ones of these transactions are retracted. -/
def retractOf (now : Timestamp) (userID : UUID) (txnIDs : List UUID) (c : ClassificationRow) :
    ClassificationRow :=
  if c.transactionID ∈ txnIDs && c.live then stampRetracted now userID c else c

theorem retractOf_none {now : Timestamp} {userID : UUID} : retractOf now userID [] = id := by
  funext c
  simp [retractOf]

@[simp] theorem retractOf_id {now : Timestamp} {userID : UUID} {txnIDs : List UUID}
    (c : ClassificationRow) : (retractOf now userID txnIDs c).id = c.id := by
  unfold retractOf
  split <;> rfl

@[simp] theorem retractOf_transactionID {now : Timestamp} {userID : UUID} {txnIDs : List UUID}
    (c : ClassificationRow) : (retractOf now userID txnIDs c).transactionID = c.transactionID := by
  unfold retractOf
  split <;> rfl

@[simp] theorem retractOf_engineLayer {now : Timestamp} {userID : UUID} {txnIDs : List UUID}
    (c : ClassificationRow) : (retractOf now userID txnIDs c).engineLayer = c.engineLayer := by
  unfold retractOf
  split <;> rfl

theorem retractOf_live {now : Timestamp} {userID : UUID} {txnIDs : List UUID}
    (c : ClassificationRow) :
    (retractOf now userID txnIDs c).live = true ↔ c.live = true ∧ c.transactionID ∉ txnIDs := by
  unfold retractOf
  split
  next chosen =>
    rw [Bool.and_eq_true, decide_eq_true_eq] at chosen
    simp [chosen.1, ClassificationRow.live, stampRetracted]
  next kept =>
    rw [Bool.and_eq_true, decide_eq_true_eq, not_and'] at kept
    exact ⟨fun live => ⟨live, kept live⟩, fun both => both.1⟩

theorem visible_updateClassifications (rows : List ClassificationRow)
    (f : ClassificationRow → ClassificationRow) (d : Database) :
    visible d ((rows.map f).map .updateClassification) = { d with
      classifications := rows.foldl (fun kept c => replaceBy (·.id) (f c) kept) d.classifications } := by
  induction rows generalizing d with
  | nil => rfl
  | cons row rows ih => exact ih _

section Undo

variable {d after : Database} {now : Timestamp} {userID decisionID : UUID} {draws : Draws}

/-- The retraction, which the source skips when there is nothing to retract. -/
def retractLive (now : Timestamp) (userID : UUID) (txnIDs : List UUID) : Tx Nat :=
  if txnIDs = [] then pure 0 else retractClassificationsOfTransactions now userID txnIDs

theorem run_retractLive {txnIDs : List UUID} (keyed : (d.classifications.map (·.id)).Nodup) :
    ∃ count, (retractLive now userID txnIDs).run Store.apply d = .ok (count, { d with
      classifications := d.classifications.map (retractOf now userID txnIDs) }) := by
  rw [retractLive]
  split
  next nothing =>
    refine ⟨0, ?_⟩
    rw [nothing, retractOf_none, List.map_id]
    rfl
  next =>
    have updated := visible_updateClassifications
      (d.classifications.filter fun c => c.transactionID ∈ txnIDs && c.live)
      (stampRetracted now userID) d
    rw [@foldl_replaceBy_filter _ (·.id) (stampRetracted now userID) (fun _ => rfl) _ _ keyed]
      at updated
    exact ⟨_, (Prog.run_exec_ok _).mpr ⟨_, rfl, updated⟩⟩

theorem run_undoReviewDecision_ok :
    (undoReviewDecision now userID decisionID).run Store.apply d = .ok ((), after) ↔
      ∃ x, d.decisions.find? (fun row => row.id = decisionID && row.undoneAt.isNone) = some x ∧
        after = { d with
          decisions := replaceBy (·.id) { x with undoneAt := some now, undoneBy := some userID }
            d.decisions } := by
  rw [undoReviewDecision, Prog.run_exec_ok]
  cases found : d.decisions.find? fun row => row.id = decisionID && row.undoneAt.isNone with
  | none => simp
  | some x =>
      simp only [Except.ok.injEq, Prod.mk.injEq, and_true, exists_eq_left', Option.some.injEq]
      exact eq_comm

/-- The vendors once the memory of a decision is deleted. -/
def forgottenVendors (x : ReviewDecisionRow) (vendors : List VendorRow) : List VendorRow :=
  if x.outcome = outcomeCategorised then
    vendors.filter fun v => !(v.keyVersion = x.keyVersion && v.key = x.counterpartyKey)
  else vendors

def forgetVendor (x : ReviewDecisionRow) : Tx Unit :=
  if x.outcome = outcomeCategorised then
    Prog.exec fun _ => .ok ([.deleteVendor x.keyVersion x.counterpartyKey], ())
  else pure ()

theorem run_forgetVendor (x : ReviewDecisionRow) :
    (forgetVendor x).run Store.apply d =
      .ok ((), { d with vendors := forgottenVendors x d.vendors }) := by
  rw [forgetVendor, forgottenVendors]
  split
  next => exact (Prog.run_exec_ok _).mpr ⟨_, rfl, rfl⟩
  next => rfl

def decisionByID (decisionID : UUID) : Tx ReviewDecisionRow :=
  Prog.query fun d => match d.decisions.find? (·.id = decisionID) with
    | some decision => .ok decision
    | none => .error .noRowsAffected

theorem undoDecision_eq : undoDecision draws userID decisionID = (do
    let decision ← decisionByID decisionID
    let live ← Prog.query fun d => .ok (liveClassificationsForCounterparty d decision.counterpartyKey)
    let retracted ← retractLive (draws.now 1) userID (live.map (·.transactionID))
    forgetVendor decision
    undoReviewDecision (draws.now 1) userID decisionID
    return retracted) := by
  rw [undoDecision]
  apply congrArg (bind _)
  funext decision
  apply congrArg (bind _)
  funext live
  rw [retractLive, forgetVendor]
  by_cases nothing : live.map (·.transactionID) = []
  · simp only [if_pos nothing]
    by_cases categorised : decision.outcome = outcomeCategorised
    · simp only [if_pos categorised]
    · simp only [if_neg categorised]
      rfl
  · simp only [if_neg nothing]
    by_cases categorised : decision.outcome = outcomeCategorised
    · simp only [if_pos categorised]
    · simp only [if_neg categorised]
      rfl

def undoneIDs (d : Database) (key : String) : List UUID :=
  (liveClassificationsForCounterparty d key).map (·.transactionID)

/-- What an undo leaves of a database whose rows are keyed. -/
structure Undone (d : Database) (now : Timestamp) (userID decisionID : UUID) (x : ReviewDecisionRow)
    (after : Database) : Prop where
  known : x ∈ d.decisions
  named : x.id = decisionID
  live : x.undoneAt = none
  left : after = { d with
    classifications := d.classifications.map (retractOf now userID (undoneIDs d x.counterpartyKey))
    vendors := forgottenVendors x d.vendors
    decisions := replaceBy (·.id) { x with undoneAt := some now, undoneBy := some userID }
      d.decisions }

theorem decisionByID_ok {x : ReviewDecisionRow} (decided : (d.decisions.map (·.id)).Nodup) :
    (decisionByID decisionID).run Store.apply d = .ok (x, after) ↔
      (x ∈ d.decisions ∧ x.id = decisionID) ∧ d = after := by
  rw [decisionByID, Prog.run_query_ok]
  refine and_congr_left fun _ => ?_
  cases found : d.decisions.find? (·.id = decisionID) with
  | none =>
      simp only [reduceCtorEq, false_iff, not_and]
      intro known named
      simpa [named] using List.find?_eq_none.mp found x known
  | some y =>
      have own : y.id = decisionID := by
        simpa using List.find?_some found
      rw [Except.ok.injEq]
      constructor
      · rintro rfl
        exact ⟨List.mem_of_find?_eq_some found, own⟩
      · rintro ⟨known, named⟩
        exact List.inj_on_of_nodup_map decided (List.mem_of_find?_eq_some found) known
          (own.trans named.symm)

theorem find_live_decision {x : ReviewDecisionRow} (decided : (d.decisions.map (·.id)).Nodup) :
    d.decisions.find? (fun row => row.id = decisionID && row.undoneAt.isNone) = some x ↔
      x ∈ d.decisions ∧ x.id = decisionID ∧ x.undoneAt = none := by
  constructor
  · intro found
    have matching := List.find?_some found
    rw [Bool.and_eq_true, decide_eq_true_eq, Option.isNone_iff_eq_none] at matching
    exact ⟨List.mem_of_find?_eq_some found, matching⟩
  · rintro ⟨known, rfl, live⟩
    have some_ : (d.decisions.find? fun row => row.id = x.id && row.undoneAt.isNone).isSome :=
      List.find?_isSome.mpr ⟨x, known, by simp [live]⟩
    obtain ⟨y, found⟩ := Option.isSome_iff_exists.mp some_
    have matching := List.find?_some found
    rw [Bool.and_eq_true, decide_eq_true_eq] at matching
    rw [found, List.inj_on_of_nodup_map decided (List.mem_of_find?_eq_some found) known matching.1]

/-- An undo goes through exactly on a live decision. -/
theorem run_undoDecision_ok (keyed : (d.classifications.map (·.id)).Nodup)
    (decided : (d.decisions.map (·.id)).Nodup) :
    (∃ count, (undoDecision draws userID decisionID).run Store.apply d = .ok (count, after)) ↔
      ∃ x, Undone d (draws.now 1) userID decisionID x after := by
  rw [undoDecision_eq]
  constructor
  · rintro ⟨count, ran⟩
    obtain ⟨x, _, first, ran⟩ := (Prog.run_bind_ok _).mp ran
    obtain ⟨⟨known, named⟩, rfl⟩ := (decisionByID_ok decided).mp first
    obtain ⟨_, _, second, ran⟩ := (Prog.run_bind_ok _).mp ran
    obtain ⟨listed, rfl⟩ := (Prog.run_query_ok _).mp second
    obtain rfl := Except.ok.inj listed
    obtain ⟨_, _, third, ran⟩ := (Prog.run_bind_ok _).mp ran
    obtain ⟨_, retracted⟩ := run_retractLive keyed
    obtain ⟨rfl, rfl⟩ := Prod.mk.inj (Except.ok.inj (third.symm.trans retracted))
    obtain ⟨_, _, fourth, ran⟩ := (Prog.run_bind_ok _).mp ran
    obtain ⟨-, rfl⟩ := Prod.mk.inj (Except.ok.inj (fourth.symm.trans (run_forgetVendor x)))
    obtain ⟨_, _, fifth, ended⟩ := (Prog.run_bind_ok _).mp ran
    obtain ⟨-, rfl⟩ := Prod.mk.inj (Except.ok.inj ended)
    obtain ⟨y, found, rfl⟩ := run_undoReviewDecision_ok.mp fifth
    obtain ⟨stored, own, live⟩ := (find_live_decision decided).mp found
    obtain rfl := List.inj_on_of_nodup_map decided known stored (named.trans own.symm)
    exact ⟨x, stored, own, live, rfl⟩
  · rintro ⟨x, known, named, live, rfl⟩
    obtain ⟨count, retracted⟩ := @run_retractLive d (draws.now 1) userID
      (undoneIDs d x.counterpartyKey) keyed
    refine ⟨count, (Prog.run_bind_ok _).mpr ⟨x, d, (decisionByID_ok decided).mpr ⟨⟨known, named⟩, rfl⟩,
      (Prog.run_bind_ok _).mpr ⟨_, d, (Prog.run_query_ok _).mpr ⟨rfl, rfl⟩,
        (Prog.run_bind_ok _).mpr ⟨count, _, retracted, (Prog.run_bind_ok _).mpr ⟨(), _,
          run_forgetVendor x, (Prog.run_bind_ok _).mpr ⟨(), _, run_undoReviewDecision_ok.mpr
            ⟨x, (find_live_decision decided).mpr ⟨known, named, live⟩, rfl⟩, rfl⟩⟩⟩⟩⟩⟩

end Undo

end Vekst.Review
