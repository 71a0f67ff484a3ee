import Vekst.Ingest.Override
import Vekst.Isolation.Posted
import Vekst.Proof.Ledger.Emitted

namespace Vekst.Ingest
open Isolation Ledger

/-! ## Validations under pending overrides -/

theorem visible_validation_batches (d : Validations) (writes : List ValidationRow) :
    (visible d writes).validations.map (·.batchID) = d.validations.map (·.batchID) := by
  induction writes generalizing d with
  | nil => rfl
  | cons row writes ih => exact (ih _).trans (replaceBy_ids _ _ _)

theorem mem_visible_validations {d : Validations} {writes : List ValidationRow} {row : ValidationRow}
    (member : row ∈ (visible d writes).validations) : row ∈ d.validations ∨ row ∈ writes := by
  rcases mem_visible (fun d w row member => mem_replaceBy member) member with old | ⟨w, made, rfl⟩
  · exact .inl old
  · exact .inr made

/-- A row of no batch that is written. -/
theorem mem_visible_of_unwritten {d : Validations} {writes : List ValidationRow}
    {row : ValidationRow} (stored : row ∈ d.validations)
    (unwritten : ∀ w ∈ writes, w.batchID ≠ row.batchID) : row ∈ (visible d writes).validations := by
  induction writes generalizing d with
  | nil => exact stored
  | cons w writes ih =>
      have other : row.batchID ≠ w.batchID := (unwritten w (by simp)).symm
      exact ih (mem_replaceBy_of_ne stored other) fun later member => unwritten later (by simp [member])

/-- A row written over one of its batch, and over none of the others written. -/
theorem mem_visible_of_written {d : Validations} {writes : List ValidationRow}
    {row old : ValidationRow} (written : row ∈ writes) (apart : (writes.map (·.batchID)).Nodup)
    (stored : old ∈ d.validations) (same : old.batchID = row.batchID) :
    row ∈ (visible d writes).validations := by
  induction writes generalizing d with
  | nil => cases written
  | cons w writes ih =>
      rw [List.map_cons, List.nodup_cons] at apart
      rcases List.mem_cons.mp written with rfl | later
      · have placed : row ∈ (Store.apply d row).validations := mem_replaceBy_self stored same
        have unwritten : ∀ w ∈ writes, w.batchID ≠ row.batchID := fun w member equal =>
          apart.1 (equal ▸ List.mem_map_of_mem member)
        show row ∈ (visible (Store.apply d row) writes).validations
        exact mem_visible_of_unwritten placed unwritten
      · refine ih later apart.2 (mem_replaceBy_of_ne stored ?_)
        intro equal
        exact apart.1 (equal ▸ same ▸ List.mem_map_of_mem later)

/-! ## What a call writes -/

/-- Overridden versions of rows the statement sees, each once. -/
def Overrides (_pending : List ValidationRow) (d : Validations) (writes : List ValidationRow) :
    Prop :=
  (∀ row ∈ writes, row.overriddenAt.isSome) ∧
    (writes.map (·.batchID)).Sublist (d.validations.map (·.batchID))

/-- A call that succeeds has published a version of the row of the batch it reports. -/
def Published : OverrideOutcome → List ValidationRow → Prop
  | .ok report, sent => ∃ row ∈ sent, row.batchID = report.batchID
  | .error _, _ => True

theorem overrides_nil (pending : List ValidationRow) (d : Validations) : Overrides pending d [] := by
  simp [Overrides]

theorem wp_recordOverride {batchID userID : UUID} {reason : String} {now : Timestamp}
    {pending : List ValidationRow} :
    (recordOverride batchID userID reason now).wp Overrides (fun affected writes =>
      ∃ rows, writes = pending ++ rows ∧ affected = rows.length ∧
        ∀ row ∈ rows, row.batchID = batchID) pending := by
  apply Prog.wp_exec
  intro d writes affected success
  dsimp only at success
  split at success
  next => cases success
  obtain ⟨_, -, made⟩ := bind_ok.mp success
  obtain ⟨rfl, rfl⟩ := Prod.mk.inj (Except.ok.inj made)
  refine ⟨⟨?_, ?_⟩, _, rfl, rfl, ?_⟩
  · intro row member
    obtain ⟨old, -, rfl⟩ := List.mem_map.mp member
    rfl
  · rw [List.map_map]
    exact List.filter_sublist.map _
  · intro row member
    obtain ⟨old, found, rfl⟩ := List.mem_map.mp member
    exact of_decide_eq_true (List.mem_filter.mp found).2

theorem wp_override (call : OverrideCall) :
    (override call).wp Overrides
      (fun answer writes => ∃ row ∈ writes, row.batchID = answer.batchID) [] := by
  apply Prog.wp_bind
  apply Prog.wp_query
  intro d current found
  refine ⟨overrides_nil _ _, ?_⟩
  dsimp only
  by_cases overridden : current.overriddenAt.isSome
  · rw [if_pos overridden, Prog.fail_bind]
    trivial
  rw [if_neg overridden]
  by_cases errs : current.result.outcome ≠ .validWithWarnings
  · rw [if_pos errs]
    trivial
  rw [if_neg errs]
  apply Prog.wp_bind
  refine Prog.wp_mono wp_recordOverride ?_
  rintro affected rows ⟨_, rfl, rfl, named⟩
  apply Prog.wp_bind
  apply Prog.wp_ofExcept
  intro _ one
  apply Prog.wp_query
  intro d answer found
  refine ⟨overrides_nil _ _, ?_⟩
  cases rows with
  | nil => cases one
  | cons row rest =>
      refine ⟨row, by simp, ?_⟩
      rw [named row (by simp)]
      unfold getValidationForBatch at found
      split at found
      next row stored =>
        obtain rfl := Except.ok.inj found
        have same : row.batchID = call.batchID := by simpa using List.find?_some stored
        exact same.symm
      next => cases found

theorem posts_overrideValidation (call : OverrideCall) :
    (overrideValidation call).Posts Overrides Published [] [] := by
  apply posts_inTx
  · apply Prog.wp_query
    intro d role _
    refine ⟨overrides_nil _ _, ?_⟩
    dsimp only
    split
    next => trivial
    next =>
      split
      next => trivial
      next =>
        apply posts_inTx
        · exact Prog.wp_mono (wp_override call) fun answer writes published => published
        · intro e
          cases e <;> trivial
  · intro e
    trivial

/-! ## Every run -/

/-- The row a statement overrides has no override in the state the statement sees. -/
def NotYetOverridden (d : Validations) (writes : List ValidationRow) : Prop :=
  ∀ row ∈ writes, ∀ old ∈ d.validations, old.batchID = row.batchID → old.overriddenAt = none

instance (d : Validations) (writes : List ValidationRow) : Decidable (NotYetOverridden d writes) := by
  unfold NotYetOverridden
  infer_instance

/-- No call's update comes after another call's override of the batch has been committed. -/
abbrev StillOpen : OverrideSystem → OverrideEvent → Prop := AtExec NotYetOverridden

/-- What is published is stored and overridden, each batch by one client; what is pending is over
rows without an override. -/
structure WrittenOnce (sent : Sent ValidationRow) (sys : OverrideSystem) : Prop where
  keyed : (sys.committed.validations.map (·.batchID)).Nodup
  overridden : ∀ i, ∀ row ∈ sys.writesOf i, row.overriddenAt.isSome
  apart : ∀ i, ((sys.writesOf i).map (·.batchID)).Nodup
  pending : ∀ i, ∀ row ∈ sys.writesOf i, ∃ old ∈ sys.committed.validations,
    old.batchID = row.batchID ∧ old.overriddenAt = none
  stored : ∀ i, ∀ row ∈ sent i, row ∈ sys.committed.validations ∧ row.overriddenAt.isSome
  once : ∀ i j, i ≠ j → ∀ row ∈ sent i, ∀ other ∈ sent j, row.batchID ≠ other.batchID

variable {sent : Sent ValidationRow} {sys after : OverrideSystem}

theorem mem_held {i : Nat} {row : ValidationRow} (written : row ∈ sys.writesOf i) :
    row.batchID ∈ sys.held i :=
  List.mem_flatMap.mpr ⟨row, written, List.mem_singleton_self _⟩

/-- A committed override and a pending write are of different batches. -/
theorem WrittenOnce.unwritten (held : WrittenOnce sent sys) {i : Nat} {row w : ValidationRow}
    (stored : row ∈ sys.committed.validations) (overridden : row.overriddenAt.isSome)
    (written : w ∈ sys.writesOf i) : w.batchID ≠ row.batchID := by
  intro same
  obtain ⟨old, known, named, free⟩ := held.pending i w written
  rw [List.inj_on_of_nodup_map held.keyed known stored (named.trans same)] at free
  simp [free] at overridden

/-- A committed override stays as it is. -/
theorem WrittenOnce.kept (held : WrittenOnce sent sys) {i : Nat} {row : ValidationRow}
    (stored : row ∈ sys.committed.validations) (overridden : row.overriddenAt.isSome) :
    row ∈ (visible sys.committed (sys.writesOf i)).validations :=
  mem_visible_of_unwritten stored fun _ written => held.unwritten stored overridden written

theorem WrittenOnce.wrote (held : WrittenOnce sent sys) {i : Nat} {writes : List ValidationRow}
    (makes : Overrides (sys.writesOf i) (visible sys.committed (sys.writesOf i)) writes)
    (open_ : NotYetOverridden (visible sys.committed (sys.writesOf i)) writes)
    (committed : after.committed = sys.committed)
    (pending : after.writesOf = Function.update sys.writesOf i (sys.writesOf i ++ writes)) :
    WrittenOnce sent after := by
  obtain ⟨overridden, listed⟩ := makes
  -- A row written is over a committed one, since what is pending is overridden.
  have replaces : ∀ row ∈ writes, ∃ old ∈ sys.committed.validations,
      old.batchID = row.batchID ∧ old.overriddenAt = none := by
    intro row member
    obtain ⟨old, seen, same⟩ := List.mem_map.mp (listed.subset (List.mem_map_of_mem member))
    have free := open_ row member old seen same
    rcases mem_visible_validations seen with stored | written
    · exact ⟨old, stored, same, free⟩
    · have made := held.overridden i old written
      simp [free] at made
  have own : after.writesOf i = sys.writesOf i ++ writes := by rw [pending, Function.update_self]
  have others : ∀ j, j ≠ i → after.writesOf j = sys.writesOf j := by
    intro j different
    rw [pending, Function.update_of_ne different]
  have either : ∀ j, ∀ row ∈ after.writesOf j, row ∈ sys.writesOf j ∨ row ∈ writes := by
    intro j row member
    by_cases same : j = i
    · subst same
      rw [own] at member
      exact List.mem_append.mp member
    · exact .inl (others j same ▸ member)
  refine ⟨committed ▸ held.keyed, ?_, ?_, ?_, ?_, held.once⟩
  · intro j row member
    exact (either j row member).elim (held.overridden j row) (overridden row)
  · intro j
    by_cases same : j = i
    · subst same
      have keyed := held.keyed
      rw [← visible_validation_batches _ (sys.writesOf j)] at keyed
      rw [own]
      refine nodup_ids_append (held.apart j) (keyed.sublist listed) fun row member w written same => ?_
      have made := held.overridden j w written
      obtain ⟨old, stored, named, _⟩ := held.pending j w written
      have seen := mem_visible_of_written written (held.apart j) stored named
      simp [open_ row member w seen same] at made
    · rw [others j same]
      exact held.apart j
  · rw [committed]
    intro j row member
    exact (either j row member).elim (held.pending j row) (replaces row)
  · rw [committed]
    exact held.stored

theorem WrittenOnce.published (held : WrittenOnce sent sys) (exclusive : Exclusive sys) {i : Nat}
    (committed : after.committed = visible sys.committed (sys.writesOf i))
    (pending : after.writesOf = Function.update sys.writesOf i []) :
    WrittenOnce (Function.update sent i (sent i ++ sys.writesOf i)) after := by
  have own : after.writesOf i = [] := by rw [pending, Function.update_self]
  have others : ∀ j, j ≠ i → after.writesOf j = sys.writesOf j := by
    intro j different
    rw [pending, Function.update_of_ne different]
  have fewer : ∀ j, ∀ row ∈ after.writesOf j, j ≠ i ∧ row ∈ sys.writesOf j := by
    intro j row member
    by_cases same : j = i
    · subst same
      simp [own] at member
    · exact ⟨same, others j same ▸ member⟩
  have new : ∀ row ∈ sys.writesOf i, row ∈ after.committed.validations := by
    intro row written
    obtain ⟨old, stored, named, -⟩ := held.pending i row written
    rw [committed]
    exact mem_visible_of_written written (held.apart i) stored named
  have either : ∀ j, ∀ row ∈ Function.update sent i (sent i ++ sys.writesOf i) j,
      row ∈ sent j ∨ j = i ∧ row ∈ sys.writesOf i := by
    intro j row member
    by_cases same : j = i
    · subst same
      rw [Function.update_self] at member
      exact (List.mem_append.mp member).imp_right fun written => ⟨rfl, written⟩
    · rw [Function.update_of_ne same] at member
      exact .inl member
  refine ⟨?_, ?_, ?_, ?_, ?_, ?_⟩
  · rw [committed, visible_validation_batches]
    exact held.keyed
  · intro j row member
    exact held.overridden j row (fewer j row member).2
  · intro j
    by_cases same : j = i
    · rw [same, own]
      exact List.nodup_nil
    · rw [others j same]
      exact held.apart j
  · intro j row member
    obtain ⟨different, written⟩ := fewer j row member
    obtain ⟨old, stored, named, free⟩ := held.pending j row written
    -- The row is locked, so it is not among what is published.
    refine ⟨old, ?_, named, free⟩
    rw [committed]
    refine mem_visible_of_unwritten stored fun w published same => ?_
    have held_ : row.batchID ∈ sys.held i := same.trans named ▸ mem_held published
    exact exclusive i j (Ne.symm different) held_ (mem_held written)
  · intro j row member
    rcases either j row member with before | ⟨-, written⟩
    · obtain ⟨stored, overridden⟩ := held.stored j row before
      exact ⟨committed ▸ held.kept stored overridden, overridden⟩
    · exact ⟨new row written, held.overridden i row written⟩
  · intro j k different row member other member'
    rcases either j row member with before | ⟨rfl, written⟩
    · rcases either k other member' with before' | ⟨rfl, written⟩
      · exact held.once j k different row before other before'
      · obtain ⟨stored, overridden⟩ := held.stored j row before
        exact (held.unwritten stored overridden written).symm
    · rcases either k other member' with before' | ⟨rfl, -⟩
      · obtain ⟨stored, overridden⟩ := held.stored k other before'
        exact held.unwritten stored overridden written
      · exact absurd rfl different

/-- What the run carries, with what each client has published. -/
structure Overriding (sent : Sent ValidationRow) (sys : OverrideSystem) : Prop where
  posting : Posting Overrides Published sent sys
  exclusive : Exclusive sys
  once : WrittenOnce sent sys

theorem overriding_step {event : OverrideEvent} (admitted : StillOpen sys event)
    (step : Step overrideValidation sys event after) (overriding : Overriding sent sys) :
    Overriding (sent.after sys event) after := by
  refine ⟨posting_step posts_overrideValidation step overriding.posting,
    exclusive_step step overriding.exclusive, ?_⟩
  have held := overriding.once
  cases effect_of_step step with
  | wrote emitted free committed pending =>
      have makes := overriding.posting.guaranteed emitted
      exact held.wrote makes (admitted _ emitted) committed pending
  | published committed pending => exact held.published overriding.exclusive committed pending
  | other unpublished committed pending =>
      rw [Sent.after_of_unpublished unpublished]
      have fewer : ∀ j, ∀ row ∈ after.writesOf j, row ∈ sys.writesOf j := by
        intro j row member
        rcases pending j with same | none_
        · exact same ▸ member
        · simp [none_] at member
      refine ⟨committed ▸ held.keyed, ?_, ?_, ?_, committed ▸ held.stored, held.once⟩
      · exact fun j row member => held.overridden j row (fewer j row member)
      · intro j
        rcases pending j with same | none_
        · exact same ▸ held.apart j
        · simp [none_]
      · rw [committed]
        exact fun j row member => held.pending j row (fewer j row member)

theorem overriding_of_logged {d : Validations} (keyed : (d.validations.map (·.batchID)).Nodup)
    (logged : Logged overrideValidation StillOpen d.idle sent sys) : Overriding sent sys := by
  refine logged.invariant ⟨⟨fun _ _ => rfl, ?_⟩, ?_, ?_⟩
    fun _ _ _ _ admitted step overriding => overriding_step admitted step overriding
  · intro i client job found
    simp [Validations.idle] at found
  · intro i j _
    simp [System.held, System.writesOf, Validations.idle]
  · constructor <;> simp [System.writesOf, Validations.idle, keyed]

/-- The call of a client has returned its report. -/
def Succeeded (sys : OverrideSystem) (i : Nat) (report : ValidationReport) : Prop :=
  ∃ client, sys.clients[i]? = some client ∧ client.job = some (.done (.ok report))

theorem Overriding.succeeded (overriding : Overriding sent sys) {i : Nat} {report : ValidationReport}
    (succeeded : Succeeded sys i report) : ∃ row ∈ sent i, row.batchID = report.batchID := by
  obtain ⟨client, found, head⟩ := succeeded
  exact overriding.posting.jobs i client _ found head

theorem override_stays {d : Validations} {later : OverrideSystem}
    (keyed : (d.validations.map (·.batchID)).Nodup)
    (run : Run overrideValidation StillOpen d.idle sys)
    (onward : Run overrideValidation StillOpen sys later) {row : ValidationRow}
    (stored : row ∈ sys.committed.validations) (overridden : row.overriddenAt.isSome) :
    row ∈ later.committed.validations := by
  induction onward with
  | refl => exact stored
  | @step reached after event before admitted fired ih =>
      obtain ⟨sent, logged⟩ := (run.trans before).logged
      have held := (overriding_of_logged keyed logged).once
      cases effect_of_step (step_of_fire fired) with
      | wrote emitted free committed pending => exact committed ▸ ih
      | published committed pending => exact committed ▸ held.kept ih overridden
      | other unpublished committed pending => exact committed ▸ ih

/-- Where no update comes after another override has been committed, at most one call on a batch
succeeds, and an override once committed stays as it is. -/
theorem override_is_written_once {d : Validations} {later : OverrideSystem}
    (keyed : (d.validations.map (·.batchID)).Nodup)
    (run : Run overrideValidation StillOpen d.idle sys)
    (onward : Run overrideValidation StillOpen sys later) :
    (∀ i j report other, Succeeded later i report → Succeeded later j other →
      report.batchID = other.batchID → i = j) ∧
    ∀ row ∈ sys.committed.validations, row.overriddenAt.isSome →
      ∀ row' ∈ later.committed.validations, row'.batchID = row.batchID → row' = row := by
  obtain ⟨sent, logged⟩ := (run.trans onward).logged
  have overriding := overriding_of_logged keyed logged
  constructor
  · intro i j report other first second same
    by_contra different
    obtain ⟨row, published, named⟩ := overriding.succeeded first
    obtain ⟨row', published', named'⟩ := overriding.succeeded second
    exact overriding.once.once i j different row published row' published'
      (named.trans (same.trans named'.symm))
  · intro row stored overridden row' stored' same
    have kept := override_stays keyed run onward stored overridden
    exact List.inj_on_of_nodup_map overriding.once.keyed stored' kept same

/-! ## Two approvers of one batch -/

def warnedBatch : Validations where
  members := [⟨7, .approver⟩, ⟨8, .owner⟩]
  validations := [⟨1, 1, ⟨.validWithWarnings, 1, [], [⟨codeMixedCurrency, none⟩], none⟩,
    none, none, none⟩]

/-- A call up to its read of the row, and from its update on. -/
def readEvents (i : Nat) (call : OverrideCall) : List OverrideEvent :=
  [.spawn call, .jump i, .exec i, .check i, .publish i, .exec i]

def updateEvents (i : Nat) : List OverrideEvent := [.exec i, .exec i, .check i, .publish i]

def firstCall : OverrideCall := ⟨7, 1, "checked by phone", 100⟩

def secondCall : OverrideCall := ⟨8, 1, "agreed with bank", 200⟩

/-- The batches of the calls that have succeeded. -/
def reportedBatches (sys : OverrideSystem) : List UUID :=
  sys.clients.filterMap fun client => match client.job with
    | some (.done (.ok report)) => some report.batchID
    | _ => none

/-- The second call reads the row once the first has committed, and is refused. -/
theorem override_is_written_once_sample :
    ∃ sys later, Run overrideValidation StillOpen warnedBatch.idle sys ∧
      Run overrideValidation StillOpen sys later ∧ reportedBatches sys = [1] ∧
      reportedBatches later = [1] ∧
      (∀ i j report other, Succeeded later i report → Succeeded later j other →
        report.batchID = other.batchID → i = j) ∧
      ∀ row ∈ sys.committed.validations, row.overriddenAt.isSome →
        ∀ row' ∈ later.committed.validations, row'.batchID = row.batchID → row' = row := by
  have evaluated : ((fireAll overrideValidation warnedBatch.idle
      (readEvents 0 firstCall ++ updateEvents 0)).bind fun sys =>
        (fireAll overrideValidation sys (readEvents 1 secondCall ++ [.rollback 1])).map fun later =>
          (reportedBatches sys, reportedBatches later)) = some ([1], [1]) := by decide +kernel
  obtain ⟨sys, fired, evaluated⟩ := Option.bind_eq_some_iff.mp evaluated
  obtain ⟨later, refused, batches⟩ := Option.map_eq_some_iff.mp evaluated
  obtain ⟨first, second⟩ := Prod.mk.inj batches
  have admitted : AdmitsAll overrideValidation StillOpen warnedBatch.idle
      (readEvents 0 firstCall ++ updateEvents 0 ++ (readEvents 1 secondCall ++ [.rollback 1])) := by
    decide +kernel
  have run : Run overrideValidation StillOpen warnedBatch.idle sys :=
    Run.of_fireAll (by decide +kernel) fired
  have onward : Run overrideValidation StillOpen sys later :=
    Run.of_fireAll (admitted.rest fired) refused
  exact ⟨sys, later, run, onward, first, second,
    override_is_written_once (by decide) run onward⟩

/-- Both calls read the row before either updates it: the second update overwrites the first. -/
theorem override_is_overwritten :
    ¬ ∀ sys later, Run overrideValidation (fun _ _ => True) warnedBatch.idle sys →
      Run overrideValidation (fun _ _ => True) sys later →
      (∀ i j report other, Succeeded later i report → Succeeded later j other →
        report.batchID = other.batchID → i = j) ∧
      ∀ row ∈ sys.committed.validations, row.overriddenAt.isSome →
        ∀ row' ∈ later.committed.validations, row'.batchID = row.batchID → row' = row := by
  intro claimed
  have evaluated : ((fireAll overrideValidation warnedBatch.idle
      (readEvents 0 firstCall ++ readEvents 1 secondCall ++ updateEvents 0)).bind fun sys =>
        (fireAll overrideValidation sys (updateEvents 1)).map fun later =>
          decide (∀ row ∈ sys.committed.validations, row.overriddenAt.isSome →
            ∀ row' ∈ later.committed.validations, row'.batchID = row.batchID → row' = row)) =
      some false := by decide +kernel
  obtain ⟨sys, fired, evaluated⟩ := Option.bind_eq_some_iff.mp evaluated
  obtain ⟨later, updated, changed⟩ := Option.map_eq_some_iff.mp evaluated
  have run := Run.of_fireAll (admitsAll fun _ _ => trivial) fired
  have onward := Run.of_fireAll (admitsAll fun _ _ => trivial) updated
  exact of_decide_eq_false changed (claimed sys later run onward).2

end Vekst.Ingest
