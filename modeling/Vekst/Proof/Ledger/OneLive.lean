import Vekst.Isolation.Solo
import Vekst.Proof.Jobs

namespace Vekst
open Isolation Ledger

def OneLive (d : Database) : Prop := ∀ txnID, (d.liveOf txnID).length ≤ 1

theorem OneLive.unique {d : Database} (sound : OneLive d) {txnID : UUID} {c e : ClassificationRow}
    (first : c ∈ d.liveOf txnID) (second : e ∈ d.liveOf txnID) : c = e := by
  have few := sound txnID
  cases listed : d.liveOf txnID with
  | nil =>
      rw [listed] at first
      cases first
  | cons a rest =>
      rw [listed] at first second few
      obtain rfl : rest = [] := List.length_eq_zero_iff.mp (by simpa using few)
      rw [List.mem_singleton.mp first, List.mem_singleton.mp second]

/-- The transactions whose one-live check the writes queue. -/
def fired (writes : List Write) : List UUID := writes.filterMap Write.oneLiveFires

/-- No transaction that has passed its check and not committed yet is checked on the same
transaction of the ledger as the one that commits. -/
def ApartAtCommit : System → Nat → Prop := fun sys i =>
  ∀ other ∈ sys.others i, other.checked = true →
    ∀ txnID ∈ fired (sys.writesOf i), txnID ∉ fired other.writes

instance (sys : System) (i : Nat) : Decidable (ApartAtCommit sys i) := by
  unfold ApartAtCommit
  infer_instance

/-! ## What a write does to the live classifications of a transaction -/

/-- A new version of a classification is never live. -/
def Retiring (writes : List Write) : Prop :=
  ∀ row, .updateClassification row ∈ writes → row.live = false

theorem liveOf_insert (d : Database) (row : ClassificationRow) (txnID : UUID) :
    (d.apply (.insertClassification row)).liveOf txnID =
      d.liveOf txnID ++ [row].filter fun c => c.transactionID = txnID && c.live :=
  List.filter_append _ _

theorem liveOf_update (d : Database) {row : ClassificationRow} (retired : row.live = false)
    (txnID : UUID) :
    (d.apply (.updateClassification row)).liveOf txnID =
      (d.liveOf txnID).filter fun c => c.id ≠ row.id := by
  simp only [Database.liveOf, Database.apply, replaceBy]
  induction d.classifications with
  | nil => rfl
  | cons c rest ih =>
      rw [List.map_cons, List.filter_cons, List.filter_cons, ih]
      by_cases same : c.id = row.id
      · cases kept : (decide (c.transactionID = txnID) && c.live) <;> simp [same, retired]
      · cases kept : (decide (c.transactionID = txnID) && c.live) <;> simp [same, kept]

theorem liveOf_apply_mono {d d' : Database} {w : Write} {txnID : UUID} (retiring : Retiring [w])
    (fewer : (d.liveOf txnID).Sublist (d'.liveOf txnID)) :
    ((d.apply w).liveOf txnID).Sublist ((d'.apply w).liveOf txnID) := by
  cases w with
  | insertClassification row =>
      rw [liveOf_insert, liveOf_insert]
      exact fewer.append (List.Sublist.refl _)
  | updateClassification row =>
      have retired := retiring row (by simp)
      rw [liveOf_update d retired, liveOf_update d' retired]
      exact fewer.filter _
  | _ => exact fewer

/-- Where no check is queued, the live classifications only become fewer. -/
theorem liveOf_apply_unfired {d : Database} {w : Write} {txnID : UUID} (retiring : Retiring [w])
    (unfired : txnID ∉ fired [w]) : ((d.apply w).liveOf txnID).Sublist (d.liveOf txnID) := by
  cases w with
  | insertClassification row =>
      have other : row.transactionID ≠ txnID := by
        intro same
        exact unfired (by simp [fired, Write.oneLiveFires, same])
      rw [liveOf_insert]
      simp [other]
  | updateClassification row =>
      rw [liveOf_update d (retiring row (by simp))]
      exact List.filter_sublist
  | _ => exact List.Sublist.refl _

theorem Retiring.head {w : Write} {writes : List Write} (retiring : Retiring (w :: writes)) :
    Retiring [w] := fun row member =>
  retiring row (List.mem_cons.mpr (.inl (List.mem_singleton.mp member)))

theorem Retiring.tail {w : Write} {writes : List Write} (retiring : Retiring (w :: writes)) :
    Retiring writes := fun row member => retiring row (List.mem_cons_of_mem w member)

theorem liveOf_visible_mono {d d' : Database} {writes : List Write} {txnID : UUID}
    (retiring : Retiring writes) (fewer : (d.liveOf txnID).Sublist (d'.liveOf txnID)) :
    ((visible d writes).liveOf txnID).Sublist ((visible d' writes).liveOf txnID) := by
  induction writes generalizing d d' with
  | nil => exact fewer
  | cons w writes ih => exact ih retiring.tail (liveOf_apply_mono retiring.head fewer)

theorem liveOf_visible_unfired {d : Database} {writes : List Write} {txnID : UUID}
    (retiring : Retiring writes) (unfired : txnID ∉ fired writes) :
    ((visible d writes).liveOf txnID).Sublist (d.liveOf txnID) := by
  induction writes generalizing d with
  | nil => exact List.Sublist.refl _
  | cons w writes ih =>
      rw [show w :: writes = [w] ++ writes from rfl, fired, List.filterMap_append,
        List.mem_append, not_or] at unfired
      exact (ih retiring.tail unfired.2).trans (liveOf_apply_unfired retiring.head unfired.1)

theorem retiring_append {pending writes : List Write} (earlier : Retiring pending)
    (later : Retiring writes) : Retiring (pending ++ writes) := by
  intro row member
  rcases List.mem_append.mp member with old | new
  · exact earlier row old
  · exact later row new

theorem retiring_of_ordinary {d : Database} {writes : List Write} (ordinary : Ordinary d writes) :
    Retiring writes := by
  intro row member
  have once := ordinary _ member
  cases superseded : row.supersededBy <;> cases retracted : row.retractedAt <;>
    simp_all [ClassificationRow.live]

theorem retiring_of_lawful {currencies : String → Prop} {sha256 : String → String}
    {pending writes : List Write} {d : Database}
    (lawful : Lawful currencies sha256 pending d writes) : Retiring writes := by
  rcases lawful with ordinary | ⟨stored, rfl, -⟩
  · exact retiring_of_ordinary ordinary
  · intro row member
    simp at member

/-- The writes of a transaction whose statements are ordinary. -/
theorem retiring_of_attempt {α : Type} {p : Tx α} {d : Database} {a : α} {writes : List Write}
    (emits : p.Emits Ordinary) (did : p.attempt d [] = .ok (a, writes)) : Retiring writes :=
  Prog.attempt_emits emits (fun _ member => absurd member List.not_mem_nil)
    (fun _ _ held ordinary => retiring_append held (retiring_of_ordinary ordinary)) did

/-! ## Every run -/

theorem passes_of_check {d : Database} {pending : List Write}
    (holds : Store.check d pending = .ok ()) : ∀ txnID ∈ fired pending, (d.liveOf txnID).length ≤ 1 := by
  simp only [Store.check, oneLivePerTransaction] at holds
  split at holds
  next all =>
    intro txnID member
    simpa using List.all_eq_true.mp all txnID member
  next => cases holds

/-- What the commit checks is enough where the other transactions of the ledger were sound. -/
theorem oneLive_visible {d : Database} {pending : List Write} (sound : OneLive d)
    (retiring : Retiring pending)
    (passes : ∀ txnID ∈ fired pending, ((visible d pending).liveOf txnID).length ≤ 1) :
    OneLive (visible d pending) := by
  intro txnID
  by_cases queued : txnID ∈ fired pending
  · exact passes txnID queued
  · exact (liveOf_visible_unfired retiring queued).length_le.trans (sound txnID)

/-- What the check has established holds until the commit. -/
structure Guarded (d : Database) (pending : List Write) (checked : Bool) : Prop where
  retiring : Retiring pending
  passes : checked = true → ∀ txnID ∈ fired pending,
    ((visible d pending).liveOf txnID).length ≤ 1

theorem oneLive_carries (site : Site) :
    Carries (rules site fun _ => True) (AtPublish ApartAtCommit : System → Event → Prop)
      OneLive Guarded where
  opened d _ := ⟨fun _ member => by simp at member, fun checked => nomatch checked⟩
  written d pending writes _ guarded lawful :=
    ⟨retiring_append guarded.retiring (retiring_of_lawful lawful), fun checked => nomatch checked⟩
  passed d pending _ guarded holds := ⟨guarded.retiring, fun _ => passes_of_check holds⟩
  published sys i client _ _ sound guarded :=
    oneLive_visible sound guarded.retiring (guarded.passes rfl)
  unmoved sys i client other apart found aside _ guarded held := by
    refine ⟨held.retiring, fun checked txnID member => ?_⟩
    have unfired : txnID ∉ fired client.writes := by
      intro queued
      rw [← System.writesOf_eq found] at queued
      exact apart other aside checked txnID queued member
    have fewer : ((visible sys.committed client.writes).liveOf txnID).Sublist
        (sys.committed.liveOf txnID) := liveOf_visible_unfired guarded.retiring unfired
    exact (liveOf_visible_mono held.retiring fewer).length_le.trans (held.passes checked txnID member)

/-- Among transactions whose checks and commits on one transaction of the ledger do not overlap,
at most one of its classifications is ever live. -/
theorem at_most_one_live_classification {site : Site} {d : Database} {sys : System}
    (initially : OneLive d)
    (run : Run (body site) (AtPublish ApartAtCommit) (System.idle d) sys) :
    OneLive sys.committed :=
  (Run.carries (oneLive_carries site) (fun label _ => body_keeps label)
    (fun _ event _ => rules_admit event) run rfl initially).1

/-! ## Overlapping commits -/

/-- One imported payment, waiting for its classification. -/
def sampleLedger : Database :=
  { Database.empty "BYN" with
    members := [⟨7, .approver⟩]
    batches := [⟨1, 1, .bank, .imported, some "file", none⟩]
    transactions := [sampleTransaction 1 .bank (sampleDay 15) 120000]
    categories := [sampleCategory 1 "0101" "01"] }

theorem oneLive_sampleLedger : OneLive sampleLedger := by
  intro txnID
  simp [sampleLedger, Database.liveOf, Database.empty]

/-- A classification run of the batch up to the check of its first chunk, one proposal long. -/
def chunkEvents (i : Nat) (txnID : UUID) (code : String) : List Event := [
  .spawn (.classifyBatch 1 (sampleDraws (100 * (i + 1)))), .jump i,
  .exec i, .check i, .publish i,
  .exec i, .exec i, .exec i, .check i, .publish i,
  .jump i, .exec i, .check i, .publish i,
  .answer i (.proposals ⟨"1", "1", [⟨txnID.text, code, "L1", 1, ""⟩]⟩),
  .exec i, .exec i]

/-- A resolution of the same group up to its check. -/
def resolveEvents : List Event := [
  .spawn (.resolve 7 1 "" Review.outcomeCategorised "0101" (sampleDraws 200)), .jump 1,
  .exec 1, .check 1, .publish 1,
  .exec 1, .exec 1, .exec 1, .exec 1, .exec 1, .exec 1]

theorem at_most_one_live_classification_sample :
    ∃ sys, Run (body sampleSite) (AtPublish ApartAtCommit) (System.idle sampleLedger) sys ∧
      (sys.committed.liveOf 1).length = 1 ∧ OneLive sys.committed := by
  have evaluated : (fireAll (body sampleSite) (System.idle sampleLedger)
      (chunkEvents 0 1 "0101" ++ resolveEvents ++ [.check 0, .publish 0, .check 1])).map
      (fun sys => (sys.committed.liveOf 1).length) = some 1 := by decide +kernel
  obtain ⟨sys, fired, live⟩ := Option.map_eq_some_iff.mp evaluated
  have run : Run (body sampleSite) (AtPublish ApartAtCommit) (System.idle sampleLedger) sys :=
    Run.of_fireAll (by decide +kernel) fired
  exact ⟨sys, run, live, at_most_one_live_classification oneLive_sampleLedger run⟩

/-- A chunk and a resolution that are both checked before either commits. -/
theorem two_live_classifications :
    ¬ ∀ sys, Run (body sampleSite) (fun _ _ => True) (System.idle sampleLedger) sys →
      OneLive sys.committed := by
  intro claimed
  have evaluated : (fireAll (body sampleSite) (System.idle sampleLedger)
      (chunkEvents 0 1 "0101" ++ resolveEvents ++ [.check 0, .check 1, .publish 0, .publish 1])).map
      (fun sys => (sys.committed.liveOf 1).length) = some 2 := by decide +kernel
  obtain ⟨sys, fired, live⟩ := Option.map_eq_some_iff.mp evaluated
  have few := claimed sys (Run.of_fireAll (admitsAll fun _ _ => trivial) fired) 1
  omega

end Vekst
