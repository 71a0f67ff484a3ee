import Vekst.Proof.Review.Alike
import Vekst.Proof.Review.Decisions

namespace Vekst.Review
open Isolation Ledger

/-! ## What resolutions and undos leave of a database -/

def Reviews : Label → Prop
  | .resolve _ _ _ _ _ _ | .undo _ _ _ => True
  | _ => False

/-- Resolutions and undos one at a time, whatever fails in them, and the states left before the
last. -/
inductive Reviewing (site : Site) (d : Database) : Database → List Database → Prop
  | start : Reviewing site d d []
  | call {e last : Database} {passed : List Database} {label : Label}
      {around : Surroundings Failure Question Reply} {asked : List Question} {result : Option Outcome}
      (run : Reviewing site d e passed) (reviews : Reviews label)
      (did : Solo (body site) around (body site label) e [] asked result last) :
      Reviewing site d last (e :: passed)

/-- The decisions that stand are the same. -/
def SameDecisions (d e : Database) : Prop :=
  ∀ x, x ∈ e.decisions ∧ x.undoneAt = none ↔ x ∈ d.decisions ∧ x.undoneAt = none

/-- No decision of the first has been undone since. -/
def Standing (d e : Database) : Prop := ∀ x ∈ d.decisions, x.undoneAt = none → x ∈ e.decisions

/-- A decision that stands and was not made before. -/
def Fresh (d e : Database) (x : ReviewDecisionRow) : Prop :=
  x ∈ e.decisions ∧ x.undoneAt = none ∧ x ∉ d.decisions

/-- Everything there is still there, beside what the fresh decisions answer for. -/
structure Grown (wrote : UUID → UUID → Prop) (d e : Database) : Prop where
  classifications : ∃ added, e.classifications = d.classifications ++ added ∧
    ∀ c ∈ added, c.live = true → ∃ x, Fresh d e x ∧ wrote x.id c.id
  vendors : ∃ added, e.vendors = d.vendors ++ added ∧
    ∀ v ∈ added, ∃ x, Fresh d e x ∧ x.counterpartyKey = v.key

/-- What a state reached by resolutions and undos keeps of the first. -/
structure Since (wrote : UUID → UUID → Prop) (d e : Database) : Prop where
  frame : Framed d e
  decided : ∀ x ∈ d.decisions, ∃ y ∈ e.decisions, y.id = x.id
  stored : ∀ c ∈ d.classifications, ∃ c' ∈ e.classifications, c'.id = c.id
  /-- A decision that stands under an old identifier is the old one. -/
  own : ∀ x ∈ e.decisions, x.undoneAt = none → (∃ y ∈ d.decisions, y.id = x.id) → x ∈ d.decisions
  /-- An old classification was written by an old decision. -/
  written : ∀ x c, wrote x c → (∃ c' ∈ d.classifications, c'.id = c) → ∃ y ∈ d.decisions, y.id = x
  grown : Standing d e → Grown wrote d e

section Steps

variable {wrote : UUID → UUID → Prop} {d e last : Database} {x : ReviewDecisionRow}
  {rows : List ClassificationRow} {vendors : List VendorRow}

theorem since_refl (kept : Kept wrote d) : Since wrote d d where
  frame := ⟨d.classifications, d.decisions, d.vendors, rfl⟩
  decided x known := ⟨x, known, rfl⟩
  stored c known := ⟨c, known, rfl⟩
  own _ known _ _ := known
  written x c wrote_ _ := (kept.known x c wrote_).1
  grown _ := ⟨⟨[], by simp, by simp⟩, [], by simp, by simp⟩

/-! ## A resolution -/

theorem Since.unknown (since : Since wrote d e) (settles : Settles e x rows vendors) :
    ∀ y ∈ d.decisions, y.id ≠ x.id := by
  intro y known same
  obtain ⟨z, stored, other⟩ := since.decided y known
  exact settles.new z stored (other.trans same)

theorem Since.settled (since : Since wrote d e) (kept : Kept wrote e)
    (settles : Settles e x rows vendors) :
    Since (fun y c => WroteIn e (settledBy e x rows vendors) y c ∨ wrote y c) d
      (settledBy e x rows vendors) where
  frame := by
    obtain ⟨_, _, _, rfl⟩ := since.frame
    exact ⟨_, _, _, rfl⟩
  decided y known := by
    obtain ⟨z, stored, same⟩ := since.decided y known
    exact ⟨z, List.mem_append_left _ stored, same⟩
  stored c known := by
    obtain ⟨c', stored, same⟩ := since.stored c known
    exact ⟨c', List.mem_append_left _ stored, same⟩
  own y member live old := by
    rcases List.mem_append.mp member with before | added
    · exact since.own y before live old
    · obtain rfl := List.mem_singleton.mp added
      obtain ⟨z, known, same⟩ := old
      exact absurd same (since.unknown settles z known)
  written y c wrote_ old := by
    rcases wrote_ with now | before
    · obtain ⟨c', known, rfl⟩ := old
      obtain ⟨c'', stored, same⟩ := since.stored c' known
      exact absurd same (now.classificationNew c'' stored)
    · exact since.written y c before old
  grown standing := by
    have fresh : Fresh d (settledBy e x rows vendors) x :=
      ⟨List.mem_append_right _ (by simp), settles.live, fun known => since.unknown settles x known rfl⟩
    have still : ∀ y, Fresh d e y → Fresh d (settledBy e x rows vendors) y :=
      fun y old => ⟨List.mem_append_left _ old.1, old.2⟩
    have before : Standing d e := by
      intro y known live
      rcases List.mem_append.mp (standing y known live) with old | added
      · exact old
      · rw [List.mem_singleton.mp added] at known
        exact absurd known fresh.2.2
    obtain ⟨⟨added, classified, answers⟩, memory, remembered, names⟩ := since.grown before
    constructor
    · refine ⟨added ++ rows, ?_, fun c member live => ?_⟩
      · show e.classifications ++ rows = _
        rw [classified, List.append_assoc]
      · rcases List.mem_append.mp member with old | new
        · obtain ⟨y, made, wrote_⟩ := answers c old live
          exact ⟨y, still y made, .inr wrote_⟩
        · exact ⟨x, fresh, .inl (settles.wroteIn new)⟩
    · rcases settles.vendors with ⟨-, v, keyed, -, -, made⟩ | ⟨-, same⟩
      · -- Nothing of the key is remembered, so that nothing is replaced.
        have kept_ : e.vendors.filter (fun old => !(old.keyVersion = normalizeVersion &&
            old.key = x.counterpartyKey)) = e.vendors := by
          rw [List.filter_eq_self]
          intro old member
          simp [settles.forgotten kept member]
        refine ⟨memory ++ [v], ?_, fun w member => ?_⟩
        · show vendors = _
          rw [made, kept_, remembered, List.append_assoc]
        · rcases List.mem_append.mp member with old | new
          · obtain ⟨y, made, key⟩ := names w old
            exact ⟨y, still y made, key⟩
          · rw [List.mem_singleton.mp new]
            exact ⟨x, fresh, keyed.symm⟩
      · refine ⟨memory, same.trans remembered, fun w member => ?_⟩
        obtain ⟨y, made, key⟩ := names w member
        exact ⟨y, still y made, key⟩

/-! ## An undo -/

variable {now : Timestamp} {userID decisionID : UUID}

theorem vendors_undone (kept : Kept wrote e) (undone : Undone e now userID decisionID x last) :
    last.vendors = e.vendors.filter (·.key ≠ x.counterpartyKey) := by
  have left : last.vendors = forgottenVendors x e.vendors := by rw [undone.left]
  rw [left, forgottenVendors]
  split
  next =>
    apply List.filter_congr
    intro v known
    simp [kept.current v known, kept.versioned x undone.known]
  next other =>
    symm
    rw [List.filter_eq_self]
    intro v known
    have kept_ : v ∈ last.vendors := by
      rw [left, forgottenVendors, if_neg other]
      exact known
    simpa using ((mem_undone_vendors kept undone).mp kept_).2

theorem Since.undone (since : Since wrote d e) (kept : Kept wrote e) (sound : OneLive e)
    (remembers : ∀ v ∈ d.vendors, ∃ y ∈ d.decisions, LiveFor v.key y)
    (undone : Undone e now userID decisionID x last) : Since wrote d last where
  frame := by
    obtain ⟨_, _, _, rfl⟩ := since.frame
    exact ⟨_, _, _, undone.left⟩
  decided y known := (exists_id (undone_ids undone).1).mpr (since.decided y known)
  stored c known := (exists_id (undone_ids undone).2).mpr (since.stored c known)
  own y member live old :=
    since.own y ((mem_undone_decisions kept undone).mp ⟨member, live⟩).1 live old
  written := since.written
  grown standing := by
    have before : Standing d e := fun y known live =>
      ((mem_undone_decisions kept undone).mp ⟨standing y known live, live⟩).1
    have other : ∀ y ∈ d.decisions, y.undoneAt = none → y ≠ x := fun y known live =>
      ((mem_undone_decisions kept undone).mp ⟨standing y known live, live⟩).2.2
    have unknown : x ∉ d.decisions := fun known => other x known undone.live rfl
    have still : ∀ y, Fresh d e y → y ≠ x → Fresh d last y := fun y fresh apart =>
      ⟨((mem_undone_decisions kept undone).mpr ⟨fresh.1, fresh.2.1, apart⟩).1, fresh.2⟩
    have retracts := (retracts_of_undone kept sound undone).exactly
    obtain ⟨⟨added, classified, answers⟩, memory, remembered, names⟩ := since.grown before
    have table : last.classifications = e.classifications.map
        (retractOf now userID (undoneIDs e x.counterpartyKey)) := by
      rw [undone.left]
    rw [table, List.forall₂_map_right_iff, List.forall₂_same] at retracts
    constructor
    · refine ⟨added.map (retractOf now userID (undoneIDs e x.counterpartyKey)), ?_, ?_⟩
      · have old : d.classifications.map (retractOf now userID (undoneIDs e x.counterpartyKey)) =
            d.classifications.map id := List.map_congr_left fun c known => by
          refine (retracts c ?_).2 fun wrote_ => unknown ?_
          · rw [classified]
            exact List.mem_append_left _ known
          · exact since.own x undone.known undone.live (since.written _ _ wrote_ ⟨c, known, rfl⟩)
        rw [table, classified, List.map_append, old, List.map_id]
      · intro c' member live
        obtain ⟨c, known, rfl⟩ := List.mem_map.mp member
        have here : c ∈ e.classifications := by
          rw [classified]
          exact List.mem_append_right _ known
        obtain ⟨y, fresh, wrote_⟩ := answers c known ((retractOf_live c).mp live).1
        refine ⟨y, still y fresh ?_, ?_⟩
        · rintro rfl
          rw [((retracts c here).1 wrote_).2] at live
          simp [stampRetracted, ClassificationRow.live] at live
        · rw [retractOf_id]
          exact wrote_
    · refine ⟨memory.filter (·.key ≠ x.counterpartyKey), ?_, fun v member => ?_⟩
      · have old : d.vendors.filter (·.key ≠ x.counterpartyKey) = d.vendors := by
          rw [List.filter_eq_self]
          intro v known
          obtain ⟨y, made, live⟩ := remembers v known
          rw [decide_eq_true_eq]
          intro same
          refine other y made live.2 ?_
          exact kept.once y (before y made live.2) x undone.known v.key live ⟨same.symm, undone.live⟩
        rw [vendors_undone kept undone, remembered, List.filter_append, old]
      · obtain ⟨known, apart⟩ := List.mem_filter.mp member
        obtain ⟨y, fresh, key⟩ := names v known
        rw [decide_eq_true_eq] at apart
        refine ⟨y, still y fresh ?_, key⟩
        rintro rfl
        exact apart key.symm

end Steps

/-! ## A run of them -/

section Runs

variable {site : Site} {start d e last : Database} {earlier passed : List Database}

theorem Reviewing.sequential (run : Sequential site start d earlier)
    (reviews : Reviewing site d e passed) : Sequential site start e (passed ++ earlier) := by
  induction reviews with
  | start => exact run
  | @call e last passed label around asked result _ reviews did ih =>
      refine .call ih ?_ did
      cases label with
      | resolve => trivial
      | undo => trivial
      | _ => exact absurd reviews id

theorem Since.unchanged (since : Since (Wrote (e :: passed)) d e) (left : last = e) :
    Since (Wrote (last :: e :: passed)) d last := by
  subst left
  rw [wrote_eq fun _ known => known]
  exact since

theorem Reviewing.since (unused : Unused start) (run : Sequential site start d earlier)
    (reviews : Reviewing site d e passed) : Since (Wrote (e :: (passed ++ earlier))) d e := by
  obtain ⟨keptFirst, -⟩ := sequential_keeps unused run
  have remembers : ∀ v ∈ d.vendors, ∃ y ∈ d.decisions, LiveFor v.key y := by
    intro v known
    obtain ⟨y, made, live, -⟩ := (keptFirst.remembered v.key).mp ⟨v, known, rfl⟩
    exact ⟨y, made, live⟩
  induction reviews with
  | start => exact since_refl keptFirst
  | @call e last passed label around asked result reviewed reviews did ih =>
      obtain ⟨kept, sound⟩ := sequential_keeps unused (reviewed.sequential run)
      cases label with
      | resolve userID entityID key outcome categoryCode draws =>
          rcases solo_resolve did with ⟨-, -, returned⟩ | ⟨left, -⟩
          · cases returned with
            | unchanged left _ => exact ih.unchanged left
            | committed ran holds left _ =>
                obtain ⟨rows, vendors, settles, after⟩ :=
                  settles_of_resolveRows kept (Prog.run_of_attempt ran)
                rw [left, after]
                exact ih.settled kept settles
          · exact ih.unchanged left
      | undo userID decisionID draws =>
          rcases solo_undo did with ⟨-, returned⟩ | ⟨left, -⟩
          · cases returned with
            | unchanged left _ => exact ih.unchanged left
            | committed ran holds left _ =>
                obtain ⟨x, undone⟩ := (run_undoDecision_ok kept.classifications kept.decisions).mp
                  ⟨_, Prog.run_of_attempt ran⟩
                rw [← left] at undone
                rw [List.cons_append, wrote_eq fun _ => (exists_id (undone_ids undone).1).mp]
                exact ih.undone kept sound remembers undone
          · exact ih.unchanged left
      | _ => exact absurd reviews id

/-- Where the same decisions stand, every read answers the same. -/
theorem Since.readsAlike {wrote : UUID → UUID → Prop} (since : Since wrote d e)
    (same : SameDecisions d e) : ReadsAlike d e := by
  have standing : Standing d e := fun x known live => ((same x).mpr ⟨known, live⟩).1
  have nothing : ∀ x, ¬ Fresh d e x := fun x fresh =>
    fresh.2.2 ((same x).mp ⟨fresh.1, fresh.2.1⟩).1
  obtain ⟨⟨added, classified, answers⟩, memory, remembered, names⟩ := since.grown standing
  have forgotten : memory = [] := by
    rw [List.eq_nil_iff_forall_not_mem]
    intro v member
    obtain ⟨x, fresh, -⟩ := names v member
    exact nothing x fresh
  have dead : added.filter (·.live) = [] := by
    rw [List.filter_eq_nil_iff]
    intro c member live
    obtain ⟨x, fresh, -⟩ := answers c member live
    exact nothing x fresh
  refine Alike.readsAlike ⟨?_, ?_⟩
  · rw [forgotten, List.append_nil] at remembered
    obtain ⟨classifications, decisions, vendors, rfl⟩ := since.frame
    obtain rfl : vendors = d.vendors := remembered
    rfl
  · rw [classified, List.filter_append, dead, List.append_nil]

/-! ## Undoing what was decided since -/

/-- Undos of one reviewer that all go through. -/
inductive Undoing (site : Site) (userID : UUID) : Database → List UUID → Database → Prop
  | nil {d : Database} : Undoing site userID d [] d
  | cons {d mid last : Database} {decisionID : UUID} {decisionIDs : List UUID} {draws : Draws}
      (did : Solo (body site) .calm (body site (.undo userID decisionID draws)) d [] []
        (some (.ok .done)) mid)
      (rest : Undoing site userID mid decisionIDs last) :
      Undoing site userID d (decisionID :: decisionIDs) last

/-- The identifiers of the decisions made since, each once and in any order. -/
structure Lists (d e : Database) (decisionIDs : List UUID) : Prop where
  once : decisionIDs.Nodup
  exactly : ∀ decisionID, decisionID ∈ decisionIDs ↔ ∃ x, Fresh d e x ∧ x.id = decisionID

section Undoing

variable {wrote : UUID → UUID → Prop} {userID decisionID : UUID} {decisionIDs : List UUID}
  {x : ReviewDecisionRow}

/-- Undoing a decision that stands leaves the others that do. -/
theorem undo_one (draws : Draws) (kept : Kept wrote e) (allowed : MayResolve e userID)
    (known : x ∈ e.decisions) (live : x.undoneAt = none) :
    ∃ last, Solo (body site) .calm (body site (.undo userID x.id draws)) e [] []
      (some (.ok .done)) last ∧ ∀ y, y ∈ last.decisions ∧ y.undoneAt = none ↔
        y ∈ e.decisions ∧ y.undoneAt = none ∧ y ≠ x := by
  obtain ⟨last, did⟩ := @undo_succeeds site e wrote draws userID x kept allowed known live
  refine ⟨last, did, fun y => ?_⟩
  have unsuccessful : ¬ Unsuccessful (some (.ok .done)) := by
    rintro (same | ⟨e, same⟩) <;> cases same
  rcases solo_undo did with ⟨-, returned⟩ | ⟨-, failed⟩
  · cases returned with
    | unchanged _ failed => exact absurd failed unsuccessful
    | committed ran _ left _ =>
        obtain ⟨z, undone⟩ := (run_undoDecision_ok kept.classifications kept.decisions).mp
          ⟨_, Prog.run_of_attempt ran⟩
        rw [← left] at undone
        obtain rfl := List.inj_on_of_nodup_map kept.decisions undone.known known undone.named
        exact mem_undone_decisions kept undone
  · exact absurd failed unsuccessful

theorem Lists.tail {last : Database} (lists : Lists d e (x.id :: decisionIDs)) (kept : Kept wrote e)
    (known : x ∈ e.decisions) (left : ∀ y, y ∈ last.decisions ∧ y.undoneAt = none ↔
      y ∈ e.decisions ∧ y.undoneAt = none ∧ y ≠ x) : Lists d last decisionIDs where
  once := (List.nodup_cons.mp lists.once).2
  exactly other := by
    constructor
    · intro member
      obtain ⟨y, ⟨made, live, new⟩, rfl⟩ :=
        (lists.exactly other).mp (List.mem_cons_of_mem _ member)
      have apart : y ≠ x := by
        rintro rfl
        exact (List.nodup_cons.mp lists.once).1 member
      obtain ⟨made', live'⟩ := (left y).mpr ⟨made, live, apart⟩
      exact ⟨y, ⟨made', live', new⟩, rfl⟩
    · rintro ⟨y, ⟨made, live, new⟩, rfl⟩
      obtain ⟨made', live', apart⟩ := (left y).mp ⟨made, live⟩
      have listed := (lists.exactly y.id).mpr ⟨y, ⟨made', live', new⟩, rfl⟩
      refine (List.mem_cons.mp listed).resolve_left fun same => apart ?_
      exact List.inj_on_of_nodup_map kept.decisions made' known same

/-- A reviewer takes back what was decided since, in whatever order. -/
theorem undoing_fresh (unused : Unused start) (run : Sequential site start d earlier)
    (allowed : MayResolve d userID) (reviews : Reviewing site d e passed) (standing : Standing d e)
    (lists : Lists d e decisionIDs) :
    ∃ last, Undoing site userID e decisionIDs last ∧ ReadsAlike d last := by
  induction decisionIDs generalizing e passed with
  | nil =>
      refine ⟨e, .nil, (reviews.since unused run).readsAlike fun x => ⟨fun stands => ?_, fun stood => ?_⟩⟩
      · refine ⟨?_, stands.2⟩
        by_contra new
        exact List.not_mem_nil ((lists.exactly x.id).mpr ⟨x, ⟨stands.1, stands.2, new⟩, rfl⟩)
      · exact ⟨standing x stood.1 stood.2, stood.2⟩
  | cons decisionID decisionIDs ih =>
      obtain ⟨x, ⟨known, live, new⟩, rfl⟩ := (lists.exactly decisionID).mp List.mem_cons_self
      obtain ⟨kept, -⟩ := sequential_keeps unused (reviews.sequential run)
      have still : MayResolve e userID := by
        obtain ⟨_, _, _, rfl⟩ := (reviews.since unused run).frame
        exact allowed
      obtain ⟨mid, did, left⟩ := undo_one (sampleDraws 0) kept still known live
      have standing' : Standing d mid := fun y stood live =>
        ((left y).mpr ⟨standing y stood live, live, fun same => new (same ▸ stood)⟩).1
      have undone : Reviewing site d mid (e :: passed) := by
        refine .call reviews ?_ did
        trivial
      obtain ⟨last, undoing, alike⟩ := ih undone standing' (lists.tail kept known left)
      exact ⟨last, .cons did undoing, alike⟩

end Undoing

/-- Whatever resolutions and undos follow a state of a sequential run: where the decisions that stand
are those that stood, the report, its cells, the queue and the engine's request answer as they did;
and while none of those is undone, undoing the others in any order leads there. -/
theorem reviews_taken_back (unused : Unused start) (run : Sequential site start d earlier)
    (reviews : Reviewing site d e passed) :
    (SameDecisions d e → ReadsAlike d e) ∧
      ∀ userID decisionIDs, MayResolve d userID → Standing d e → Lists d e decisionIDs →
        ∃ last, Undoing site userID e decisionIDs last ∧ ReadsAlike d last :=
  ⟨(reviews.since unused run).readsAlike, fun _ _ allowed standing lists =>
    undoing_fresh unused run allowed reviews standing lists⟩

end Runs

/-! ## A payment settled and taken back -/

def staffedLedger : Database :=
  { emptyLedger with
    members := [⟨7, .approver⟩]
    categories := [sampleCategory 1 "0101" "01"] }

abbrev sampleResolution : Tx ReviewDecisionRow :=
  resolveRows sampleSite (sampleDraws 200) 7 1 "buyer" outcomeCategorised "0101"

/-- The row imported, and what the approver's resolution would write then. -/
theorem solo_staffedImport : ∃ d x writes,
    Solo (body sampleSite) .calm (body sampleSite firstImport) staffedLedger [] [.object 1]
      (some (.ok .done)) d ∧
    sampleResolution.attempt d [] = .ok (x, writes) ∧
    Store.check (visible d writes) writes = .ok () ∧
    d.members = [⟨7, .approver⟩] ∧ d.decisions = [] ∧ (waiting d 1).length = 1 ∧
    waiting (visible d writes) 1 = [] ∧ (visible d writes).decisions = [x] ∧ x.undoneAt = none := by
  let batch : ImportBatchRow := ⟨1, 1, .bank, .validated, some "file", none⟩
  have evaluated : (do
      let (_, stored) ← ((Ingest.persistRows sampleSite (sampleDraws 100) batch
        sampleStatement).attempt staffedLedger []).toOption
      let d := visible staffedLedger stored
      let (x, writes) ← (sampleResolution.attempt d []).toOption
      return decide (Store.check d stored = .ok ()) &&
        decide (Store.check (visible d writes) writes = .ok ()) &&
        decide (d.members = [⟨7, .approver⟩]) && decide (d.decisions = []) &&
        decide ((waiting d 1).length = 1) && decide (waiting (visible d writes) 1 = []) &&
        decide ((visible d writes).decisions = [x]) && x.undoneAt.isNone) = some true := by
    decide +kernel
  obtain ⟨⟨_, stored⟩, did, rest⟩ := Option.bind_eq_some_iff.mp evaluated
  obtain ⟨⟨x, writes⟩, resolved, held⟩ := Option.bind_eq_some_iff.mp rest
  have facts := Option.some.inj held
  simp only [Bool.and_eq_true, decide_eq_true_eq, Option.isNone_iff_eq_none] at facts
  obtain ⟨⟨⟨⟨⟨⟨⟨passes, passes'⟩, members⟩, undecided⟩, waits⟩, settled⟩, decided⟩, live⟩ := facts
  refine ⟨visible staffedLedger stored, x, writes, ?_, Prog.attempt_of_toOption resolved, passes',
    members, undecided, waits, settled, decided, live⟩
  have read : (Prog.query (Ingest.getImportBatch · 1) : Tx _).attempt staffedLedger [] =
      .ok (batch, []) := rfl
  refine solo_inTx_of_ok read rfl ?_
  have validated : ¬ batch.status ≠ .validated := fun other => other rfl
  have object : Ingest.persistBatch sampleSite (sampleDraws 100) batch = _ := if_neg validated
  show Solo _ _ (Ingest.persistBatch sampleSite (sampleDraws 100) batch) _ _ _ _ _
  rw [object]
  apply @Solo.answer _ _ _ _ _ _ _ _ _ _ _ _ (.statement (some sampleStatement)) _ _ _ _ _ _ trivial
  exact solo_inTx_of_ok (Prog.attempt_of_toOption did) passes .done

theorem reviews_taken_back_sample : ∃ d earlier e passed decisionID last,
    Sequential sampleSite staffedLedger d earlier ∧ Reviewing sampleSite d e passed ∧
      (waiting d 1).length = 1 ∧ waiting e 1 = [] ∧
      Undoing sampleSite 7 e [decisionID] last ∧ ReadsAlike d last := by
  obtain ⟨d, x, writes, did, resolved, passes, members, undecided, waits, settled, decided, live⟩ :=
    solo_staffedImport
  have allowed : MayResolve d 7 := ⟨⟨7, .approver⟩, by rw [members]; rfl, rfl⟩
  have called : Called firstImport := trivial
  have run : Sequential sampleSite staffedLedger d [staffedLedger] := .call .start called did
  have reviews : Reviewing sampleSite d (visible d writes) [d] := by
    have checked : checkOutcome outcomeCategorised "0101" = .ok () := rfl
    have settling := @solo_resolve_of sampleSite d (sampleDraws 200) 7 1 "buyer" "0101" .calm
      outcomeCategorised x writes allowed checked resolved passes
    refine .call .start ?_ settling
    trivial
  have fresh : ∀ y, Fresh d (visible d writes) y ↔ y = x := by
    intro y
    rw [Fresh, decided, undecided, List.mem_singleton]
    constructor
    · exact fun made => made.1
    · rintro rfl
      exact ⟨rfl, live, List.not_mem_nil⟩
  have lists : Lists d (visible d writes) [x.id] := by
    refine ⟨List.nodup_singleton _, fun decisionID => ?_⟩
    simp [fresh, eq_comm]
  have standing : Standing d (visible d writes) := by
    intro y known
    rw [undecided] at known
    cases known
  obtain ⟨last, undoing, alike⟩ :=
    (reviews_taken_back ⟨rfl, rfl, rfl, rfl⟩ run reviews).2 7 [x.id] allowed standing lists
  exact ⟨d, _, _, _, x.id, last, run, reviews, waits, settled, undoing, alike⟩

end Vekst.Review
