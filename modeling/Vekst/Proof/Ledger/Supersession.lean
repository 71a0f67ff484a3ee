import Vekst.Isolation.Locks
import Vekst.Isolation.Moves
import Vekst.Proof.Jobs

namespace Vekst.Ledger

/-! ## The history of a classification -/

/-- The classification that replaced this one. -/
def Database.successor (d : Database) (c : ClassificationRow) : Option ClassificationRow :=
  c.supersededBy.bind fun id => d.classifications.find? (·.id = id)

def Database.follow (d : Database) : Nat → ClassificationRow → Option ClassificationRow
  | 0, c => some c
  | steps + 1, c => (d.successor c).bind (d.follow steps)

/-- Following `superseded_by` ends at a classification that is not superseded. -/
def Database.Settles (d : Database) (c : ClassificationRow) : Prop :=
  ∃ steps last, d.follow steps c = some last ∧ last.supersededBy = none

structure Chained (d : Database) : Prop where
  keyed : (d.classifications.map (·.id)).Nodup
  settles : ∀ c ∈ d.classifications, d.Settles c

/-- Supersession is a history of one transaction. -/
structure History (d : Database) : Prop extends Chained d where
  within : ∀ c ∈ d.classifications, ∀ next, c.supersededBy = some next →
    ∃ e ∈ d.classifications, e.id = next ∧ e.transactionID = c.transactionID

theorem settles_here {d : Database} {c : ClassificationRow} (unsuperseded : c.supersededBy = none) :
    d.Settles c := ⟨0, c, rfl, unsuperseded⟩

theorem settles_next {d : Database} {c e : ClassificationRow} (replaced : d.successor c = some e)
    (rest : d.Settles e) : d.Settles c := by
  obtain ⟨steps, last, reached, unsuperseded⟩ := rest
  refine ⟨steps + 1, last, ?_, unsuperseded⟩
  rw [Database.follow, replaced]
  exact reached

theorem successor_of_keyed {d : Database} (keyed : (d.classifications.map (·.id)).Nodup)
    {c e : ClassificationRow} (points : c.supersededBy = some e.id) (stored : e ∈ d.classifications) :
    d.successor c = some e := by
  rw [Database.successor, points]
  exact find?_of_keyed keyed stored

theorem mem_of_successor {d : Database} {c e : ClassificationRow}
    (replaced : d.successor c = some e) :
    c.supersededBy = some e.id ∧ e ∈ d.classifications := by
  obtain ⟨next, points, found⟩ := Option.bind_eq_some_iff.mp replaced
  have same : e.id = next := by simpa using List.find?_some found
  exact ⟨same ▸ points, List.mem_of_find?_eq_some found⟩

end Vekst.Ledger

namespace Vekst
open Isolation Ledger

/-! ## What a transaction leaves of the history -/

/-- What is known of the pending writes over the committed classifications: `own` says which
transactions an identifier may stand for. -/
structure Recorded (own : UUID → UUID → Prop) (d : Database) (pending : List Write) : Prop where
  keyed : (d.classifications.map (·.id) ++ (insertedClassifications pending).map (·.id)).Nodup
  born : ∀ row ∈ insertedClassifications pending, row.supersededBy = none
  known : ∀ row, .updateClassification row ∈ pending →
    ∃ old ∈ d.classifications, old.id = row.id ∧ old.transactionID = row.transactionID
  replaced : ∀ row next, .updateClassification row ∈ pending → row.supersededBy = some next →
    ∃ new ∈ insertedClassifications pending, new.id = next ∧
      ∀ txnID, own row.id txnID → txnID = new.transactionID

variable {own : UUID → UUID → Prop} {d : Database} {pending : List Write}

theorem Recorded.new (recorded : Recorded own d pending) {old new : ClassificationRow}
    (stored : old ∈ d.classifications) (inserted : new ∈ insertedClassifications pending) :
    old.id ≠ new.id :=
  (List.nodup_append.mp recorded.keyed).2.2 _ (List.mem_map_of_mem stored) _
    (List.mem_map_of_mem inserted)

/-- The row inserted is the one seen under its identifier. -/
theorem Recorded.seen_new (recorded : Recorded own d pending) {new seen : ClassificationRow}
    (inserted : new ∈ insertedClassifications pending)
    (member : seen ∈ (visible d pending).classifications) (same : seen.id = new.id) : seen = new := by
  have added := (List.nodup_append.mp recorded.keyed).2.1
  rcases mem_visible_classifications member with stored | ⟨_, made, rfl | rfl⟩
  · exact absurd same (recorded.new stored inserted)
  · exact List.inj_on_of_nodup_map added (mem_insertedClassifications.mpr made) inserted same
  · obtain ⟨old, stored, named, -⟩ := recorded.known seen made
    exact absurd (named.trans same) (recorded.new stored inserted)

/-- The row seen under a committed identifier is of the same transaction. -/
theorem Recorded.seen_old (recorded : Recorded own d pending) {old seen : ClassificationRow}
    (stored : old ∈ d.classifications) (member : seen ∈ (visible d pending).classifications)
    (same : seen.id = old.id) : seen.transactionID = old.transactionID := by
  have keyed := (List.nodup_append.mp recorded.keyed).1
  rcases mem_visible_classifications member with stored' | ⟨_, made, rfl | rfl⟩
  · rw [List.inj_on_of_nodup_map keyed stored' stored same]
  · exact absurd same.symm (recorded.new stored (mem_insertedClassifications.mpr made))
  · obtain ⟨before, stored', named, within⟩ := recorded.known seen made
    rw [← within, List.inj_on_of_nodup_map keyed stored' stored (named.trans same)]

theorem mem_visible_of_id (pending : List Write) {c : ClassificationRow}
    (among : c ∈ d.classifications ∨ c ∈ insertedClassifications pending) :
    ∃ seen ∈ (visible d pending).classifications, seen.id = c.id := by
  have listed : c.id ∈ (visible d pending).classifications.map (·.id) := by
    rw [visible_classification_ids, List.mem_append]
    exact among.imp List.mem_map_of_mem List.mem_map_of_mem
  exact List.mem_map.mp listed

theorem Recorded.inserted_seen (recorded : Recorded own d pending) {new : ClassificationRow}
    (inserted : new ∈ insertedClassifications pending) :
    new ∈ (visible d pending).classifications := by
  obtain ⟨seen, member, same⟩ := mem_visible_of_id pending (.inr inserted)
  rwa [recorded.seen_new inserted member same] at member

theorem Recorded.visible_keyed (recorded : Recorded own d pending) :
    ((visible d pending).classifications.map (·.id)).Nodup := by
  rw [visible_classification_ids]
  exact recorded.keyed

/-- A row that the transaction has replaced is followed by one that nothing has replaced yet. -/
theorem Recorded.settles_update (recorded : Recorded own d pending) {row : ClassificationRow}
    (made : .updateClassification row ∈ pending) : (visible d pending).Settles row := by
  cases points : row.supersededBy with
  | none => exact settles_here points
  | some next =>
      obtain ⟨new, inserted, rfl, -⟩ := recorded.replaced row next made points
      exact settles_next
        (successor_of_keyed recorded.visible_keyed points (recorded.inserted_seen inserted))
        (settles_here (recorded.born new inserted))

/-- By induction on the steps of the committed chain. -/
theorem Recorded.settles_stored (recorded : Recorded own d pending) {c : ClassificationRow}
    {steps : Nat} {last : ClassificationRow} (reached : d.follow steps c = some last)
    (ended : last.supersededBy = none) : (visible d pending).Settles c := by
  induction steps generalizing c with
  | zero =>
      obtain rfl := Option.some.inj reached
      exact settles_here ended
  | succ steps ih =>
      obtain ⟨e, replaced, rest⟩ := Option.bind_eq_some_iff.mp reached
      obtain ⟨points, stored⟩ := mem_of_successor replaced
      obtain ⟨seen, member, same⟩ := mem_visible_of_id pending (.inl stored)
      rw [← same] at points
      refine settles_next (successor_of_keyed recorded.visible_keyed points member) ?_
      rcases mem_visible_classifications member with stored' | ⟨_, made, rfl | rfl⟩
      · have keyed := (List.nodup_append.mp recorded.keyed).1
        rw [List.inj_on_of_nodup_map keyed stored' stored same]
        exact ih rest
      · exact settles_here (recorded.born seen (mem_insertedClassifications.mpr made))
      · exact recorded.settles_update made

theorem chained_visible (chained : Chained d) (recorded : Recorded own d pending) :
    Chained (visible d pending) where
  keyed := recorded.visible_keyed
  settles c member := by
    rcases mem_visible_classifications member with stored | ⟨_, made, rfl | rfl⟩
    · obtain ⟨steps, last, reached, ended⟩ := chained.settles c stored
      exact recorded.settles_stored reached ended
    · exact settles_here (recorded.born c (mem_insertedClassifications.mpr made))
    · exact recorded.settles_update made

/-- Where every committed identifier stands for its own transaction. -/
theorem history_visible (history : History d) (recorded : Recorded own d pending)
    (owned : ∀ row ∈ d.classifications, own row.id row.transactionID) :
    History (visible d pending) where
  toChained := chained_visible history.toChained recorded
  within c member next points := by
    rcases mem_visible_classifications member with stored | ⟨_, made, rfl | rfl⟩
    · obtain ⟨e, known, named, within⟩ := history.within c stored next points
      obtain ⟨seen, member, same⟩ := mem_visible_of_id pending (.inl known)
      exact ⟨seen, member, same.trans named, (recorded.seen_old known member same).trans within⟩
    · rw [recorded.born c (mem_insertedClassifications.mpr made)] at points
      cases points
    · obtain ⟨new, inserted, named, replaces⟩ := recorded.replaced c next made points
      obtain ⟨old, stored, same, within⟩ := recorded.known c made
      have one := replaces _ (same ▸ owned old stored)
      exact ⟨new, recorded.inserted_seen inserted, named, one.symm.trans within⟩

/-! ## What the calls write -/

/-- The versions of classifications a statement leaves: a new row, or rows that it has seen and no
statement of its transaction has made, pointed at a row one has made if at any. -/
def Records (own : UUID → UUID → Prop) (pending : List Write) (d : Database)
    (writes : List Write) : Prop :=
  (∃ row, writes = [.insertClassification row] ∧ row.supersededBy = none ∧
    ∀ c ∈ d.classifications, c.id ≠ row.id) ∨
  insertedClassifications writes = [] ∧ ∀ row, .updateClassification row ∈ writes →
    (∃ old ∈ d.classifications, old.id = row.id ∧ old.transactionID = row.transactionID) ∧
    (∀ new ∈ insertedClassifications pending, row.id ≠ new.id) ∧
    ∀ next, row.supersededBy = some next → ∃ new ∈ insertedClassifications pending,
      new.id = next ∧ ∀ txnID, own row.id txnID → txnID = new.transactionID

/-- The calls that insert, supersede and retract classifications. -/
def records : Label → Bool
  | .insertClassification _ _ => true
  | .supersedeClassification _ _ _ => true
  | .undo _ _ _ => true
  | _ => false

/-- One that supersedes names an identifier that stands for no other transaction. -/
def Recording (own : UUID → UUID → Prop) : Label → Prop
  | .supersedeClassification oldID c _ => ∀ txnID, own oldID txnID → txnID = c.transactionID
  | label => records label

def recordRules (own : UUID → UUID → Prop) : Discipline Database Write Reply Label where
  allowed := Recording own
  answered _ := True
  guarantee := Records own

theorem wp_insertClassification {post : ClassificationRow → List Write → Prop} {id : UUID}
    {now : Timestamp} {c : Classification}
    (stored : post (toRow id now c) (pending ++ [.insertClassification (toRow id now c)])) :
    (insertClassification id now c).wp (Records own) post pending := by
  apply Prog.wp_exec
  intro d writes answer success
  obtain ⟨_, checked, made⟩ := bind_ok.mp success
  obtain ⟨rfl, rfl⟩ := Prod.mk.inj (Except.ok.inj made)
  refine ⟨.inl ⟨_, rfl, rfl, ?_⟩, stored⟩
  obtain ⟨_, -, checked⟩ := bind_ok.mp checked
  obtain ⟨_, -, checked⟩ := bind_ok.mp checked
  obtain ⟨_, -, checked⟩ := bind_ok.mp checked
  obtain ⟨primaryKey, -⟩ := require_bind_ok.mp checked
  simpa using primaryKey

theorem wp_pointAt {live : ClassificationRow} {oldID : UUID}
    (inserted : insertedClassifications pending = [live])
    (stands : ∀ txnID, own oldID txnID → txnID = live.transactionID) :
    (pointAt oldID live.id).wp (Records own) (fun _ _ => True) pending := by
  apply Prog.wp_exec
  intro d writes answer success
  obtain ⟨_, itself, success⟩ := bind_ok.mp success
  obtain ⟨_, -, success⟩ := bind_ok.mp success
  obtain ⟨_, -, made⟩ := bind_ok.mp success
  obtain ⟨rfl, -⟩ := Prod.mk.inj (Except.ok.inj made)
  rw [require_ok, List.all_eq_true] at itself
  refine ⟨.inr ⟨?_, fun row member => ?_⟩, trivial⟩
  · rw [insertedClassifications, List.filterMap_map]
    exact List.filterMap_eq_nil_iff.mpr fun _ _ => rfl
  obtain ⟨_, known, ⟨⟩⟩ := List.mem_map.mp member
  have other : row.id ≠ live.id := by simpa using itself row known
  obtain ⟨old, found, rfl⟩ := List.mem_map.mp known
  obtain ⟨stored, named⟩ := List.mem_filter.mp found
  refine ⟨⟨old, stored, rfl, rfl⟩, ?_, ?_⟩
  · rw [inserted]
    intro new member
    rwa [List.mem_singleton.mp member]
  · rintro next ⟨⟩
    refine ⟨live, by simp [inserted], rfl, fun txnID owned => stands txnID ?_⟩
    rwa [← of_decide_eq_true named]

theorem keeps_supersedeClassification {oldID : UUID} {c : Classification}
    (stands : ∀ txnID, own oldID txnID → txnID = c.transactionID) (draws : Draws) :
    (inTx Review.answer
      (supersedeClassification (draws.id 0 0) (draws.now 0) oldID c)).Keeps (recordRules own) [] := by
  apply keeps_inTx
  · apply Prog.wp_bind
    apply wp_insertClassification
    apply Prog.wp_bind
    refine Prog.wp_mono (wp_pointAt rfl stands) fun affected writes _ => ?_
    apply Prog.wp_bind
    exact Prog.wp_ofExcept fun _ _ => trivial
  · intro e
    trivial

/-- The versions of classifications a retraction leaves. -/
def Retracts (d : Database) (writes : List Write) : Prop :=
  insertedClassifications writes = [] ∧ ∀ row, .updateClassification row ∈ writes →
    (∃ old ∈ d.classifications, old.id = row.id ∧ old.transactionID = row.transactionID) ∧
    row.supersededBy = none

theorem retracts_undoDecision (draws : Draws) (userID decisionID : UUID) :
    (Review.undoDecision draws userID decisionID).Emits Retracts := by
  apply undoDecision_emits
  · simp [Retracts, insertedClassifications]
  · intro now userID txnIDs
    apply Prog.emits_exec
    intro d writes answer success
    obtain ⟨rfl, -⟩ := Prod.mk.inj (Except.ok.inj success)
    constructor
    · rw [insertedClassifications, List.filterMap_map]
      exact List.filterMap_eq_nil_iff.mpr fun _ _ => rfl
    · intro row member
      obtain ⟨_, known, ⟨⟩⟩ := List.mem_map.mp member
      obtain ⟨old, found, rfl⟩ := List.mem_map.mp known
      obtain ⟨stored, selected⟩ := List.mem_filter.mp found
      simp only [ClassificationRow.live, Bool.and_eq_true, decide_eq_true_eq] at selected
      exact ⟨⟨old, stored, rfl, rfl⟩, Option.isNone_iff_eq_none.mp selected.2.1⟩
  · simp [Retracts, insertedClassifications]
  · simp [Retracts, insertedClassifications]

theorem records_of_retracts {writes : List Write}
    (none_ : insertedClassifications pending = []) (retracts : Retracts d writes) :
    Records own pending d writes := by
  refine .inr ⟨retracts.1, fun row member => ⟨(retracts.2 row member).1, ?_, ?_⟩⟩
  · simp [none_]
  · intro next points
    rw [(retracts.2 row member).2] at points
    cases points

theorem keeps_undo_records (userID decisionID : UUID) (draws : Draws) :
    (Review.undo userID decisionID draws).Keeps (recordRules own) [] := by
  have wp_retracting {α : Type} {p : Tx α} (emits : p.Emits Retracts) :
      p.wp (Records own) (fun _ _ => True) [] := by
    have proved : p.wp (Records own) (fun _ writes => insertedClassifications writes = []) [] := by
      refine Prog.wp_of_emits emits ?_ rfl
      intro pending d writes held retracts
      refine ⟨records_of_retracts held retracts, ?_⟩
      rw [insertedClassifications_append, held, retracts.1]
      rfl
    exact Prog.wp_mono proved fun _ _ _ => trivial
  apply keeps_inTx
  · refine Prog.wp_mono (wp_retracting (Prog.emits_query ?_ _)) fun role _ _ => ?_
    · simp [Retracts, insertedClassifications]
    · dsimp only
      split
      next => trivial
      next =>
        apply keeps_inTx
        · exact Prog.wp_mono (wp_retracting (retracts_undoDecision draws userID decisionID))
            fun _ _ _ => trivial
        · intro e
          trivial
  · intro e
    trivial

theorem body_records {site : Site} (label : Label) (recording : Recording own label) :
    (body site label).Keeps (recordRules own) [] := by
  cases label with
  | insertClassification c draws =>
      apply keeps_inTx
      · exact wp_insertClassification trivial
      · intro e
        trivial
  | supersedeClassification oldID c draws => exact keeps_supersedeClassification recording draws
  | undo userID decisionID draws => exact keeps_undo_records userID decisionID draws
  | _ => cases recording

/-! ## Every run -/

theorem Recorded.written {writes : List Write} (recorded : Recorded own d pending)
    (records : Records own pending (visible d pending) writes) :
    Recorded own d (pending ++ writes) := by
  rcases records with ⟨row, rfl, born, fresh⟩ | ⟨none_, versions⟩
  · have inserted : insertedClassifications (pending ++ [.insertClassification row]) =
        insertedClassifications pending ++ [row] := insertedClassifications_append _ _
    have versioned (c : ClassificationRow) :
        .updateClassification c ∈ pending ++ [.insertClassification row] ↔
          .updateClassification c ∈ pending := by simp
    refine ⟨?_, ?_, fun c made => recorded.known c ((versioned c).mp made), ?_⟩
    · rw [inserted, List.map_append, ← List.append_assoc, ← visible_classification_ids]
      rw [← List.map_append]
      refine nodup_ids_append recorded.visible_keyed (by simp) ?_
      intro new listed c seen
      rw [List.mem_singleton.mp listed]
      exact fresh c seen
    · rw [inserted]
      intro c listed
      rcases List.mem_append.mp listed with before | new
      · exact recorded.born c before
      · exact List.mem_singleton.mp new ▸ born
    · intro c next made points
      obtain ⟨new, listed, rest⟩ := recorded.replaced c next ((versioned c).mp made) points
      exact ⟨new, inserted ▸ List.mem_append_left _ listed, rest⟩
  · have inserted : insertedClassifications (pending ++ writes) =
        insertedClassifications pending := by
      rw [insertedClassifications_append, none_, List.append_nil]
    refine ⟨inserted ▸ recorded.keyed, inserted ▸ recorded.born, fun c made => ?_, ?_⟩
    · rcases List.mem_append.mp made with before | now
      · exact recorded.known c before
      · obtain ⟨⟨seen, member, named, within⟩, apart, -⟩ := versions c now
        rcases mem_visible_classifications member with stored | ⟨_, made, rfl | rfl⟩
        · exact ⟨seen, stored, named, within⟩
        · exact absurd named.symm (apart seen (mem_insertedClassifications.mpr made))
        · obtain ⟨old, stored, named', within'⟩ := recorded.known seen made
          exact ⟨old, stored, named'.trans named, within'.trans within⟩
    · rw [inserted]
      intro c next made points
      rcases List.mem_append.mp made with before | now
      · exact recorded.replaced c next before points
      · exact (versions c now).2.2 next points

theorem held_insertClassification {sys : System} {i : Nat} {row : ClassificationRow}
    (inserted : row ∈ insertedClassifications (sys.writesOf i)) : Lock.row row.id ∈ sys.held i := by
  refine List.mem_flatMap.mpr ⟨_, mem_insertedClassifications.mp inserted, ?_⟩
  simp [Store.locks, Write.locks]

theorem Recorded.unmoved {published : List Write} (recorded : Recorded own d pending)
    (other : Recorded own d published)
    (apart : ∀ row ∈ insertedClassifications published, ∀ new ∈ insertedClassifications pending,
      row.id ≠ new.id) : Recorded own (visible d published) pending where
  keyed := by
    rw [← List.map_append]
    refine nodup_ids_append other.visible_keyed (List.nodup_append.mp recorded.keyed).2.1 ?_
    intro new inserted c seen
    rcases mem_visible_classifications seen with stored | ⟨_, made, rfl | rfl⟩
    · exact recorded.new stored inserted
    · exact apart c (mem_insertedClassifications.mpr made) new inserted
    · obtain ⟨old, stored, named, -⟩ := other.known c made
      exact named ▸ recorded.new stored inserted
  born := recorded.born
  known row made := by
    obtain ⟨old, stored, named, within⟩ := recorded.known row made
    obtain ⟨seen, member, same⟩ := mem_visible_of_id published (.inl stored)
    exact ⟨seen, member, same.trans named, (other.seen_old stored member same).trans within⟩
  replaced := recorded.replaced

/-- Every identifier committed stands for its own transaction, and no lock is held twice. -/
def Owned (own : UUID → UUID → Prop) (sys : System) : Prop :=
  ∀ row ∈ sys.committed.classifications, own row.id row.transactionID

theorem recorded_carries {admits : System → Event → Prop}
    (exclusive : ∀ sys event, admits sys event → Exclusive sys) :
    Carries (recordRules own) admits Chained fun d pending _ => Recorded own d pending where
  opened _ chained := ⟨by simpa [insertedClassifications] using chained.keyed,
    by simp [insertedClassifications], by simp, by simp⟩
  written _ _ _ _ recorded records := recorded.written records
  passed _ _ _ recorded _ := recorded
  published _ _ _ _ _ chained recorded := chained_visible chained recorded
  unmoved sys i client other admitted found aside _ recorded held := by
    obtain ⟨j, different, place⟩ := System.mem_others.mp aside
    refine held.unmoved recorded fun row published new inserted same => ?_
    rw [← System.writesOf_eq found] at published
    rw [← System.writesOf_eq place] at inserted
    exact exclusive sys _ admitted i j (Ne.symm different) (held_insertClassification published)
      (same ▸ held_insertClassification inserted)

theorem history_carries {admits : System → Event → Prop}
    (exclusive : ∀ sys event, admits sys event → Exclusive sys)
    (owned : ∀ sys event, admits sys event → Owned own sys) :
    Carries (recordRules own) admits History fun d pending _ => Recorded own d pending where
  opened d history := (recorded_carries exclusive).opened d history.toChained
  written _ _ _ _ recorded records := recorded.written records
  passed _ _ _ recorded _ := recorded
  published sys _ _ admitted _ history recorded :=
    history_visible history recorded (owned sys _ admitted)
  unmoved sys i client other admitted found aside history recorded held :=
    (recorded_carries exclusive).unmoved sys i client other admitted found aside history.toChained
      recorded held

/-- Supersessions of any old id: each chain of replacements ends, in every state reached. -/
theorem supersession_settles {site : Site} {d : Database} {sys : System} (initially : Chained d)
    (run : Run (body site) (fun _ event => ∀ label, event = .spawn label → records label)
      (System.idle d) sys) : Chained sys.committed := by
  have admits : ∀ event : Event, (∀ label, event = .spawn label → records label) →
      (recordRules fun _ _ => False).Admits event := by
    intro event recording
    cases event with
    | spawn label =>
        have allowed := recording label rfl
        cases label with
        | supersedeClassification oldID c draws => exact fun _ never => never.elim
        | _ => exact allowed
    | _ => trivial
  have exclusive := run.knowing fun _ reached => reached.exclusive rfl
  exact (Run.carries (recorded_carries fun _ _ admitted => admitted.2)
    body_records (fun _ event admitted => admits event admitted.1) exclusive rfl initially).1

/-- At no moment passed does the old id of a call name a classification of another transaction
than the new classification's. -/
def NamesItsTransaction (events : List Event) (passed : List System) : Prop :=
  ∀ oldID c draws, .spawn (.supersedeClassification oldID c draws) ∈ events →
    ∀ sys ∈ passed, ∀ row ∈ sys.committed.classifications, row.id = oldID →
      row.transactionID = c.transactionID

/-- The run calls nothing but insertions, supersessions and retractions of classifications. -/
def OnlyRecords (events : List Event) : Prop := ∀ label, .spawn label ∈ events → records label

/-- In a run whose supersessions name classifications of their own transaction, supersession is
a history of one transaction in every state reached. -/
theorem supersession_is_a_history {site : Site} {d : Database} {events : List Event} {sys : System}
    (initially : History d) (calls : OnlyRecords events)
    (names : NamesItsTransaction events (passing (body site) (System.idle d) events))
    (fired : fireAll (body site) (System.idle d) events = some sys) : History sys.committed := by
  let passed := passing (body site) (System.idle d) events
  let own : UUID → UUID → Prop := fun id txnID => ∃ before ∈ passed,
    ∃ row ∈ before.committed.classifications, row.id = id ∧ row.transactionID = txnID
  have recording : ∀ event ∈ events, (recordRules own).Admits event := by
    intro event member
    cases event with
    | spawn label =>
        have allowed := calls label member
        cases label with
        | supersedeClassification oldID c draws =>
            rintro _ ⟨before, reached, row, stored, named, rfl⟩
            exact names oldID c draws member before reached row stored named
        | _ => exact allowed
    | _ => trivial
  have owned : ∀ before ∈ passed, Owned own before := fun before reached row stored =>
    ⟨before, reached, row, stored, rfl, rfl⟩
  have run := Run.of_fireAll (AdmitsAll.of_passing owned recording) fired
  have exclusive := run.knowing fun _ reached => reached.exclusive rfl
  exact (Run.carries
    (history_carries (fun _ _ admitted => admitted.2) fun _ _ admitted => admitted.1.1)
    body_records (fun _ _ admitted => admitted.1.2) exclusive rfl initially).1

/-! ## Two payments, each classified once -/

def twoPayments : Database :=
  { Database.empty "BYN" with
    transactions := [
      sampleTransaction 1 .bank (sampleDay 15) 120000,
      sampleTransaction 2 .bank (sampleDay 16) 50000]
    categories := [sampleCategory 1 "0101" "01"] }

theorem history_twoPayments : History twoPayments := by
  constructor
  · constructor <;> simp [twoPayments, Database.empty]
  · simp [twoPayments, Database.empty]

def decided (txnID : UUID) : Classification :=
  { transactionID := txnID, categoryID := 1, engineLayer := "L1", confidence := 1, evidence := "",
    taxonomyVersion := "1", rulesetVersion := "1", engineVersion := "1", normalizeVersion := "1",
    decidedBy := UUID.zero }

def insertEvents (i : Nat) (txnID : UUID) (start : Nat) : List Event :=
  [.spawn (.insertClassification (decided txnID) (sampleDraws start)), .jump i, .exec i, .check i,
    .publish i]

def supersedeEvents (i : Nat) (oldID txnID : UUID) (start : Nat) : List Event :=
  [.spawn (.supersedeClassification oldID (decided txnID) (sampleDraws start)), .jump i, .exec i,
    .exec i, .check i, .publish i]

/-- Each classification's identifier, transaction and successor. -/
def pointers (d : Database) : List (UUID × UUID × Option UUID) :=
  d.classifications.map fun c => (c.id, c.transactionID, c.supersededBy)

/-- A classification replaced, and its replacement in its turn. -/
def chainEvents : List Event :=
  insertEvents 0 1 100 ++ supersedeEvents 1 100 1 200 ++ supersedeEvents 2 200 1 300

theorem onlyRecords_chainEvents : OnlyRecords chainEvents := by
  intro label member
  simp only [chainEvents, insertEvents, supersedeEvents, List.mem_append, List.mem_cons,
    Event.spawn.injEq, List.not_mem_nil, reduceCtorEq, or_false] at member
  obtain (rfl | rfl) | rfl := member <;> rfl

theorem supersession_is_a_history_sample :
    ∃ sys, fireAll (body sampleSite) (System.idle twoPayments) chainEvents = some sys ∧
      pointers sys.committed = [(100, 1, some 200), (200, 1, some 300), (300, 1, none)] ∧
      History sys.committed := by
  have evaluated : (fireAll (body sampleSite) (System.idle twoPayments) chainEvents).map
      (fun sys => pointers sys.committed) =
      some [(100, 1, some 200), (200, 1, some 300), (300, 1, none)] := by decide +kernel
  have one : ∀ before ∈ passing (body sampleSite) (System.idle twoPayments) chainEvents,
      ∀ row ∈ before.committed.classifications, row.transactionID = 1 := by decide +kernel
  obtain ⟨sys, fired, listed⟩ := Option.map_eq_some_iff.mp evaluated
  refine ⟨sys, fired, listed, supersession_is_a_history history_twoPayments
    onlyRecords_chainEvents ?_ fired⟩
  intro oldID c draws member before reached row stored _
  have ofOne : c.transactionID = 1 := by
    simp only [chainEvents, insertEvents, supersedeEvents, List.mem_append, List.mem_cons,
      Event.spawn.injEq, Label.supersedeClassification.injEq, List.not_mem_nil, reduceCtorEq,
      or_false, false_or] at member
    obtain ⟨-, rfl, -⟩ | ⟨-, rfl, -⟩ := member <;> rfl
  rw [ofOne]
  exact one before reached row stored

/-- The classification of one payment, superseded by a call for the other. -/
def crossedEvents : List Event := insertEvents 0 2 100 ++ supersedeEvents 1 100 1 200

/-- The call commits, and the second payment's classification is replaced by the first's. -/
theorem supersession_crosses_transactions :
    ¬ ∀ sys, OnlyRecords crossedEvents →
      fireAll (body sampleSite) (System.idle twoPayments) crossedEvents = some sys →
      History sys.committed := by
  intro claimed
  have evaluated : (fireAll (body sampleSite) (System.idle twoPayments) crossedEvents).map
      (fun sys => decide (∀ c ∈ sys.committed.classifications, ∀ e ∈ sys.committed.classifications,
        c.supersededBy = some e.id → e.transactionID = c.transactionID)) = some false := by
    decide +kernel
  obtain ⟨sys, fired, crossed⟩ := Option.map_eq_some_iff.mp evaluated
  have calls : OnlyRecords crossedEvents := by
    intro label member
    simp only [crossedEvents, insertEvents, supersedeEvents, List.mem_append, List.mem_cons,
      Event.spawn.injEq, List.not_mem_nil, reduceCtorEq, or_false] at member
    obtain rfl | rfl := member <;> rfl
  have history := claimed sys calls fired
  apply of_decide_eq_false crossed
  intro c stored e known points
  obtain ⟨e', known', named, within⟩ := history.within c stored e.id points
  rwa [List.inj_on_of_nodup_map history.keyed known' known named] at within

end Vekst
