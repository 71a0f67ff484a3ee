import Vekst.Isolation.Solo
import Vekst.Proof.Ledger.OneLive
import Vekst.Proof.Ledger.Unclassified
import Vekst.Proof.Review.Resolve
import Vekst.Proof.Taxonomy.Codes

namespace Vekst.Review
open Isolation Ledger Classify Relational Taxonomy

/-! ## The rows of a group -/

theorem mem_groupRows {d : Database} {entityID : UUID} {key : String} {t : TransactionRow} :
    t ∈ reviewGroupRows d entityID key ↔ t ∈ d.transactions ∧ t.entityID = entityID ∧
      Unclassified d t ∧ t.counterpartyKey = key := by
  rw [reviewGroupRows, List.mem_insertionSort, List.mem_filter, waiting, List.mem_filter,
    ← unanswered_iff_unclassified]
  simp [and_assoc]

/-- A group the queue shows has rows. -/
theorem groupRows_of_shown {d : Database} {entityID : UUID} {limit offset : Nat} {g : GroupRow}
    (shown : g ∈ reviewGroups d entityID limit offset) :
    reviewGroupRows d entityID g.counterpartyKey ≠ [] := by
  have listed := List.mem_of_mem_drop (List.mem_of_mem_take shown)
  rw [List.mem_insertionSort, List.mem_map] at listed
  obtain ⟨_, member, rfl⟩ := listed
  obtain ⟨key, keyed, rfl⟩ := List.mem_map.mp member
  obtain ⟨t, waits, rfl⟩ := List.mem_map.mp (List.mem_dedup.mp keyed)
  obtain ⟨stored, here⟩ := List.mem_filter.mp waits
  rw [Bool.and_eq_true, decide_eq_true_eq, unanswered_iff_unclassified] at here
  exact List.ne_nil_of_mem (mem_groupRows.mpr ⟨stored, here.1, here.2, rfl⟩)

/-! ## What a resolution relies on -/

/-- The keys of the tables, as the schema keeps them. -/
structure Keyed (d : Database) : Prop where
  transactions : (d.transactions.map (·.id)).Nodup
  base : isCurrencyShape d.baseCurrency = true

/-- Identifiers the database generates: new, different from each other, and not nil. -/
structure Generated (d : Database) (draws : Draws) (userID : UUID) : Prop where
  user : userID ≠ UUID.zero
  new : ∀ i, ∀ c ∈ d.classifications, c.id ≠ draws.id 2 i
  apart : ∀ i j, draws.id 2 i = draws.id 2 j → i = j
  decision : ∀ x ∈ d.decisions, x.id ≠ draws.id 0 0

/-- An actor the service lets settle groups. -/
def MayResolve (d : Database) (userID : UUID) : Prop :=
  ∃ m, d.members.find? (·.userID = userID) = some m ∧ canResolve m.role = true

/-- By itself the resolution of a group succeeds, and the group leaves the queue. -/
def Clears (site : Site) (d : Database) (draws : Draws) (userID entityID : UUID)
    (key categoryCode : String) : Prop :=
  ∃ last, Solo (body site) .calm
    (body site (.resolve userID entityID key outcomeCategorised categoryCode draws)) d [] []
    (some (.ok .done)) last ∧
    ∀ limit offset, ∀ g ∈ reviewGroups last entityID limit offset, g.counterpartyKey ≠ key

/-- What lets a group be settled under a category of this code. -/
structure Resolvable (site : Site) (d : Database) (entityID : UUID) (key categoryCode : String) :
    Prop where
  undecided : ∀ old ∈ d.decisions, old.keyVersion = normalizeVersion → old.counterpartyKey = key →
    old.undoneAt.isSome
  named : categoryCode ≠ ""
  reads : ∀ found, categoryByCode d site.taxonomyVersion categoryCode = .ok found →
    ∀ cat ∈ d.categories, cat.id = found.id → cat.isLeaf ∧ !cat.isComputed
  counted : 0 ≤ (Int32.ofNat (reviewGroupRows d entityID key).length).toInt

/-- No live decision of the key is there, whatever entity it was made in. -/
theorem noLiveDecision_iff {d : Database} {key : String} :
    (d.decisions.all fun old => !(old.keyVersion = normalizeVersion && old.counterpartyKey = key &&
      old.undoneAt.isNone)) = true ↔
    ∀ old ∈ d.decisions, old.keyVersion = normalizeVersion → old.counterpartyKey = key →
      old.undoneAt.isSome := by
  rw [List.all_eq_true]
  apply forall₂_congr
  intro old _
  cases old.undoneAt <;> simp [imp_iff_not_or]

section Queue

variable {site : Site} {d : Database} {draws : Draws} {userID entityID : UUID}
  {key categoryCode : String}

/-! ## The decision and the rows a resolution stores -/

theorem checkDecision_categorised_ok {category : CategoryRow} {rows : List TransactionRow}
    {baseCcy : String} :
    checkDecision d (settledDecision draws userID baseCcy key outcomeCategorised (some category.id)
      rows) = .ok () ↔
    0 ≤ (Int32.ofNat rows.length).toInt ∧ isCurrencyShape baseCcy = true ∧
    (∀ x ∈ d.decisions, x.id ≠ draws.id 0 0) ∧
    (∀ old ∈ d.decisions, old.keyVersion = normalizeVersion → old.counterpartyKey = key →
      old.undoneAt.isSome) ∧
    (∃ cat ∈ d.categories, cat.id = category.id) ∧
      ∀ cat ∈ d.categories, cat.id = category.id → cat.isLeaf ∧ !cat.isComputed := by
  simp only [checkDecision, require_bind_ok]
  constructor
  · rintro ⟨-, counted, shape, -, -, new, undecided, target⟩
    exact ⟨of_decide_eq_true counted, shape,
      fun x known => of_decide_eq_true (List.all_eq_true.mp new x known),
      noLiveDecision_iff.mp undecided, categoryIsVisible_ok.mp target⟩
  · rintro ⟨counted, shape, new, undecided, target⟩
    exact ⟨rfl, decide_eq_true counted, shape, rfl, rfl,
      List.all_eq_true.mpr fun x known => decide_eq_true (new x known),
      noLiveDecision_iff.mpr undecided, categoryIsVisible_ok.mpr target⟩

theorem storable_settled {outcome : String} {category : CategoryRow} {rows : List TransactionRow}
    (generated : Generated d draws userID) (stored : ∀ t ∈ rows, t ∈ d.transactions)
    (visible : ∃ cat ∈ d.categories, cat.id = category.id)
    (target : ∀ cat ∈ d.categories, cat.id = category.id → cat.isLeaf ∧ !cat.isComputed) :
    Storable d (settledClassifications site draws userID category.id outcome rows) where
  fits row member := by
    obtain ⟨⟨t, i⟩, numbered, rfl⟩ := List.mem_map.mp member
    have confidence : roundConfidence 1 = 1 := by norm_num [roundConfidence]
    constructor
    · simp [toRow, humanClassification, engineLayers]
    · simp [toRow, humanClassification, confidence]
    · intro _
      simp [toRow, humanClassification, generated.user]
    · exact ⟨t, stored t (List.fst_mem_of_mem_zipIdx numbered), rfl⟩
    · exact visible
    · exact target
  new row member c known := by
    obtain ⟨⟨t, i⟩, numbered, rfl⟩ := List.mem_map.mp member
    exact generated.new i c known
  apart := by
    have ids : (settledClassifications site draws userID category.id outcome rows).map (·.id) =
        (rows.zipIdx.map Prod.snd).map (draws.id 2) := by
      rw [settledClassifications, List.map_map, List.map_map]
      rfl
    rw [ids, List.zipIdx_map_snd]
    exact List.Nodup.map (fun i j same => generated.apart i j same) List.nodup_range'

theorem liveOf_settled {outcome : String} {categoryID : UUID} {rows : List TransactionRow}
    {after : Database} (classified : after.classifications = d.classifications ++
      settledClassifications site draws userID categoryID outcome rows) (txnID : UUID) :
    after.liveOf txnID = d.liveOf txnID ++
      (settledClassifications site draws userID categoryID outcome rows).filter
        (·.transactionID = txnID) := by
  rw [Database.liveOf, classified, List.filter_append]
  apply congrArg (d.liveOf txnID ++ ·)
  apply List.filter_congr
  intro row member
  obtain ⟨_, _, rfl⟩ := List.mem_map.mp member
  simp [toRow, ClassificationRow.live]

theorem settled_transactions {outcome : String} {categoryID : UUID} {rows : List TransactionRow} :
    (settledClassifications site draws userID categoryID outcome rows).map (·.transactionID) =
      rows.map (·.id) := by
  have ids : (settledClassifications site draws userID categoryID outcome rows).map (·.transactionID) =
      (rows.zipIdx.map Prod.fst).map (·.id) := by
    rw [settledClassifications, List.map_map, List.map_map]
    rfl
  rw [ids, List.zipIdx_map_fst]

/-! ## A call by itself -/

def Unsuccessful (result : Option Outcome) : Prop :=
  result = none ∨ ∃ e, result = some (.error e)

/-- A call that ends with one transaction: it commits, or the database is as it was. -/
inductive Returns {α : Type} (p : Tx α) (d : Database) (result : Option Outcome) (last : Database) :
    Prop
  | committed {a : α} {writes : List Write} (did : p.attempt d [] = .ok (a, writes))
      (holds : Store.check (visible d writes) writes = .ok ()) (left : last = visible d writes)
      (outcome : result = some (.ok .done) ∨ result = none)
  | unchanged (left : last = d) (unsuccessful : Unsuccessful result)

variable {around : Surroundings Failure Question Reply} {asked : List Question}
  {result : Option Outcome} {last : Database}

theorem unsuccessful_of_done {e : Failure} (run : Solo (body site) around (.done (.error e)) d []
    asked result last) : last = d ∧ Unsuccessful result := by
  obtain ⟨left, -, outcome⟩ := run.of_done
  exact ⟨left, outcome.symm.imp id fun failed => ⟨e, failed⟩⟩

theorem solo_answer {α : Type} {p : Tx α}
    (run : Solo (body site) around (inTx answer p) d [] asked result last) :
    Returns p d result last := by
  cases solo_inTx run with
  | committed did holds rest =>
      obtain ⟨left, -, outcome⟩ := rest.of_done
      exact .committed did holds left outcome
  | failed _ rest =>
      obtain ⟨left, unsuccessful⟩ := unsuccessful_of_done rest
      exact .unchanged left unsuccessful
  | stopped _ nothing => exact .unchanged nothing.2.2 (.inl nothing.2.1)

theorem attempt_memberRole : (memberRole userID).attempt d [] =
    (match d.members.find? (·.userID = userID) with
      | some m => .ok (m.role, [])
      | none => .error (.coded Code.forbidden)) := by
  rw [memberRole, Prog.attempt_query, visible_nil]
  cases d.members.find? (·.userID = userID) <;> rfl

/-- What the role guards runs for a member that may settle groups. -/
theorem solo_member {next : Job}
    (run : Solo (body site) around (inTx (fun
      | .error e => .done (.error e)
      | .ok role => if !canResolve role then .done (.error (.coded Code.forbidden)) else next)
      (memberRole userID)) d [] asked result last) :
    MayResolve d userID ∧ Solo (body site) around next d [] asked result last ∨
      last = d ∧ Unsuccessful result := by
  cases solo_inTx run with
  | committed did _ rest =>
      rw [attempt_memberRole] at did
      split at did
      next m found =>
        obtain ⟨rfl, rfl⟩ := Prod.mk.inj (Except.ok.inj did)
        dsimp only at rest
        split at rest
        next refused => exact .inr (unsuccessful_of_done rest)
        next allowed => exact .inl ⟨⟨m, found, by simpa using allowed⟩, rest⟩
      next => cases did
  | failed _ rest => exact .inr (unsuccessful_of_done rest)
  | stopped _ nothing => exact .inr ⟨nothing.2.2, .inl nothing.2.1⟩

theorem solo_member_of {next : Job} (allowed : MayResolve d userID)
    (run : Solo (body site) around next d [] asked result last) :
    Solo (body site) around (inTx (fun
      | .error e => .done (.error e)
      | .ok role => if !canResolve role then .done (.error (.coded Code.forbidden)) else next)
      (memberRole userID)) d [] asked result last := by
  obtain ⟨m, found, may⟩ := allowed
  have did : (memberRole userID).attempt d [] = .ok (m.role, []) := by
    rw [attempt_memberRole, found]
  refine solo_inTx_of_ok did rfl ?_
  dsimp only
  rw [may]
  exact run

variable {outcome : String}

theorem solo_resolve (run : Solo (body site) around
    (body site (.resolve userID entityID key outcome categoryCode draws)) d [] asked result last) :
    MayResolve d userID ∧ checkOutcome outcome categoryCode = .ok () ∧
      Returns (resolveRows site draws userID entityID key outcome categoryCode) d result last ∨
      last = d ∧ Unsuccessful result := by
  rcases solo_member run with ⟨allowed, run⟩ | failed
  · split at run
    next => exact .inr (unsuccessful_of_done run)
    next checked => exact .inl ⟨allowed, checked, solo_answer run⟩
  · exact .inr failed

theorem solo_resolve_of {decision : ReviewDecisionRow} {writes : List Write}
    (allowed : MayResolve d userID) (checked : checkOutcome outcome categoryCode = .ok ())
    (did : (resolveRows site draws userID entityID key outcome categoryCode).attempt d [] =
      .ok (decision, writes))
    (holds : Store.check (visible d writes) writes = .ok ()) :
    Solo (body site) around (body site (.resolve userID entityID key outcome categoryCode draws)) d []
      [] (some (.ok .done)) (visible d writes) := by
  apply solo_member_of allowed
  rw [checked]
  exact solo_inTx_of_ok did holds .done

/-! ## The checks of a resolution's commit -/

theorem fired_append (earlier later : List Write) :
    fired (earlier ++ later) = fired earlier ++ fired later := List.filterMap_append

/-- Only these transactions are checked. -/
def FiredWithin (rows : List TransactionRow) (writes : List Write) : Prop :=
  ∀ txnID ∈ fired writes, txnID ∈ rows.map (·.id)

theorem fired_settleGroup {baseCcy : String} {category : CategoryRow} {rows : List TransactionRow} :
    (settleGroup site draws userID baseCcy key outcome category rows).Emits
      fun _ => FiredWithin rows := by
  apply Prog.emits_bind
  · rw [rememberVendor]
    split
    next =>
      apply Prog.emits_exec
      intro d writes answer success
      obtain ⟨_, -, made⟩ := bind_ok.mp success
      obtain ⟨rfl, -⟩ := Prod.mk.inj (Except.ok.inj made)
      exact fun txnID member => absurd member List.not_mem_nil
    next => trivial
  · intro _
    apply Prog.emits_bind
    · apply Prog.emits_forM
      rintro ⟨r, i⟩ numbered
      refine Prog.emits_bind (Prog.emits_exec ?_) fun _ => trivial
      intro d writes answer success
      obtain ⟨_, -, made⟩ := bind_ok.mp success
      obtain ⟨rfl, rfl⟩ := Prod.mk.inj (Except.ok.inj made)
      intro txnID member
      obtain rfl : txnID = r.id := List.mem_singleton.mp member
      exact List.mem_map_of_mem (List.fst_mem_of_mem_zipIdx numbered)
    · intro _
      apply Prog.emits_exec
      intro d writes answer success
      split at success
      next => cases success
      next => cases success
      next =>
        obtain ⟨rfl, -⟩ := Prod.mk.inj (Except.ok.inj success)
        exact fun txnID member => absurd member List.not_mem_nil

/-- The pending writes of a resolution that names a category. -/
theorem fired_resolveRows {decision : ReviewDecisionRow} {writes : List Write}
    (named : outcome ≠ outcomeSkipped)
    (did : (resolveRows site draws userID entityID key outcome categoryCode).attempt d [] =
      .ok (decision, writes)) :
    FiredWithin (reviewGroupRows d entityID key) writes := by
  rw [resolveRows_eq named, Prog.attempt_bind, Prog.attempt_query] at did
  simp only [Except.map, Except.bind, visible_nil] at did
  rw [Prog.attempt_bind, Prog.attempt_query] at did
  simp only [Except.map, Except.bind, visible_nil] at did
  split at did
  next => cases did
  next =>
    rw [Prog.attempt_bind, Prog.attempt_query] at did
    cases read : categoryByCode d site.taxonomyVersion (resolvedCode outcome categoryCode) with
    | error e =>
        rw [visible_nil, read] at did
        cases did
    | ok category =>
        rw [visible_nil, read] at did
        have nothing : FiredWithin (reviewGroupRows d entityID key) [] :=
          fun txnID member => absurd member List.not_mem_nil
        refine Prog.attempt_emits fired_settleGroup nothing ?_ did
        intro before more held allowed txnID member
        rw [fired_append, List.mem_append] at member
        exact member.elim (held txnID) (allowed txnID)

theorem check_settled {categoryID : UUID} {rows : List TransactionRow} {after : Database}
    {writes : List Write} (keyed : (d.transactions.map (·.id)).Nodup)
    (covered : ∀ t ∈ rows, t ∈ d.transactions ∧ Unclassified d t) (once : rows.Nodup)
    (classified : after.classifications = d.classifications ++
      settledClassifications site draws userID categoryID outcome rows)
    (within : FiredWithin rows writes) : Store.check after writes = .ok () := by
  apply if_pos
  rw [List.all_eq_true]
  intro txnID member
  obtain ⟨t, known, rfl⟩ := List.mem_map.mp (within txnID member)
  have waits : d.liveOf t.id = [] := (covered t known).2
  have ids : (rows.map (·.id)).Nodup := once.map_on fun a first b second same =>
    List.inj_on_of_nodup_map keyed (covered a first).1 (covered b second).1 same
  rw [decide_eq_true_eq, liveOf_settled classified, waits, List.nil_append, ← List.countP_eq_length_filter]
  rw [← @settled_transactions site draws userID outcome categoryID] at ids
  have few := List.nodup_iff_count_le_one.mp ids t.id
  rw [List.count_eq_countP, List.countP_map] at few
  exact few

theorem unclassified_of_settled {categoryID : UUID} {rows : List TransactionRow} {after : Database}
    (classified : after.classifications = d.classifications ++
      settledClassifications site draws userID categoryID outcome rows) {t : TransactionRow}
    (waits : Unclassified after t) : Unclassified d t ∧ t ∉ rows := by
  rw [Unclassified, liveOf_settled classified, List.append_eq_nil_iff, List.filter_eq_nil_iff] at waits
  refine ⟨waits.1, fun known => ?_⟩
  have named : t.id ∈ (settledClassifications site draws userID categoryID outcome rows).map
      (·.transactionID) := by
    rw [settled_transactions]
    exact List.mem_map_of_mem known
  obtain ⟨row, member, same⟩ := List.mem_map.mp named
  exact waits.2 row member (decide_eq_true same)

/-! ## When a group can be settled -/

theorem nodup_groupRows (keyed : (d.transactions.map (·.id)).Nodup) :
    (reviewGroupRows d entityID key).Nodup := by
  rw [reviewGroupRows, (List.perm_insertionSort _ _).nodup_iff]
  exact ((keyed.of_map _).filter _).filter _

/-- A call that succeeds met no refusal on its way. -/
theorem resolvable_of_clears (clears : Clears site d draws userID entityID key categoryCode) :
    Resolvable site d entityID key categoryCode := by
  obtain ⟨last, run, -⟩ := clears
  rcases solo_resolve run with ⟨-, checked, returned⟩ | ⟨-, unsuccessful⟩
  · cases returned with
    | unchanged _ unsuccessful =>
        rcases unsuccessful with stopped | ⟨e, failed⟩
        · cases stopped
        · cases failed
    | committed did _ _ _ =>
        obtain ⟨covers, found, read, ran⟩ :=
          (run_resolveRows_iff (by decide)).mp (Prog.run_of_attempt did)
        obtain ⟨-, -, sound, rfl, -⟩ := run_settleGroup_ok.mp ran
        obtain ⟨counted, -, -, undecided, -, target⟩ := checkDecision_categorised_ok.mp sound
        refine ⟨undecided, resolvedCode_ne_empty checked, fun other same => ?_, counted⟩
        obtain rfl := Except.ok.inj (read.symm.trans same)
        exact target
  · rcases unsuccessful with stopped | ⟨e, failed⟩
    · cases stopped
    · cases failed

theorem clears_of_resolvable (keyed : Keyed d) (generated : Generated d draws userID)
    (allowed : MayResolve d userID) (covers : reviewGroupRows d entityID key ≠ [])
    {found : CategoryRow}
    (read : categoryByCode d site.taxonomyVersion categoryCode = .ok found)
    (resolvable : Resolvable site d entityID key categoryCode) :
    Clears site d draws userID entityID key categoryCode := by
  have target := resolvable.reads found read
  have visible : ∃ cat ∈ d.categories, cat.id = found.id := by
    rw [categoryByCode] at read
    split at read
    next cat first =>
      obtain rfl := Except.ok.inj read
      exact ⟨cat, List.mem_of_find?_eq_some first, rfl⟩
    next => cases read
  have checked : checkOutcome outcomeCategorised categoryCode = .ok () := by
    rw [checkOutcome, if_pos rfl, if_neg resolvable.named]
  have covered : ∀ t ∈ reviewGroupRows d entityID key, t ∈ d.transactions ∧ Unclassified d t :=
    fun t member => ⟨(mem_groupRows.mp member).1, (mem_groupRows.mp member).2.2.1⟩
  have storable := @storable_settled site d draws userID outcomeCategorised found _ generated
    (fun t member => (covered t member).1) visible target
  have settled := (@run_settleGroup_ok site draws userID key outcomeCategorised d _ _ d.baseCurrency
    found _).mpr ⟨fun _ => ⟨visible, target⟩, storable, checkDecision_categorised_ok.mpr
      ⟨resolvable.counted, keyed.base, generated.decision, resolvable.undecided, visible, target⟩,
      rfl, rfl⟩
  have ran := (@run_resolveRows_iff site draws userID entityID key outcomeCategorised categoryCode
    d _ _ (by decide)).mpr ⟨covers, found, read, settled⟩
  obtain ⟨writes, did, left⟩ := Prog.attempt_of_run ran
  have passes := check_settled keyed.transactions covered (nodup_groupRows keyed.transactions)
    (congrArg Database.classifications left.symm) (fired_resolveRows (by decide) did)
  refine ⟨_, solo_resolve_of allowed checked did passes, fun limit offset g shown same => ?_⟩
  have still := groupRows_of_shown shown
  rw [same, ← left] at still
  obtain ⟨t, member⟩ := List.exists_mem_of_ne_nil _ still
  obtain ⟨stored, here, waits, named⟩ := mem_groupRows.mp member
  obtain ⟨waited, uncovered⟩ := unclassified_of_settled rfl waits
  exact uncovered (mem_groupRows.mpr ⟨stored, here, waited, named⟩)

/-- A group the queue shows can be settled under a classifiable category exactly when no decision
of its counterparty is live and the category's code reads a category that may be named. -/
theorem shown_group_resolves_iff {limit offset : Nat} {g : GroupRow} {x : CategoryRow}
    (keyed : Keyed d) (generated : Generated d draws userID) (allowed : MayResolve d userID)
    (shown : g ∈ reviewGroups d entityID limit offset) (known : x ∈ d.categories)
    (classifiable : Classifiable site x) :
    Clears site d draws userID entityID g.counterpartyKey x.code ↔
      Resolvable site d entityID g.counterpartyKey x.code := by
  refine ⟨resolvable_of_clears, fun resolvable => ?_⟩
  have matching : ∃ cat ∈ d.categories,
      (cat.taxonomyVersion = site.taxonomyVersion && cat.code = x.code) = true :=
    ⟨x, known, by simp [classifiable.1]⟩
  obtain ⟨found, first⟩ := Option.isSome_iff_exists.mp (List.find?_isSome.mpr matching)
  have read : categoryByCode d site.taxonomyVersion x.code = .ok found := by
    rw [categoryByCode, first]
  exact clears_of_resolvable keyed generated allowed (groupRows_of_shown shown) read resolvable

end Queue

/-! ## A group put off -/

def sampleGroup : GroupRow := ⟨"", sampleLedger.transactions⟩

theorem reviewGroups_sampleLedger : sampleGroup ∈ reviewGroups sampleLedger 1 50 0 := by
  decide +kernel

theorem keyed_sampleLedger : Keyed sampleLedger := ⟨List.nodup_singleton _, by decide⟩

theorem mayResolve_sampleLedger : MayResolve sampleLedger 7 := ⟨⟨7, .approver⟩, rfl, rfl⟩

theorem generated_sampleLedger : Generated sampleLedger (sampleDraws 0) 7 where
  user := by decide
  new i c known := absurd known List.not_mem_nil
  apart i j same := by
    simpa [sampleDraws] using same
  decision x known := absurd known List.not_mem_nil

theorem shown_group_resolves_sample :
    Clears sampleSite sampleLedger (sampleDraws 0) 7 1 "" "0101" := by
  have classifiable : Classifiable sampleSite (sampleCategory 1 "0101" "01") := ⟨rfl, rfl, rfl⟩
  refine (shown_group_resolves_iff keyed_sampleLedger generated_sampleLedger mayResolve_sampleLedger
    reviewGroups_sampleLedger (List.mem_singleton_self _) classifiable).mpr ?_
  refine ⟨fun _ known => absurd known List.not_mem_nil, by decide, fun found _ cat known _ => ?_, ?_⟩
  · rw [List.mem_singleton.mp known]
    exact ⟨rfl, rfl⟩
  · decide +kernel

def skippedDecision : ReviewDecisionRow :=
  settledDecision (sampleDraws 0) 7 "BYN" "" outcomeSkipped none sampleLedger.transactions

/-- Once somebody has put a group off, it stays in the queue and nobody can settle it. -/
theorem skipped_group_is_stranded :
    ∃ skipped, Solo (body sampleSite) .calm
      (body sampleSite (.resolve 7 1 "" outcomeSkipped "" (sampleDraws 0))) sampleLedger [] []
      (some (.ok .done)) skipped ∧
      sampleGroup ∈ reviewGroups skipped 1 50 0 ∧ MayResolve skipped 7 ∧
      Classifiable sampleSite (sampleCategory 1 "0101" "01") ∧
      ∀ draws, ¬ Clears sampleSite skipped draws 7 1 sampleGroup.counterpartyKey "0101" := by
  have did : (resolveRows sampleSite (sampleDraws 0) 7 1 "" outcomeSkipped "").attempt sampleLedger [] =
      .ok (skippedDecision, [.insertDecision skippedDecision]) := by
    rfl
  refine ⟨_, solo_resolve_of mayResolve_sampleLedger rfl did rfl, ?_, ⟨⟨7, .approver⟩, rfl, rfl⟩,
    ⟨rfl, rfl, rfl⟩, fun draws clears => ?_⟩
  · decide +kernel
  · have undone := (resolvable_of_clears clears).undecided skippedDecision (by simp [visible, Store.apply, Database.apply]) rfl rfl
    cases undone

end Vekst.Review
