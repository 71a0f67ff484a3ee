import Vekst.Isolation.Solo
import Vekst.Proof.Ingest.Override

namespace Vekst.Ingest
open Isolation Ledger

/-! ## The two length rules -/

/-- What `OverrideValidation` asks of a reason: bytes, inside any white space. -/
def LongEnough (reason : String) : Prop :=
  overrideReasonMinLength ≤ (String.ofList (trimSpace reason.toList)).utf8ByteSize

/-- What the table asks of a reason: characters, inside spaces, of a text the column can hold. -/
def Storable (reason : String) : Prop :=
  '\x00' ∉ reason.toList ∧ 10 ≤ (btrim reason.toList).length

instance (reason : String) : Decidable (LongEnough reason) :=
  inferInstanceAs (Decidable (overrideReasonMinLength ≤ _))

instance (reason : String) : Decidable (Storable reason) :=
  inferInstanceAs (Decidable (_ ∧ _))

/-! ## A call that has the database to itself -/

/-- The rows the table's key and its constraints leave. -/
structure Validations.Sound (d : Validations) : Prop where
  keyed : (d.validations.map (·.batchID)).Nodup
  checked : ∀ row ∈ d.validations, checkOverride row = .ok ()

/-- How a call ends that has the database to itself and that nothing strikes. -/
def Returns (d : Validations) (call : OverrideCall) (outcome : OverrideOutcome)
    (after : Validations) : Prop :=
  Solo overrideValidation .calm (overrideValidation call) d [] [] (some outcome) after

/-- The row with the call's override on it. -/
def OverrideCall.on (call : OverrideCall) (row : ValidationRow) : ValidationRow :=
  { row with
    overriddenBy := some call.userID
    overrideReason := some call.reason
    overriddenAt := some call.now }

/-- The errors a client can translate. -/
def namedErrors : List String :=
  [Code.validationNotFound, Code.overrideReasonTooShort, Code.overrideRequiresApproverRole,
    Code.alreadyOverridden, Code.overrideOnlyOverWarnings]

/-- The override is on the batch's row, and nothing else has changed. -/
def Records (d : Validations) (call : OverrideCall) (outcome : OverrideOutcome)
    (after : Validations) : Prop :=
  ∃ row ∈ d.validations, row.batchID = call.batchID ∧ outcome = .ok (reportFromRow (call.on row)) ∧
    after = { d with validations := replaceBy (·.batchID) (call.on row) d.validations }

/-- A named error, or that the caller has no role in the organisation, and nothing has changed. -/
def Refuses (d : Validations) (call : OverrideCall) (outcome : OverrideOutcome)
    (after : Validations) : Prop :=
  after = d ∧ ((∃ code ∈ namedErrors, outcome = .error (.coded code)) ∨
    outcome = .error (.coded Code.notAMember) ∧ ∀ m ∈ d.members, m.userID ≠ call.userID)

/-- Only the reason can stand against the call. -/
def Overridable (d : Validations) (call : OverrideCall) : Prop :=
  (∃ m, d.members.find? (·.userID = call.userID) = some m ∧ canOverride m.role = true) ∧
    ∃ row, d.validations.find? (·.batchID = call.batchID) = some row ∧ row.overriddenAt = none ∧
      row.result.outcome = .validWithWarnings

/-- The call records the override or refuses it by name, and accepts the reasons the table does. -/
structure RecordsOrRefuses (d : Validations) (call : OverrideCall) : Prop where
  returns : ∃ outcome after, Returns d call outcome after
  either : ∀ outcome after, Returns d call outcome after →
    Records d call outcome after ∨ Refuses d call outcome after
  accepts : Overridable d call →
    ((∃ report after, Returns d call (.ok report) after) ↔ Storable call.reason)

/-! ## What a call returns -/

variable {d after : Validations} {call : OverrideCall} {row : ValidationRow}
  {outcome : OverrideOutcome}

theorem returns_done {made : OverrideOutcome} {last : Validations} :
    Solo overrideValidation .calm (.done made : OverrideJob) d [] [] (some outcome) last ↔
      outcome = made ∧ last = d := by
  constructor
  · intro run
    obtain ⟨same, -, ended | ended⟩ := run.of_done
    · exact ⟨Option.some.inj ended, same⟩
    · cases ended
  · rintro ⟨rfl, rfl⟩
    exact .done

/-- The table has no deferred check. -/
theorem returns_inTx {α : Type} {next : Except Failure α → OverrideJob} {p : ValidationTx α}
    {last : Validations} :
    Solo overrideValidation .calm (inTx next p) d [] [] (some outcome) last ↔
      match p.run Store.apply d with
      | .ok (answer, mid) =>
          Solo overrideValidation .calm (next (.ok answer)) mid [] [] (some outcome) last
      | .error e => Solo overrideValidation .calm (next (.error e)) d [] [] (some outcome) last := by
  have whole : ¬ (Surroundings.calm : Surroundings Failure Empty Empty).crashes := id
  have safe : ∀ e, ¬ (Surroundings.calm : Surroundings Failure Empty Empty).lost e := fun _ => id
  refine (solo_inTx_iff whole safe fun _ _ _ => rfl).trans ?_
  cases p.run Store.apply d <;> rfl

/-- The outcome of a call and the state it leaves. -/
def answer (d : Validations) (call : OverrideCall) : OverrideOutcome × Validations :=
  match d.members.find? (·.userID = call.userID) with
  | none => (.error (.coded Code.notAMember), d)
  | some m =>
      if !canOverride m.role then (.error (.coded Code.overrideRequiresApproverRole), d)
      else if ¬ LongEnough call.reason then (.error (.coded Code.overrideReasonTooShort), d)
      else match (override call).run Store.apply d with
        | .ok (row, after) => (.ok (reportFromRow row), after)
        | .error .noRows => (.error (.coded Code.validationNotFound), d)
        | .error e => (.error e, d)

theorem returns_iff : Returns d call outcome after ↔ (outcome, after) = answer d call := by
  rw [Returns, overrideValidation, returns_inTx, resolveOrg, Prog.run_query, answer]
  cases d.members.find? (·.userID = call.userID) with
  | none => simp only [Except.map, returns_done, Prod.mk.injEq]
  | some m =>
      simp only [Except.map]
      by_cases allowed : canOverride m.role = true
      · simp only [allowed, Bool.not_true, Bool.false_eq_true, if_false, LongEnough, not_le]
        by_cases short : (String.ofList (trimSpace call.reason.toList)).utf8ByteSize <
            overrideReasonMinLength
        · simp only [if_pos short, returns_done, Prod.mk.injEq]
        · simp only [if_neg short, returns_inTx]
          cases (override call).run Store.apply d with
          | ok result => simp only [reportOf, returns_done, Prod.mk.injEq]
          | error e => cases e <;> simp only [reportOf, returns_done, Prod.mk.injEq]
      · simp only [allowed, Bool.not_false, if_true, returns_done, Prod.mk.injEq]

/-! ## What the transaction of a call does -/

theorem getValidation_of_find (found : d.validations.find? (·.batchID = call.batchID) = some row) :
    getValidationForBatch d call.batchID = .ok row := by
  rw [getValidationForBatch, found]

theorem filter_of_keyed {α : Type} {id : α → UUID} {x : α} {rows : List α}
    (keyed : (rows.map id).Nodup) (member : x ∈ rows) :
    rows.filter (fun row => id row = id x) = [x] := by
  induction rows with
  | nil => cases member
  | cons first rows ih =>
      rw [List.map_cons, List.nodup_cons] at keyed
      rcases List.mem_cons.mp member with rfl | later
      · have others : rows.filter (fun row => id row = id x) = [] := by
          rw [List.filter_eq_nil_iff]
          intro row known same
          exact keyed.1 (of_decide_eq_true same ▸ List.mem_map_of_mem known)
        rw [List.filter_cons_of_pos (by simp), others]
      · have different : id first ≠ id x := fun same =>
          keyed.1 (same ▸ List.mem_map_of_mem later)
        rw [List.filter_cons_of_neg (by simpa using different), ih keyed.2 later]

theorem run_override_missing (missing : d.validations.find? (·.batchID = call.batchID) = none) :
    (override call).run Store.apply d = .error .noRows := by
  rw [override, Prog.run_bind, Prog.run_query, getValidationForBatch, missing]
  rfl

theorem run_override_done (found : d.validations.find? (·.batchID = call.batchID) = some row)
    (overridden : row.overriddenAt.isSome) :
    (override call).run Store.apply d = .error (.coded Code.alreadyOverridden) := by
  rw [override, Prog.run_bind, Prog.run_query, getValidation_of_find found]
  simp only [Except.map, Except.bind, if_pos overridden, Prog.fail_bind, Prog.run_fail]

theorem run_override_errors (found : d.validations.find? (·.batchID = call.batchID) = some row)
    (free : row.overriddenAt = none) (errors : row.result.outcome ≠ .validWithWarnings) :
    (override call).run Store.apply d = .error (.coded Code.overrideOnlyOverWarnings) := by
  rw [override, Prog.run_bind, Prog.run_query, getValidation_of_find found]
  simp only [Except.map, Except.bind, free, Option.isSome_none, Bool.false_eq_true, if_false,
    if_pos errors]
  rfl

/-- The update passes the constraints the row keeps when it passes that on the reason. -/
theorem checkOverride_on (checked : checkOverride row = .ok ())
    (warned : row.result.outcome = .validWithWarnings) : checkOverride (call.on row) =
      require (decide (10 ≤ (btrim call.reason.toList).length))
        "import_validations_override_reason_check" := by
  obtain ⟨-, checked⟩ := require_bind_ok.mp checked
  obtain ⟨-, counts⟩ := require_bind_ok.mp checked
  have kept : countsMatchOutcome (call.on row).result = true := require_ok.mp counts
  rw [checkOverride, kept]
  simp only [OverrideCall.on, Option.all_some, Option.isNone_some, Option.isSome_some, warned]
  cases decide (10 ≤ (btrim call.reason.toList).length) <;> rfl

theorem run_recordOverride (sound : d.Sound) (member : row ∈ d.validations)
    (named : row.batchID = call.batchID) (warned : row.result.outcome = .validWithWarnings) :
    (recordOverride call.batchID call.userID call.reason call.now).run Store.apply d =
      if '\x00' ∈ call.reason.toList then .error characterNotInRepertoire
      else (require (decide (10 ≤ (btrim call.reason.toList).length))
        "import_validations_override_reason_check").map fun _ =>
          (1, { d with validations := replaceBy (·.batchID) (call.on row) d.validations }) := by
  have selected : d.validations.filter (·.batchID = call.batchID) = [row] := by
    rw [← named]
    exact filter_of_keyed sound.keyed member
  have checked := @checkOverride_on call row (sound.checked row member) warned
  rw [recordOverride, Prog.run_exec, selected]
  by_cases null : '\x00' ∈ call.reason.toList
  · simp only [if_pos null]
    rfl
  · simp only [if_neg null, List.map_cons, List.map_nil]
    rw [← OverrideCall.on]
    have one : [call.on row].forM checkOverride =
        require (decide (10 ≤ (btrim call.reason.toList).length))
          "import_validations_override_reason_check" := by
      rw [← checked]
      show (checkOverride (call.on row) >>= fun _ => pure PUnit.unit) = _
      cases checkOverride (call.on row) <;> rfl
    rw [one]
    cases decide (10 ≤ (btrim call.reason.toList).length) <;> rfl

/-- Where only the reason can stand against the call, the table's rule decides. -/
theorem run_override_open (sound : d.Sound)
    (found : d.validations.find? (·.batchID = call.batchID) = some row)
    (free : row.overriddenAt = none) (warned : row.result.outcome = .validWithWarnings) :
    if Storable call.reason then
      (override call).run Store.apply d =
        .ok (call.on row, { d with validations := replaceBy (·.batchID) (call.on row) d.validations })
    else
      ∃ e, (override call).run Store.apply d = .error e ∧ e ≠ .noRows ∧ ∀ code, e ≠ .coded code := by
  have member := List.mem_of_find?_eq_some found
  have named : row.batchID = call.batchID := by simpa using List.find?_some found
  have again : (replaceBy (·.batchID) (call.on row) d.validations).find?
      (·.batchID = call.batchID) = some (call.on row) := by
    have placed : call.on row ∈ replaceBy (·.batchID) (call.on row) d.validations :=
      mem_replaceBy_self member rfl
    rw [← named]
    apply find?_of_keyed _ placed
    rw [replaceBy_ids]
    exact sound.keyed
  have recorded := run_recordOverride sound member named warned
  rw [override, Prog.run_bind, Prog.run_query, getValidation_of_find found]
  simp only [Except.map, Except.bind, free, Option.isSome_none, Bool.false_eq_true, if_false,
    warned, ne_eq, not_true_eq_false, Prog.run_bind, recorded]
  by_cases null : '\x00' ∈ call.reason.toList
  · rw [if_neg fun storable : Storable call.reason => storable.1 null]
    simp only [if_pos null]
    exact ⟨_, rfl, nofun, nofun⟩
  · simp only [if_neg null]
    by_cases long : 10 ≤ (btrim call.reason.toList).length
    · rw [if_pos (show Storable call.reason from ⟨null, long⟩)]
      rw [decide_eq_true long]
      show (Prog.query (getValidationForBatch · call.batchID) : ValidationTx ValidationRow).run
        Store.apply _ = _
      rw [Prog.run_query, getValidation_of_find again]
      rfl
    · rw [if_neg fun storable : Storable call.reason => long storable.2]
      refine ⟨.constraint "import_validations_override_reason_check", ?_, nofun, nofun⟩
      rw [decide_eq_false long]
      rfl

/-! ## Recorded or refused -/

theorem refuses_of_named {code : String} (named : code ∈ namedErrors) :
    Refuses d call (.error (.coded code)) d :=
  ⟨rfl, .inl ⟨code, named, rfl⟩⟩

/-- A caller who may override, with a reason of bytes enough. -/
theorem answer_of_long {m : Membership} (found : d.members.find? (·.userID = call.userID) = some m)
    (allowed : canOverride m.role = true) (long : LongEnough call.reason) :
    answer d call = match (override call).run Store.apply d with
      | .ok (row, after) => (.ok (reportFromRow row), after)
      | .error .noRows => (.error (.coded Code.validationNotFound), d)
      | .error e => (.error e, d) := by
  rw [answer, found]
  simp only [allowed, Bool.not_true, Bool.false_eq_true, if_false, long, not_true_eq_false]

theorem answer_of_short {m : Membership} (found : d.members.find? (·.userID = call.userID) = some m)
    (allowed : canOverride m.role = true) (short : ¬ LongEnough call.reason) :
    answer d call = (.error (.coded Code.overrideReasonTooShort), d) := by
  rw [answer, found]
  simp only [allowed, Bool.not_true, Bool.false_eq_true, if_false, short, not_false_eq_true, if_true]

/-- What stands against a call beside its reason is refused by name. -/
theorem refuses_of_barred (barred : ¬ Overridable d call) :
    ∃ refusal, answer d call = (refusal, d) ∧ Refuses d call refusal d := by
  cases found : d.members.find? (·.userID = call.userID) with
  | none =>
      refine ⟨.error (.coded Code.notAMember), by rw [answer, found], rfl, .inr ⟨rfl, ?_⟩⟩
      intro m member
      simpa using List.find?_eq_none.mp found m member
  | some m =>
      by_cases allowed : canOverride m.role = true
      · by_cases long : LongEnough call.reason
        · rw [answer_of_long found allowed long]
          cases stored : d.validations.find? (·.batchID = call.batchID) with
          | none =>
              rw [run_override_missing stored]
              exact ⟨_, rfl, refuses_of_named (by decide)⟩
          | some row =>
              by_cases overridden : row.overriddenAt.isSome
              · rw [run_override_done stored overridden]
                exact ⟨_, rfl, refuses_of_named (by decide)⟩
              · rw [Option.not_isSome_iff_eq_none] at overridden
                have errors : row.result.outcome ≠ .validWithWarnings := fun warned =>
                  barred ⟨⟨m, found, allowed⟩, row, stored, overridden, warned⟩
                rw [run_override_errors stored overridden errors]
                exact ⟨_, rfl, refuses_of_named (by decide)⟩
        · exact ⟨_, answer_of_short found allowed long, refuses_of_named (by decide)⟩
      · have role : Code.overrideRequiresApproverRole ∈ namedErrors := by decide
        refine ⟨_, ?_, refuses_of_named role⟩
        rw [answer, found]
        simp only [allowed, Bool.not_false, if_true]

/-- Where only the reason can stand against a call, the two rules have to agree on it. -/
theorem recordsOrRefuses_of_open (sound : d.Sound) (open_ : Overridable d call) :
    RecordsOrRefuses d call ↔ (LongEnough call.reason ↔ Storable call.reason) := by
  obtain ⟨⟨m, found, allowed⟩, row, stored, free, warned⟩ := open_
  have ran := run_override_open sound stored free warned
  by_cases long : LongEnough call.reason
  · have answered := answer_of_long found allowed long
    by_cases storable : Storable call.reason
    · rw [if_pos storable] at ran
      rw [ran] at answered
      refine iff_of_true ⟨⟨_, _, returns_iff.mpr answered.symm⟩, ?_, fun _ => ?_⟩
        (iff_of_true long storable)
      · intro outcome after returned
        obtain ⟨rfl, rfl⟩ := Prod.mk.inj ((returns_iff.mp returned).trans answered)
        have named : row.batchID = call.batchID := by simpa using List.find?_some stored
        exact .inl ⟨row, List.mem_of_find?_eq_some stored, named, rfl, rfl⟩
      · exact iff_of_true ⟨_, _, returns_iff.mpr answered.symm⟩ storable
    · rw [if_neg storable] at ran
      obtain ⟨e, ran, present, unnamed⟩ := ran
      have failed : answer d call = (.error e, d) := by
        rw [answered, ran]
        cases e <;> first | rfl | exact absurd rfl present
      refine iff_of_false ?_ fun agree => storable (agree.mp long)
      intro either
      rcases either.either _ _ (returns_iff.mpr failed.symm) with ⟨_, _, _, same, _⟩ | ⟨_, refused⟩
      · cases same
      · rcases refused with ⟨code, _, same⟩ | ⟨same, _⟩
        · exact unnamed code (Except.error.inj same)
        · exact unnamed _ (Except.error.inj same)
  · have answered := answer_of_short found allowed long
    have refused : ¬ ∃ report after, Returns d call (.ok report) after := by
      rintro ⟨report, after, returned⟩
      cases (returns_iff.mp returned).trans answered
    constructor
    · intro either
      have accepts := either.accepts ⟨⟨m, found, allowed⟩, row, stored, free, warned⟩
      exact iff_of_false long fun storable => refused (accepts.mpr storable)
    · intro agree
      refine ⟨⟨_, _, returns_iff.mpr answered.symm⟩, ?_, fun _ => ?_⟩
      · intro outcome after returned
        obtain ⟨rfl, rfl⟩ := Prod.mk.inj ((returns_iff.mp returned).trans answered)
        exact .inr (refuses_of_named (by decide))
      · exact iff_of_false refused fun storable => long (agree.mpr storable)

theorem recordsOrRefuses_iff (sound : d.Sound) : RecordsOrRefuses d call ↔
    (Overridable d call → (LongEnough call.reason ↔ Storable call.reason)) := by
  by_cases open_ : Overridable d call
  · rw [recordsOrRefuses_of_open sound open_]
    exact ⟨fun agree _ => agree, fun agree => agree open_⟩
  · obtain ⟨refusal, answered, refuses⟩ := refuses_of_barred open_
    refine iff_of_true ⟨⟨_, _, returns_iff.mpr answered.symm⟩, ?_, fun may => absurd may open_⟩
      fun may => absurd may open_
    intro outcome after returned
    obtain ⟨rfl, rfl⟩ := Prod.mk.inj ((returns_iff.mp returned).trans answered)
    exact .inr refuses

/-! ## Reasons of both kinds -/

theorem sound_warnedBatch : warnedBatch.Sound := by
  constructor
  · decide
  · decide +kernel

/-- A reason of Latin letters is read the same by both rules. -/
theorem recordsOrRefuses_iff_sample :
    RecordsOrRefuses warnedBatch firstCall ∧ Overridable warnedBatch firstCall := by
  refine ⟨(recordsOrRefuses_iff sound_warnedBatch).mpr fun _ => ?_, ?_⟩
  · exact iff_of_true (by decide +kernel) (by decide +kernel)
  · exact ⟨⟨_, rfl, rfl⟩, _, rfl, rfl, rfl⟩

/-- Eight letters of two bytes each: long enough for the code, too short for the table. -/
def shortReason : OverrideCall := { firstCall with reason := "проверил" }

theorem reason_breaks_constraint : ¬ RecordsOrRefuses warnedBatch shortReason := by
  intro either
  have returned : Returns warnedBatch shortReason
      (.error (.constraint "import_validations_override_reason_check")) warnedBatch := by
    rw [returns_iff]
    decide +kernel
  rcases either.either _ _ returned with ⟨_, _, _, same, _⟩ | ⟨_, ⟨code, _, same⟩ | ⟨same, _⟩⟩
  · cases same
  · cases same
  · cases same

end Vekst.Ingest
