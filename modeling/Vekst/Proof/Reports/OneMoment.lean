import Vekst.Isolation.Snapshot
import Vekst.Proof.Ledger.OneLive
import Vekst.Proof.Reports.Agreement

namespace Vekst
open Isolation Ledger Reports

/-! ## A call among other jobs -/

/-- What follows the membership transaction of a call. -/
def joined (req : Request) (prep : Prepared) : Except Failure Unit → Job
  | .error e => .done (.error e)
  | .ok () => inTx reportOutcome (readReport req prep)

theorem managementPNL_eq {req : Request} {prep : Prepared} (prepared : prepare req = .ok prep)
    (userID : UUID) : managementPNL userID req = inTx (joined req prep) (bindMember userID) := by
  simp only [managementPNL, prepared]
  rfl

/-- The call is about to make the first statement of its report. -/
def Opening (req : Request) (j : Nat) (sys : System) : Prop :=
  ∃ client prep, sys.clients[j]? = some client ∧ prepare req = .ok prep ∧
    client.job = some (inTx reportOutcome (readReport req prep))

/-- The call has made a statement of its report and has another one to make. -/
def AmidReport (userID : UUID) (req : Request) (j : Nat) (sys : System) : Prop :=
  ¬ Opening req j sys ∧ ∃ client emit next, sys.clients[j]? = some client ∧
    client.job = some (.stmt emit next) ∧ client.job ≠ some (managementPNL userID req)

/-- Between two statements of the call's report, no commit changes the answer of any of them. -/
def UnchangedAmid (userID : UUID) (req : Request) (j : Nat) : System → Nat → Prop := fun sys i =>
  AmidReport userID req j sys → ∀ prep, prepare req = .ok prep →
    (readReport req prep).Same sys.committed (visible sys.committed (sys.writesOf i))

/-- The report returned, if one is, is that of a state passed at the report's first statement. -/
def FromMoment (userID : UUID) (req : Request) (j : Nat) (passed : List System)
    (outcome : Outcome) : Prop :=
  ∀ report, outcome = .ok (.report report) →
    ∃ mid ∈ passed, Opening req j mid ∧ Reports.managementPNL userID req mid.committed = .ok report

theorem FromMoment.append {userID : UUID} {req : Request} {j : Nat} {passed : List System}
    {outcome : Outcome} (fromMoment : FromMoment userID req j passed outcome) (sys : System) :
    FromMoment userID req j (passed ++ [sys]) outcome := by
  intro report returned
  obtain ⟨mid, known, opening, same⟩ := fromMoment report returned
  exact ⟨mid, List.mem_append_left _ known, opening, same⟩

def Member (userID : UUID) (d : Database) : Prop := d.members.any (·.userID = userID) = true

/-- Where a call is, and what it has answered so far. -/
inductive Calling (userID : UUID) (req : Request) (j : Nat) (passed : List System) (sys : System)
    (client : Client Database Write Failure Question Reply Label Outcome) : Prop
  | waiting (head : client.job = some (.jump (.managementPNL userID req)))
      (empty : client.writes = [])
  | joining (prep : Prepared) (prepared : prepare req = .ok prep)
      (head : client.job = some (inTx (joined req prep) (bindMember userID)))
      (empty : client.writes = [])
  | member (prep : Prepared) (prepared : prepare req = .ok prep)
      (head : client.job = some (inTx (joined req prep) (.ret ()))) (empty : client.writes = [])
      (known : Member userID sys.committed)
  | opening (prep : Prepared) (prepared : prepare req = .ok prep)
      (head : client.job = some (inTx reportOutcome (readReport req prep)))
      (empty : client.writes = []) (known : Member userID sys.committed)
  | reading (prep : Prepared) (prepared : prepare req = .ok prep) (mid : System)
      (before : mid ∈ passed) (opened : Opening req j mid) (then_ : Member userID mid.committed)
      (known : Member userID sys.committed) (rest : Tx Read)
      (reads : Reading (readReport req prep) reportOutcome mid.committed sys.committed client rest)
  | ended (returns : client.Returns (FromMoment userID req j passed))

section Calling

variable {userID : UUID} {req : Request} {j : Nat} {passed : List System} {sys after : System}
  {client moved : Client Database Write Failure Question Reply Label Outcome}

/-- An event of another client keeps the call where it is, or takes it back before its report. -/
theorem Calling.unmoved (calling : Calling userID req j passed sys client)
    (found : sys.clients[j]? = some client)
    (members : after.committed.members = sys.committed.members)
    (unchanged : AmidReport userID req j sys → ∀ prep, prepare req = .ok prep →
      (readReport req prep).Same sys.committed after.committed) :
    Calling userID req j (passed ++ [sys]) after client := by
  have still {d : Database} (same : d.members = sys.committed.members)
      (known : Member userID sys.committed) : Member userID d := by
    rw [Member, same]
    exact known
  cases calling with
  | waiting head empty => exact .waiting head empty
  | joining prep prepared head empty => exact .joining prep prepared head empty
  | member prep prepared head empty known =>
      exact .member prep prepared head empty (still members known)
  | opening prep prepared head empty known =>
      exact .opening prep prepared head empty (still members known)
  | reading prep prepared mid before opened then_ known rest reads =>
      obtain ⟨emit, later, rfl⟩ := reads.running
      have statement := reads.head
      rw [inTx] at statement
      by_cases atOpening : Opening req j sys
      · obtain ⟨other, prep', found', prepared', head⟩ := atOpening
        obtain rfl := Option.some.inj (found.symm.trans found')
        exact .opening prep' prepared' head reads.empty (still members known)
      by_cases atStart : client.job = some (managementPNL userID req)
      · rw [managementPNL_eq prepared] at atStart
        exact .joining prep prepared atStart reads.empty
      have amid : AmidReport userID req j sys :=
        ⟨atOpening, client, _, _, found, statement, atStart⟩
      exact .reading prep prepared mid (List.mem_append_left _ before) opened then_
        (still members known) _ (reads.unmoved (unchanged amid prep prepared))
  | ended returns =>
      exact .ended fun job head => (returns job head).mono fun _ outcome => outcome.append sys

/-- What the call answers once its statements have been answered by one state. -/
theorem fromMoment_of_read {prep : Prepared} (prepared : prepare req = .ok prep) {mid : System}
    (before : mid ∈ passed) (opened : Opening req j mid) (known : Member userID mid.committed)
    {read : Read} (answered : (readReport req prep).run Database.apply mid.committed =
      .ok (read, mid.committed)) :
    FromMoment userID req j passed ((finishReport read).map .report) := by
  intro report returned
  refine ⟨mid, before, opened, ?_⟩
  have joins : (bindMember userID).run Database.apply mid.committed = .ok ((), mid.committed) := by
    unfold Member at known
    rw [bindMember, Prog.run_query, if_pos known]
    rfl
  simp only [Reports.managementPNL, prepared, joins, answered, bind, Except.bind]
  cases finished : finishReport read with
  | error e => simp [finished, Except.map] at returned
  | ok made =>
      simp only [finished, Except.map, Except.ok.injEq, Answer.report.injEq] at returned
      rw [returned]

/-- Reading from the state the report's first statement sees. -/
theorem Calling.read_moves {site : Site} {event : Event} {prep : Prepared}
    (prepared : prepare req = .ok prep) {mid : System} (before : mid ∈ passed)
    (opened : Opening req j mid) (then_ : Member userID mid.committed)
    (known : Member userID sys.committed) {rest : Tx Read}
    (reads : Reading (readReport req prep) reportOutcome mid.committed sys.committed client rest)
    (moves : Moves (body site) sys.committed j client event moved after.committed) :
    Calling userID req j passed after moved := by
  have returned : ∀ read, (readReport req prep).run Store.apply mid.committed =
      .ok (read, mid.committed) → (reportOutcome (.ok read)).Returns
        (FromMoment userID req j passed) :=
    fun read answered => fromMoment_of_read prepared before opened then_ answered
  obtain ⟨same, ⟨rest', reads'⟩ | ended⟩ := reads.moves moves returned fun e _ none_ => nomatch none_
  · rw [← same] at reads' known
    exact .reading prep prepared mid before opened then_ known rest' reads'
  · exact .ended ended

/-- Before its report a call writes nothing, and starts the report only as a member. -/
theorem Calling.join_moves {site : Site} {event : Event} {prep : Prepared}
    (prepared : prepare req = .ok prep)
    (head : client.job = some (inTx (joined req prep) (bindMember userID)))
    (empty : client.writes = []) {later : Database} (committed : after.committed = later)
    (moves : Moves (body site) sys.committed j client event moved later) :
    Calling userID req j passed after moved := by
  have refused : ∀ e, (joined req prep (.error e)).Returns (FromMoment userID req j passed) :=
    by rintro e _ ⟨⟩
  rw [bindMember, Prog.query, inTx] at head
  cases moves with
  | exec statement answer =>
      obtain ⟨rfl, rfl⟩ := Job.stmt.inj (Option.some.inj (head.symm.trans statement))
      rw [empty, visible_nil] at answer
      by_cases known : sys.committed.members.any (·.userID = userID) = true
      · simp only [known, if_true, Except.map, Except.ok.injEq] at answer
        subst answer
        refine .member prep prepared ?_ ?_ (committed ▸ known)
        · simp [empty, known]
        · simp [empty]
      · simp [known, Except.map] at answer
  | refused statement answer =>
      obtain ⟨rfl, rfl⟩ := Job.stmt.inj (Option.some.inj (head.symm.trans statement))
      refine .ended ?_
      rintro _ ⟨⟩
      exact refused _
  | faultStmt e statement =>
      obtain ⟨rfl, rfl⟩ := Job.stmt.inj (Option.some.inj (head.symm.trans statement))
      refine .ended ?_
      rintro _ ⟨⟩
      exact refused _
  | crash =>
      refine .ended ?_
      rintro _ ⟨⟩
  | jump other => cases head.symm.trans other
  | passed other => cases head.symm.trans other
  | violated other => cases head.symm.trans other
  | publish other => cases head.symm.trans other
  | rollback other => cases head.symm.trans other
  | answer response other => cases head.symm.trans other
  | faultCommit e other => cases head.symm.trans other
  | faultAsk e other => cases head.symm.trans other

theorem Calling.member_moves {site : Site} {event : Event} {prep : Prepared}
    (prepared : prepare req = .ok prep)
    (head : client.job = some (inTx (joined req prep) (.ret ()))) (empty : client.writes = [])
    (known : Member userID sys.committed) {later : Database} (committed : after.committed = later)
    (moves : Moves (body site) sys.committed j client event moved later) :
    Calling userID req j passed after moved := by
  have refused : ∀ e, (joined req prep (.error e)).Returns (FromMoment userID req j passed) :=
    by rintro e _ ⟨⟩
  rw [inTx] at head
  cases moves with
  | passed commit unchecked holds => exact .member prep prepared head empty (committed ▸ known)
  | publish commit checked =>
      obtain rfl := Job.commit.inj (Option.some.inj (head.symm.trans commit))
      refine .opening prep prepared rfl rfl ?_
      rw [committed, empty]
      exact known
  | violated commit unchecked fails =>
      obtain rfl := Job.commit.inj (Option.some.inj (head.symm.trans commit))
      refine .ended ?_
      rintro _ ⟨⟩
      exact refused _
  | faultCommit e commit =>
      obtain rfl := Job.commit.inj (Option.some.inj (head.symm.trans commit))
      refine .ended ?_
      rintro _ ⟨⟩
      exact refused _
  | crash =>
      refine .ended ?_
      rintro _ ⟨⟩
  | jump other => cases head.symm.trans other
  | refused other => cases head.symm.trans other
  | exec other => cases head.symm.trans other
  | rollback other => cases head.symm.trans other
  | answer response other => cases head.symm.trans other
  | faultStmt e other => cases head.symm.trans other
  | faultAsk e other => cases head.symm.trans other

/-- The call's own event. -/
theorem Calling.moves {site : Site} {event : Event} (calling : Calling userID req j passed sys client)
    (found : sys.clients[j]? = some client) {later : Database} (committed : after.committed = later)
    (moves : Moves (body site) sys.committed j client event moved later) :
    Calling userID req j (passed ++ [sys]) after moved := by
  cases calling with
  | waiting head empty =>
      cases moves with
      | jump other =>
          obtain rfl := Job.jump.inj (Option.some.inj (head.symm.trans other))
          cases prepared : prepare req with
          | error e =>
              refine .ended ?_
              rintro _ ⟨⟩
              simp [body, managementPNL, prepared, Job.Returns, FromMoment]
          | ok prep =>
              refine .joining prep prepared ?_ empty
              rw [← managementPNL_eq prepared userID]
              rfl
      | crash => exact .ended fun _ job => nomatch job
      | refused other => cases head.symm.trans other
      | exec other => cases head.symm.trans other
      | passed other => cases head.symm.trans other
      | violated other => cases head.symm.trans other
      | publish other => cases head.symm.trans other
      | rollback other => cases head.symm.trans other
      | answer response other => cases head.symm.trans other
      | faultStmt e other => cases head.symm.trans other
      | faultCommit e other => cases head.symm.trans other
      | faultAsk e other => cases head.symm.trans other
  | joining prep prepared head empty => exact .join_moves prepared head empty committed moves
  | member prep prepared head empty known => exact .member_moves prepared head empty known committed moves
  | opening prep prepared head empty known =>
      have opened : Opening req j sys := ⟨client, prep, found, prepared, head⟩
      have silent : (readReport req prep).Silent := by
        apply emits_readReport
        intro d
        rfl
      have reads : Reading (readReport req prep) reportOutcome sys.committed sys.committed client
          (readReport req prep) := .start head empty silent ⟨_, _, rfl⟩
      exact .read_moves prepared (List.mem_append_right _ (by simp)) opened known known reads
        (committed ▸ moves)
  | reading prep prepared mid before opened then_ known rest reads =>
      exact .read_moves prepared (List.mem_append_left _ before) opened then_ known reads
        (committed ▸ moves)
  | ended returns =>
      have later : client.Returns (FromMoment userID req j (passed ++ [sys])) :=
        fun job head => (returns job head).mono fun _ outcome => outcome.append sys
      exact .ended (later.moves moves)

/-- One event of a run in which the call's answers do not change under it. -/
theorem Calling.step {site : Site} {event : Event} (step : Step (body site) sys event after)
    (admitted : AtPublish (UnchangedAmid userID req j) sys event)
    (found : sys.clients[j]? = some client) (calling : Calling userID req j passed sys client) :
    ∃ moved, after.clients[j]? = some moved ∧
      Calling userID req j (passed ++ [sys]) after moved := by
  have inside : j < sys.clients.length := (List.getElem?_eq_some_iff.mp found).1
  cases split_of_step step with
  | spawn label same started =>
      subst started
      refine ⟨client, ?_, calling.unmoved found rfl fun _ _ _ => Prog.same_refl _ _⟩
      rw [List.getElem?_append_left inside]
      exact found
  | move i other moved place moves clients =>
      by_cases own : i = j
      · subst own
        obtain rfl := Option.some.inj (place.symm.trans found)
        refine ⟨moved, ?_, calling.moves found rfl moves⟩
        rw [clients, List.getElem?_set_self inside]
      · refine ⟨client, ?_, ?_⟩
        · rw [clients, List.getElem?_set_ne own]
          exact found
        · rcases moves.committed_eq with same | ⟨rfl, same⟩
          · refine calling.unmoved found (by rw [same]) fun _ prep _ => ?_
            rw [same]
            exact Prog.same_refl _ _
          · refine calling.unmoved found ?_ fun amid prep prepared => ?_
            · rw [same, visible_members]
            · have unchanged := admitted amid prep prepared
              rw [System.writesOf_eq place] at unchanged
              rw [same]
              exact unchanged

end Calling

/-- When no commit between two statements of a report changes one of their answers, the report
returned is that of a committed state the call passed. -/
theorem report_describes_one_moment {site : Site} {userID : UUID} {req : Request}
    {before start sys : System} {passed : List System}
    (called : fire (body site) before (.spawn (.managementPNL userID req)) = some start)
    (trace : Trace (body site) (AtPublish (UnchangedAmid userID req before.clients.length)) start
      passed sys)
    {client} (found : sys.clients[before.clients.length]? = some client) {report : Report}
    (returned : client.job = some (.done (.ok (.report report)))) :
    ∃ mid ∈ passed, Opening req before.clients.length mid ∧
      Reports.managementPNL userID req mid.committed = .ok report := by
  have calling : ∃ client, sys.clients[before.clients.length]? = some client ∧
      Calling userID req before.clients.length passed sys client := by
    clear found returned client
    induction trace with
    | refl =>
        obtain rfl := Option.some.inj called
        refine ⟨.started (.managementPNL userID req), ?_, .waiting rfl rfl⟩
        simp
    | step _ admitted fired ih =>
        obtain ⟨client, found, calling⟩ := ih
        exact calling.step (step_of_fire fired) admitted found
  obtain ⟨other, found', calling⟩ := calling
  obtain rfl := Option.some.inj (found'.symm.trans found)
  cases calling with
  | ended returns => exact returns _ returned report rfl
  | waiting head => cases head.symm.trans returned
  | joining _ _ head => exact absurd (Option.some.inj (head.symm.trans returned)) (inTx_ne_done _ _)
  | member _ _ head => exact absurd (Option.some.inj (head.symm.trans returned)) (inTx_ne_done _ _)
  | opening _ _ head => exact absurd (Option.some.inj (head.symm.trans returned)) (inTx_ne_done _ _)
  | reading _ _ _ _ _ _ _ _ reads =>
      exact absurd (Option.some.inj (reads.head.symm.trans returned)) (inTx_ne_done _ _)

/-! ## A resolution around a report and inside one -/

/-- The report a client has returned. -/
def reportOf (sys : System) (j : Nat) : Option Report := do
  let client ← sys.clients[j]?
  match client.job with
  | some (.done (.ok (.report report))) => some report
  | _ => none

theorem reportOf_eq_some {sys : System} {j : Nat} {report : Report} :
    reportOf sys j = some report ↔ ∃ client, sys.clients[j]? = some client ∧
      client.job = some (.done (.ok (.report report))) := by
  simp only [reportOf, bind, Option.bind_eq_some_iff]
  constructor
  · rintro ⟨client, found, returned⟩
    split at returned
    next same =>
      obtain rfl := Option.some.inj returned
      exact ⟨client, found, same⟩
    next => cases returned
  · rintro ⟨client, found, returned⟩
    exact ⟨client, found, by simp [returned]⟩

/-- Sales and the unclassified bucket of the first column. -/
def Reports.Report.twoFigures (report : Report) : Int64 × Int64 :=
  (report.storedAt netSales 0, report.bucketAt .unclassified 0)

/-- The first client is not at a statement. -/
def BetweenStatements (sys : System) : Bool :=
  match (sys.clients[0]?.bind (·.job) : Option Job) with
  | some (.stmt _ _) => false
  | _ => true

theorem unchangedAmid_of_between {userID : UUID} {req : Request} {sys : System} {i : Nat}
    (between : BetweenStatements sys = true) : UnchangedAmid userID req 0 sys i := by
  rintro ⟨-, client, emit, next, found, head, -⟩
  simp [BetweenStatements, found, head] at between

def resolvedFirst : List Event :=
  [.jump 0, .exec 0, .check 0] ++ resolveEvents ++ [.check 1, .publish 1, .publish 0] ++
    List.replicate 8 (.exec 0) ++ [.check 0, .publish 0]

def resolvedAmid : List Event :=
  [.jump 0, .exec 0, .check 0, .publish 0, .exec 0, .exec 0] ++ resolveEvents ++
    [.check 1, .publish 1] ++ List.replicate 6 (.exec 0) ++ [.check 0, .publish 0]

def sampleCall : System :=
  ⟨sampleLedger, [.started (.managementPNL 7 sampleRequest)]⟩

theorem fire_sampleCall : fire (body sampleSite) (System.idle sampleLedger)
    (.spawn (.managementPNL 7 sampleRequest)) = some sampleCall := rfl

theorem report_describes_one_moment_sample :
    ∃ passed sys report, Trace (body sampleSite) (AtPublish (UnchangedAmid 7 sampleRequest 0))
        sampleCall passed sys ∧
      reportOf sys 0 = some report ∧ report.twoFigures = (120000, 0) ∧
      ∃ mid ∈ passed, Opening sampleRequest 0 mid ∧
        Reports.managementPNL 7 sampleRequest mid.committed = .ok report := by
  have evaluated : (fireAll (body sampleSite) sampleCall resolvedFirst).map
      (fun sys => (reportOf sys 0).map Report.twoFigures) = some (some (120000, 0)) := by
    decide +kernel
  obtain ⟨sys, fired, figures⟩ := Option.map_eq_some_iff.mp evaluated
  obtain ⟨report, returned, sales⟩ := Option.map_eq_some_iff.mp figures
  obtain ⟨client, found, head⟩ := reportOf_eq_some.mp returned
  have quiet : AdmitsAll (body sampleSite)
      (AtPublish fun sys _ => BetweenStatements sys = true) sampleCall resolvedFirst := by
    decide +kernel
  have admitted : AdmitsAll (body sampleSite) (AtPublish (UnchangedAmid 7 sampleRequest 0))
      sampleCall resolvedFirst := by
    refine quiet.mono fun sys event between => ?_
    cases event with
    | publish i => exact unchangedAmid_of_between between
    | _ => trivial
  have trace := Trace.of_fireAll admitted fired
  exact ⟨_, sys, report, trace, returned, sales,
    report_describes_one_moment fire_sampleCall trace found head⟩

/-- The payment is read as unclassified by nothing and as a sale by nothing. -/
theorem report_of_no_moment :
    ¬ ∀ passed sys, Trace (body sampleSite) (fun _ _ => True) sampleCall passed sys →
      ∀ report, reportOf sys 0 = some report →
        ∃ mid ∈ passed, Reports.managementPNL 7 sampleRequest mid.committed = .ok report := by
  intro claimed
  have evaluated : (fireAll (body sampleSite) sampleCall resolvedAmid).map
      (fun sys => (reportOf sys 0).map Report.twoFigures) = some (some (0, 0)) := by
    decide +kernel
  have others : ∀ mid ∈ passing (body sampleSite) sampleCall resolvedAmid,
      (Reports.managementPNL 7 sampleRequest mid.committed).map Report.twoFigures ≠ .ok (0, 0) := by
    decide +kernel
  obtain ⟨sys, fired, figures⟩ := Option.map_eq_some_iff.mp evaluated
  obtain ⟨report, returned, nothing⟩ := Option.map_eq_some_iff.mp figures
  have trace := Trace.of_fireAll (admitsAll fun _ _ => trivial) fired
  obtain ⟨mid, before, same⟩ := claimed _ sys trace report returned
  apply others mid before
  rw [same, Except.map, nothing]

end Vekst
