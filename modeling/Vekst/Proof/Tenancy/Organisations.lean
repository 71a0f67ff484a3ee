import Vekst.Isolation.Order
import Vekst.Proof.Ledger.Emitted
import Vekst.Tenancy.Organisations

namespace Vekst.Tenancy
open Isolation Taxonomy

/-! ## Complete organisations -/

/-- The organisation's own row of a template row, under a parent where the template names one. -/
def Adopts (org : UUID) (r : TemplateRow) (copy : Category) : Prop :=
  ∃ id parentID section_, parentID.isSome = r.parentCode.isSome ∧
    copy = { adoptedRow taxonomyVersion org id parentID r with pnlSection := section_ }

/-- An organisation as a call creates it, with one category of its own for each template row. -/
structure Organisation (s : Service) where
  call : Call
  copies : Table
  adopted : List.Forall₂ (Adopts call.orgID) (industryTemplate s.templates taxonomyVersion) copies

/-- The organisation, its entity, its categories and its owner. -/
def Organisation.writes {s : Service} (o : Organisation s) : List Write :=
  [.insertOrganization o.call.organization, .insertEntity o.call.entity] ++
    o.copies.map .insertCategory ++ [.insertMembership o.call.membership]

def Whole (s : Service) (writes : List Write) : Prop := ∃ o : Organisation s, writes = o.writes

theorem not_whole_nil {s : Service} : ¬ Whole s [] := by
  rintro ⟨o, same⟩
  simp [Organisation.writes] at same

variable {s : Service} {d : Database} {call : Call}

/-! ## The transaction -/

theorem insertCategory_ok {writer : Writer} {row : Category} {table after : Table}
    (inserted : Taxonomy.insertCategory writer row none table = .ok after) :
    ∃ section_, after = table ++ [{ row with pnlSection := section_ }] := by
  obtain ⟨_, -, inserted⟩ := bind_ok.mp inserted
  obtain ⟨section_, -, inserted⟩ := bind_ok.mp inserted
  refine ⟨section_, ?_⟩
  obtain ⟨_, -, inserted⟩ := bind_ok.mp inserted
  obtain ⟨_, -, inserted⟩ := bind_ok.mp inserted
  obtain ⟨_, -, inserted⟩ := bind_ok.mp inserted
  obtain ⟨_, -, inserted⟩ := bind_ok.mp inserted
  obtain ⟨_, -, inserted⟩ := bind_ok.mp inserted
  exact (Except.ok.inj inserted).symm

theorem resolveParent_isSome {globals own : ByCode} {r : TemplateRow} {parentID : Option UUID}
    (resolved : resolveParent globals own r = .ok parentID) :
    parentID.isSome = r.parentCode.isSome := by
  unfold resolveParent at resolved
  split at resolved
  next none_ =>
    obtain rfl := Except.ok.inj resolved
    rw [none_]
    rfl
  next code named =>
    rw [named]
    split at resolved
    next id found =>
      obtain rfl := Except.ok.inj resolved
      rfl
    next =>
      split at resolved
      next id found =>
        obtain rfl := Except.ok.inj resolved
        rfl
      next => cases resolved

/-- The writes of a body are what it ends with; no guarantee is asked on the way. -/
abbrev Ends {α : Type} (p : TenancyTx α) (pending : List Write) (post : α → List Write → Prop) :
    Prop :=
  p.wp (fun _ _ _ => True) post pending

theorem ends_insertRow {checks : Database → Except Failure Unit} {write : Write}
    {pending : List Write} {post : Unit → List Write → Prop} (after : post () (pending ++ [write])) :
    Ends (insertRow checks write) pending post := by
  apply Prog.wp_exec
  intro d writes answer did
  split at did
  next =>
    obtain ⟨rfl, rfl⟩ := Prod.mk.inj (Except.ok.inj did)
    exact ⟨trivial, after⟩
  next => cases did

theorem ends_adoptRows {org : UUID} {draw : Nat → UUID} {globals : ByCode} (rows : List TemplateRow)
    (n : Nat) (own : ByCode) (pending : List Write) :
    Ends (adoptRows taxonomyVersion org draw globals rows n own) pending fun _ writes =>
      ∃ copies, List.Forall₂ (Adopts org) rows copies ∧
        writes = pending ++ copies.map .insertCategory := by
  induction rows generalizing n own pending with
  | nil => exact ⟨[], .nil, by simp⟩
  | cons r rest ih =>
      rw [adoptRows]
      apply Prog.wp_bind
      apply Prog.wp_ofExcept
      intro parentID known
      have resolved := mapError_ok.mp known
      apply Prog.wp_bind
      apply Prog.wp_exec
      intro d writes answer did
      split at did
      next after inserted =>
        obtain ⟨section_, rfl⟩ := insertCategory_ok inserted
        obtain ⟨rfl, -⟩ := Prod.mk.inj (Except.ok.inj did)
        refine ⟨trivial, Prog.wp_mono (ih (n + 1) _ _) ?_⟩
        rintro _ _ ⟨copies, adopted, rfl⟩
        have copied : Adopts org r
            { adoptedRow taxonomyVersion org (draw n) parentID r with pnlSection := section_ } :=
          ⟨draw n, parentID, section_, resolveParent_isSome resolved, rfl⟩
        refine ⟨_ :: copies, .cons copied adopted, ?_⟩
        rw [List.drop_left, List.append_assoc]
        rfl
      next => cases did

/-- A transaction that commits has written a complete organisation. -/
theorem ends_organizationTx :
    Ends (organizationTx s call) [] fun _ writes => ∃ o : Organisation s, o.call = call ∧
      writes = o.writes := by
  apply Prog.wp_bind
  apply ends_insertRow
  apply Prog.wp_bind
  apply ends_insertRow
  apply Prog.wp_bind
  apply Prog.wp_bind
  apply Prog.wp_query
  rintro _ rows ⟨⟩
  refine ⟨trivial, ?_⟩
  apply Prog.wp_bind
  apply Prog.wp_query
  rintro _ shared ⟨⟩
  refine ⟨trivial, ?_⟩
  apply Prog.wp_mono (ends_adoptRows _ _ _ _)
  rintro _ _ ⟨copies, adopted, rfl⟩
  apply ends_insertRow
  exact ⟨⟨call, copies, adopted⟩, rfl, rfl⟩

theorem single_createOrganization :
    (createOrganization s call).Single (Whole s) [] [] := by
  unfold createOrganization
  split_ifs with creator tenant
  · trivial
  · trivial
  · refine single_inTx (Prog.wp_mono ends_organizationTx ?_) fun e => trivial
    rintro _ _ ⟨o, rfl, rfl⟩
    refine ⟨fun _ => ⟨rfl, o, rfl⟩, ?_⟩
    refine single_inTx (Prog.wp_query ?_) fun e => trivial
    intro d answer read
    exact ⟨trivial, fun some_ => absurd rfl some_, trivial⟩

/-- A call publishes nothing, or a complete organisation in one commit. -/
theorem single_create (s : Service) (call : Call) : (create s call).Single (Whole s) [] [] := by
  unfold create
  split_ifs with name entity country currency
  · trivial
  · trivial
  · trivial
  · refine single_inTx (Prog.wp_query ?_) fun e => trivial
    intro d memberships read
    refine ⟨trivial, fun some_ => absurd rfl some_, ?_⟩
    show (membershipsChecked s call (.ok memberships)).Single (Whole s) [] []
    rw [membershipsChecked]
    split_ifs with member
    · trivial
    · exact single_createOrganization
  · trivial

/-! ## Members -/

def Write.membership : Write → Option MembershipRow
  | .insertMembership row => some row
  | _ => none

theorem memberships_visible (d : Database) (writes : List Write) :
    (visible d writes).memberships = d.memberships ++ writes.filterMap Write.membership := by
  induction writes generalizing d with
  | nil => simp
  | cons w writes ih =>
      show (visible (d.apply w) writes).memberships = _
      rw [ih]
      cases w <;> simp [Database.apply, Write.membership, List.filterMap_cons]

theorem Organisation.memberships (o : Organisation s) :
    o.writes.filterMap Write.membership = [o.call.membership] := by
  have none_ : (o.copies.map Write.insertCategory).filterMap Write.membership = [] := by
    rw [List.filterMap_map]
    exact List.filterMap_eq_nil_iff.mpr fun _ _ => rfl
  rw [Organisation.writes, List.filterMap_append, List.filterMap_append, none_]
  rfl

theorem memberships_created (created : List (Nat × Organisation s)) :
    (created.flatMap fun by_ => by_.2.writes).filterMap Write.membership =
      created.map fun by_ => by_.2.call.membership := by
  induction created with
  | nil => rfl
  | cons by_ created ih =>
      rw [List.flatMap_cons, List.filterMap_append, ih, by_.2.memberships]
      rfl

/-! ## Every run -/

/-- No membership is committed of a user who has one by then. -/
def Unjoined : TenancySystem → TenancyEvent → Prop :=
  AtPublish fun sys i => ∀ row ∈ (sys.writesOf i).filterMap Write.membership,
    ∀ member ∈ sys.committed.memberships, member.userID ≠ row.userID

/-- What a run has created, and which of its calls created it, in the order of the commits. -/
structure CreatedBy (s : Service) (d : Database) (sent : Sent Write) (sys : TenancySystem)
    (created : List (Nat × Organisation s)) : Prop where
  committed : sys.committed = visible d (created.flatMap fun by_ => by_.2.writes)
  once : (created.map Prod.fst).Nodup
  complete : ∀ by_ ∈ created, sent by_.1 = by_.2.writes
  nothing : ∀ i, i ∉ created.map Prod.fst → sent i = []

variable {sent : Sent Write} {sys : TenancySystem}
  {admits : TenancySystem → TenancyEvent → Prop}

theorem exists_created {order : List Nat} (whole : ∀ i ∈ order, Whole s (sent i)) :
    ∃ created : List (Nat × Organisation s), created.map Prod.fst = order ∧
      ∀ by_ ∈ created, sent by_.1 = by_.2.writes := by
  induction order with
  | nil => exact ⟨[], rfl, by simp⟩
  | cons i order ih =>
      obtain ⟨created, same, complete⟩ := ih fun j known => whole j (List.mem_cons_of_mem i known)
      obtain ⟨o, wrote⟩ := whole i List.mem_cons_self
      refine ⟨(i, o) :: created, by rw [List.map_cons, same], fun by_ member => ?_⟩
      rcases List.mem_cons.mp member with rfl | later
      · exact wrote
      · exact complete by_ later

theorem flatMap_created {created : List (Nat × Organisation s)}
    (complete : ∀ by_ ∈ created, sent by_.1 = by_.2.writes) :
    (created.map Prod.fst).flatMap sent = created.flatMap fun by_ => by_.2.writes := by
  rw [List.flatMap_map]
  exact List.flatMap_congr complete

/-- A list whose every element is apart from those before it. -/
theorem pairwise_of_split {α : Type} {R : α → α → Prop} {items : List α}
    (apart : ∀ earlier x later, items = earlier ++ x :: later → ∀ y ∈ earlier, R y x) :
    items.Pairwise R := by
  induction items using List.reverseRecOn with
  | nil => exact .nil
  | append_singleton items x ih =>
      rw [List.pairwise_append]
      refine ⟨ih fun earlier y later split => ?_, List.pairwise_singleton R x, fun y known z last => ?_⟩
      · exact apart earlier y (later ++ [x]) (by simp [split])
      · rw [List.mem_singleton.mp last]
        exact apart items x [] rfl y known

/-- Where no commit makes a member of a member, each user owns one organisation of those created,
and every call has left a complete one or nothing. -/
theorem one_organisation_each (logged : Logged (create s) Unjoined d.idle sent sys) :
    ∃ created, CreatedBy s d sent sys created ∧
      (created.map fun by_ => by_.2.call.userID).Nodup ∧
      ∀ by_ ∈ created, ∀ member ∈ d.memberships, member.userID ≠ by_.2.call.userID := by
  obtain ⟨order, ordered⟩ := logged.ordered (single_create s) not_whole_nil rfl
  obtain ⟨created, rfl, complete⟩ := exists_created ordered.whole
  have committed := ordered.committed
  rw [flatMap_created complete] at committed
  -- At its commit, what is committed is what those before it have created.
  have apart (earlier : List (Nat × Organisation s)) (by_ : Nat × Organisation s)
      (later : List (Nat × Organisation s)) (split : created = earlier ++ by_ :: later) :
      ∀ member ∈ (visible d (earlier.flatMap fun by_ => by_.2.writes)).memberships,
        member.userID ≠ by_.2.call.userID := by
    obtain ⟨before, same, wrote, admitted⟩ := ordered.admitted (earlier.map Prod.fst) by_.1
      (later.map Prod.fst) (by simp [split])
    rw [flatMap_created fun other known => complete other (by simp [split, known])] at same
    have owner : by_.2.call.membership ∈ (before.writesOf by_.1).filterMap Write.membership := by
      rw [wrote, complete by_ (by simp [split]), by_.2.memberships]
      exact List.mem_singleton_self _
    have fresh := admitted _ owner
    rw [same] at fresh
    exact fresh
  refine ⟨created, ⟨committed, ordered.nodup, complete, ordered.unsent⟩, ?_, fun by_ known member old => ?_⟩
  · rw [List.Nodup, List.pairwise_map]
    refine pairwise_of_split fun earlier by_ later split other known => ?_
    refine apart earlier by_ later split other.2.call.membership ?_
    rw [memberships_visible, memberships_created]
    exact List.mem_append_right _ (List.mem_map_of_mem known)
  · obtain ⟨earlier, later, split⟩ := List.append_of_mem known
    refine apart earlier by_ later split member ?_
    rw [memberships_visible]
    exact List.mem_append_left _ old

/-! ## Two calls side by side -/

def sampleService : Service := ⟨[⟨"v1", "01", none, 1, "NET SALES", true, true⟩]⟩

def sampleUsers : Database := ⟨[1, 2], [], [], [], []⟩

def sampleCall (userID orgID : UUID) : Call where
  userID := userID
  new := ⟨"Test Org", "BY", "BYN", "Test Entity"⟩
  orgID := orgID
  entityID := orgID + 1
  categoryIDs n := orgID + 2 + n

/-- A call up to its check of the memberships, and its transaction after it. -/
def checkEvents (i : Nat) : List TenancyEvent := [.jump i, .exec i, .check i, .publish i]

def createEvents (i : Nat) : List TenancyEvent :=
  [.exec i, .exec i, .exec i, .exec i, .exec i, .exec i, .check i, .publish i]

/-- Both check before either creates. -/
def besideEvents (first second : Call) : List TenancyEvent :=
  [.spawn first, .spawn second] ++ checkEvents 0 ++ checkEvents 1 ++ createEvents 0 ++ createEvents 1

def besideMembers (first second : Call) : Option (List MembershipRow) :=
  (fireAll (create sampleService) sampleUsers.idle (besideEvents first second)).map
    (·.committed.memberships)

instance (sys : TenancySystem) (event : TenancyEvent) : Decidable (Unjoined sys event) :=
  inferInstanceAs (Decidable (AtPublish (fun sys i =>
    ∀ row ∈ (sys.writesOf i).filterMap Write.membership,
      ∀ member ∈ sys.committed.memberships, member.userID ≠ row.userID) sys event))

theorem one_organisation_each_sample : ∃ sent sys created,
    sys.committed.memberships = [⟨10, 1, "owner"⟩, ⟨20, 2, "owner"⟩] ∧
      CreatedBy sampleService sampleUsers sent sys created ∧
      (created.map fun by_ => by_.2.call.userID).Nodup := by
  have evaluated : besideMembers (sampleCall 1 10) (sampleCall 2 20) =
      some [⟨10, 1, "owner"⟩, ⟨20, 2, "owner"⟩] := by decide +kernel
  have unjoined : AdmitsAll (create sampleService) Unjoined sampleUsers.idle
      (besideEvents (sampleCall 1 10) (sampleCall 2 20)) := by decide +kernel
  obtain ⟨sys, fired, members⟩ := Option.map_eq_some_iff.mp evaluated
  obtain ⟨sent, logged⟩ := (Run.of_fireAll unjoined fired).logged
  obtain ⟨created, by_, apart, -⟩ := one_organisation_each logged
  exact ⟨sent, sys, created, members, by_, apart⟩

/-- One user's double submit: both calls find no membership, and both commit. -/
theorem double_submit_creates_two :
    ¬ ∀ (s : Service) (d : Database) (sent : Sent Write) (sys : TenancySystem),
      Logged (create s) (fun _ _ => True) d.idle sent sys →
        ∃ created, CreatedBy s d sent sys created ∧
          (created.map fun by_ => by_.2.call.userID).Nodup := by
  intro claimed
  have evaluated : besideMembers (sampleCall 1 10) (sampleCall 1 20) =
      some [⟨10, 1, "owner"⟩, ⟨20, 1, "owner"⟩] := by decide +kernel
  obtain ⟨sys, fired, members⟩ := Option.map_eq_some_iff.mp evaluated
  have run := Run.of_fireAll (admitsAll fun _ _ => trivial) fired
  obtain ⟨sent, logged⟩ := run.logged
  obtain ⟨created, by_, apart⟩ := claimed _ _ sent sys logged
  rw [by_.committed, memberships_visible, memberships_created] at members
  have users : created.map (fun by_ => by_.2.call.userID) = [1, 1] := by
    have mapped := congrArg (List.map MembershipRow.userID) members
    rw [List.map_append, List.map_map] at mapped
    exact mapped
  rw [users] at apart
  simp at apart

end Vekst.Tenancy
