import Mathlib.Logic.Relation
import Vekst.Proof.Ledger.Emitted
import Vekst.Reports.Queries
import Vekst.Taxonomy.Categories

namespace Vekst.Taxonomy
open Ledger Relational

/-! ## The tree -/

def HangsUnder (table : Table) (row parent : Category) : Prop :=
  row ∈ table ∧ parent ∈ table ∧ row.parentID = some parent.id

/-- The parent links have no cycle, and a row's section is the code of the root it hangs under. -/
structure SectionsFollow (table : Table) : Prop where
  acyclic : ∀ row, ¬ Relation.TransGen (HangsUnder table) row row
  rooted : ∀ row ∈ table, ∃ root ∈ table, Relation.ReflTransGen (HangsUnder table) row root ∧
    root.parentID = none ∧ row.pnlSection = root.code

/-- `categories_pkey`, and every parent link as the trigger on it admits. -/
structure WellFormed (table : Table) : Prop where
  keyed : (table.map (·.id)).Nodup
  parents : ∀ row ∈ table, ∀ id, row.parentID = some id →
    ∃ parent ∈ table, parent.id = id ∧ (parent.orgID = none ∨ parent.orgID = row.orgID)

/-- The row's links lead to a root of this code. -/
inductive Under (table : Table) : Category → String → Prop
  | root {row : Category} (first : row.parentID = none) : Under table row row.code
  | child {row parent : Category} {code : String} (stored : parent ∈ table)
      (link : row.parentID = some parent.id) (under : Under table parent code) : Under table row code

variable {table : Table}

theorem WellFormed.eq_of_id (wellFormed : WellFormed table) {row other : Category}
    (member : row ∈ table) (stored : other ∈ table) (same : row.id = other.id) : row = other :=
  List.inj_on_of_nodup_map wellFormed.keyed member stored same

theorem WellFormed.append (wellFormed : WellFormed table) {new : Category}
    (unused : ∀ other ∈ table, other.id ≠ new.id)
    (parents : ∀ id, new.parentID = some id → ∃ parent ∈ table ++ [new], parent.id = id ∧
      (parent.orgID = none ∨ parent.orgID = new.orgID)) : WellFormed (table ++ [new]) := by
  refine ⟨?_, fun x member id link => ?_⟩
  · rw [List.map_append, List.nodup_append]
    refine ⟨wellFormed.keyed, List.nodup_singleton _, fun id known other member => ?_⟩
    obtain ⟨old, stored, rfl⟩ := List.mem_map.mp known
    rw [List.mem_singleton.mp member]
    exact unused old stored
  · rcases List.mem_append.mp member with known | fresh
    · obtain ⟨parent, stored, named, owned⟩ := wellFormed.parents x known id link
      exact ⟨parent, List.mem_append_left _ stored, named, owned⟩
    · obtain rfl := List.mem_singleton.mp fresh
      exact parents id link

theorem under_unique (keyed : (table.map (·.id)).Nodup) {row : Category} {one other : String}
    (first : Under table row one) (second : Under table row other) : one = other := by
  induction first with
  | root top =>
      cases second with
      | root _ => rfl
      | child _ link _ => exact nomatch top.symm.trans link
  | child stored link _ ih =>
      cases second with
      | root top => exact nomatch top.symm.trans link
      | child stored' link' under =>
          have same := Option.some.inj (link.symm.trans link')
          rw [List.inj_on_of_nodup_map keyed stored stored' same] at ih
          exact ih under

theorem under_acyclic (keyed : (table.map (·.id)).Nodup) {row : Category} {code : String}
    (under : Under table row code) : ¬ Relation.TransGen (HangsUnder table) row row := by
  induction under with
  | root top =>
      intro cycle
      obtain ⟨_, hangs, -⟩ := Relation.TransGen.head'_iff.mp cycle
      exact nomatch top.symm.trans hangs.2.2
  | child stored link _ ih =>
      intro cycle
      obtain ⟨parent, hangs, chain⟩ := Relation.TransGen.head'_iff.mp cycle
      have same := Option.some.inj (link.symm.trans hangs.2.2)
      rw [List.inj_on_of_nodup_map keyed stored hangs.2.1 same] at ih
      exact ih (.tail' chain hangs)

/-- The law in terms of the chains alone. -/
theorem sectionsFollow_iff (wellFormed : WellFormed table) :
    SectionsFollow table ↔ ∀ row ∈ table, Under table row row.pnlSection := by
  constructor
  · intro follows row member
    obtain ⟨root, -, chain, top, same⟩ := follows.rooted row member
    rw [same]
    clear same member
    induction chain using Relation.ReflTransGen.head_induction_on with
    | refl => exact .root top
    | head hangs _ ih => exact .child hangs.2.1 hangs.2.2 ih
  · intro under
    refine ⟨fun row cycle => ?_, fun row member => ?_⟩
    · have member : row ∈ table := by
        obtain ⟨_, hangs, -⟩ := Relation.TransGen.head'_iff.mp cycle
        exact hangs.1
      exact under_acyclic wellFormed.keyed (under row member) cycle
    · have chain := under row member
      generalize row.pnlSection = code at chain
      induction chain with
      | root top => exact ⟨_, member, .refl, top, rfl⟩
      | child stored link _ ih =>
          obtain ⟨root, known, chain, top, same⟩ := ih stored
          exact ⟨root, known, chain.head ⟨member, stored, link⟩, top, same⟩

/-! ## A row moved -/

/-- The new version of a stored row, with the section the trigger gives it. -/
structure Moved (table : Table) (old row : Category) : Prop where
  stored : old ∈ table
  same : row.id = old.id
  owner : row.orgID = old.orgID
  top : row.parentID = none → row.pnlSection = row.code
  under : ∀ id, row.parentID = some id → ∃ parent ∈ table, parent.id = id ∧
    parent.pnlSection = row.pnlSection ∧ (parent.orgID = none ∨ parent.orgID = row.orgID)

/-- The move takes the row under none of its own descendants, and leaves its section while any row
hangs under it. -/
def KeepsTree (table : Table) (old : Category) (parentID : Option UUID) (pnlSection : Option String) :
    Prop :=
  (∀ parent, parentID = some parent.id → ¬ Relation.ReflTransGen (HangsUnder table) parent old) ∧
  ∀ child, HangsUnder table child old → pnlSection = some old.pnlSection

section Move

variable {old row : Category}

theorem Moved.wellFormed (moved : Moved table old row) (wellFormed : WellFormed table) :
    WellFormed (replaceBy (·.id) row table) where
  keyed := by
    rw [replaceBy_ids (fun r : Category => r.id)]
    exact wellFormed.keyed
  parents x member id link := by
    -- A parent is itself or the row's new version, of the same owner.
    have version {parent : Category} (stored : parent ∈ table) (named : parent.id = id)
        (owned : parent.orgID = none ∨ parent.orgID = x.orgID) :
        ∃ parent ∈ replaceBy (·.id) row table, parent.id = id ∧
          (parent.orgID = none ∨ parent.orgID = x.orgID) := by
      by_cases own : parent.id = row.id
      · obtain rfl := wellFormed.eq_of_id stored moved.stored (own.trans moved.same)
        exact ⟨row, mem_replaceBy_self stored own, own.symm.trans named, moved.owner ▸ owned⟩
      · exact ⟨parent, mem_replaceBy_of_ne stored own, named, owned⟩
    rcases mem_replaceBy_cases member with rfl | ⟨known, -⟩
    · obtain ⟨parent, stored, named, -, owned⟩ := moved.under id link
      exact version stored named owned
    · obtain ⟨parent, stored, named, owned⟩ := wellFormed.parents x known id link
      exact version stored named owned

theorem Moved.keeps (moved : Moved table old row) (wellFormed : WellFormed table) {x : Category}
    (member : x ∈ table) (other : x ≠ old) : x ∈ replaceBy (·.id) row table :=
  mem_replaceBy_of_ne member fun same =>
    other (wellFormed.eq_of_id member moved.stored (same.trans moved.same))

/-- Off the row's own subtree nothing changes. -/
theorem under_elsewhere (wellFormed : WellFormed table) (moved : Moved table old row)
    {x : Category} {code : String} (member : x ∈ table) (under : Under table x code)
    (elsewhere : ¬ Relation.ReflTransGen (HangsUnder table) x old) :
    Under (replaceBy (·.id) row table) x code := by
  induction under with
  | root top => exact .root top
  | child stored link _ ih =>
      have apart : ¬ Relation.ReflTransGen (HangsUnder table) _ old :=
        fun chain => elsewhere (chain.head ⟨member, stored, link⟩)
      refine .child (moved.keeps wellFormed stored ?_) link (ih stored apart)
      rintro rfl
      exact apart .refl

theorem under_of_keepsTree (wellFormed : WellFormed table)
    (lawful : ∀ x ∈ table, Under table x x.pnlSection) (moved : Moved table old row)
    (keeps : KeepsTree table old row.parentID (some row.pnlSection)) :
    ∀ x ∈ replaceBy (·.id) row table, Under (replaceBy (·.id) row table) x x.pnlSection := by
  have here : row ∈ replaceBy (·.id) row table := mem_replaceBy_self moved.stored moved.same.symm
  have whole : Under (replaceBy (·.id) row table) row row.pnlSection := by
    cases link : row.parentID with
    | none =>
        rw [moved.top link]
        exact .root link
    | some id =>
        obtain ⟨parent, stored, rfl, section_, -⟩ := moved.under id link
        have apart := keeps.1 parent link
        rw [← section_]
        refine .child (moved.keeps wellFormed stored ?_) link
          (under_elsewhere wellFormed moved stored (lawful parent stored) apart)
        rintro rfl
        exact apart .refl
  have others {x : Category} {code : String} (under : Under table x code) (member : x ∈ table)
      (other : x ≠ old) : Under (replaceBy (·.id) row table) x code := by
    induction under with
    | root top => exact .root top
    | @child x parent code stored link under ih =>
        by_cases own : parent = old
        · subst own
          have code_ := under_unique wellFormed.keyed under (lawful parent stored)
          have same := Option.some.inj (keeps.2 x ⟨member, stored, link⟩)
          rw [code_, ← same]
          exact .child here (moved.same ▸ link) whole
        · exact .child (moved.keeps wellFormed stored own) link (ih stored own)
  intro x member
  rcases mem_replaceBy_cases member with rfl | ⟨known, other⟩
  · exact whole
  · exact others (lawful x known) known fun same => other (same ▸ moved.same.symm)

/-- The parent a chain goes through, read off the section of the row under it. -/
theorem under_parent (keyed : (table.map (·.id)).Nodup) {x parent : Category} {code : String}
    (under : Under table x code) (stored : parent ∈ table) (link : x.parentID = some parent.id) :
    Under table parent code := by
  cases under with
  | root top => exact nomatch top.symm.trans link
  | child known other under =>
      have same := Option.some.inj (other.symm.trans link)
      rw [← List.inj_on_of_nodup_map keyed known stored same]
      exact under

theorem keepsTree_of_under (wellFormed : WellFormed table)
    (lawful : ∀ x ∈ table, Under table x x.pnlSection) (moved : Moved table old row)
    (after : ∀ x ∈ replaceBy (·.id) row table, Under (replaceBy (·.id) row table) x x.pnlSection) :
    KeepsTree table old row.parentID (some row.pnlSection) := by
  have keyed := (moved.wellFormed wellFormed).keyed
  have here : row ∈ replaceBy (·.id) row table := mem_replaceBy_self moved.stored moved.same.symm
  refine ⟨fun parent link chain => ?_, fun child hangs => ?_⟩
  · let version (x : Category) : Category := if x.id = row.id then row else x
    have named (x : Category) : (version x).id = x.id := by
      by_cases own : x.id = row.id <;> simp [version, own]
    have last : version old = row := if_pos moved.same.symm
    -- What led to the row leads to its new version.
    have led {x : Category} (chain : Relation.ReflTransGen (HangsUnder table) x old) :
        Relation.ReflTransGen (HangsUnder (replaceBy (·.id) row table)) (version x) row := by
      induction chain using Relation.ReflTransGen.head_induction_on with
      | refl => exact last ▸ .refl
      | @head x y hangs _ ih =>
          by_cases own : x.id = row.id
          · exact (if_pos own : version x = row) ▸ .refl
          · have kept : version x = x := if_neg own
            rw [kept]
            refine ih.head ⟨mem_replaceBy_of_ne hangs.1 own, List.mem_map_of_mem hangs.2.1, ?_⟩
            rw [named]
            exact hangs.2.2
    have stored : parent ∈ table := by
      rcases Relation.ReflTransGen.cases_head chain with rfl | ⟨_, hangs, -⟩
      · exact moved.stored
      · exact hangs.1
    have cycle : Relation.TransGen (HangsUnder (replaceBy (·.id) row table)) row row :=
      .head' ⟨here, List.mem_map_of_mem stored, (named parent).symm ▸ link⟩ (led chain)
    exact under_acyclic keyed (after row here) cycle
  · have other : child ≠ old := by
      rintro rfl
      exact under_acyclic wellFormed.keyed (lawful child hangs.1) (.single hangs)
    have before := under_parent wellFormed.keyed (lawful child hangs.1) hangs.2.1 hangs.2.2
    have kept := moved.keeps wellFormed hangs.1 other
    have now := under_parent keyed (after child kept) here (moved.same ▸ hangs.2.2)
    rw [under_unique keyed (after row here) now,
      under_unique wellFormed.keyed before (lawful old hangs.2.1)]

theorem sectionsFollow_moved (wellFormed : WellFormed table) (follows : SectionsFollow table)
    (moved : Moved table old row) :
    SectionsFollow (replaceBy (·.id) row table) ↔
      KeepsTree table old row.parentID (some row.pnlSection) := by
  have lawful := (sectionsFollow_iff wellFormed).mp follows
  rw [sectionsFollow_iff (moved.wellFormed wellFormed)]
  exact ⟨keepsTree_of_under wellFormed lawful moved, under_of_keepsTree wellFormed lawful moved⟩

end Move

/-! ## What the triggers admit -/

section Admitted

variable {writer : Writer} {code : String} {parentID : Option UUID} {after : Table}

theorem stated_of_inherited {stated result : Option String} {section_ : String}
    (ok : categorySectionFollowsParent writer table code parentID stated = .ok result)
    (found : inherited writer table code parentID = some section_) : result = some section_ := by
  rw [categorySectionFollowsParent, found] at ok
  cases stated with
  | none => exact (Except.ok.inj ok).symm
  | some text =>
      dsimp only at ok
      split at ok
      next => cases ok
      next agrees =>
        rw [← Except.ok.inj ok, not_not.mp agrees]

theorem parent_of_visible {row : Category} {id : UUID}
    (ok : categoriesParentIsVisible writer table row = .ok ()) (link : row.parentID = some id) :
    ∃ parent ∈ table, parent.id = id ∧ sees writer parent = true ∧
      (parent.orgID = none ∨ parent.orgID = row.orgID) := by
  rw [categoriesParentIsVisible, link] at ok
  obtain ⟨parent, found, owned⟩ := (Option.any_eq_true _ _).mp (require_ok.mp ok)
  have named := List.find?_some found
  rw [Bool.and_eq_true] at named
  rw [Bool.or_eq_true, Option.isNone_iff_eq_none] at owned
  exact ⟨parent, List.mem_of_find?_eq_some found, of_decide_eq_true named.2, named.1,
    owned.imp_right fun same => of_decide_eq_true same⟩

theorem find_visible (wellFormed : WellFormed table) {parent : Category} (stored : parent ∈ table)
    (seen : sees writer parent = true) :
    table.find? (fun row => sees writer row && row.id = parent.id) = some parent := by
  cases first : table.find? fun row => sees writer row && row.id = parent.id with
  | none =>
      have absent := List.find?_eq_none.mp first parent stored
      simp [seen] at absent
  | some other =>
      have named := List.find?_some first
      rw [Bool.and_eq_true] at named
      rw [wellFormed.eq_of_id (List.mem_of_find?_eq_some first) stored (of_decide_eq_true named.2)]

theorem inherited_parent (wellFormed : WellFormed table) {parent : Category}
    (stored : parent ∈ table) (seen : sees writer parent = true) :
    inherited writer table code (some parent.id) = some parent.pnlSection := by
  rw [inherited, find_visible wellFormed stored seen]
  rfl

theorem sees_of_writes {row : Category} (mine : writes writer row = true) :
    sees writer row = true := by
  cases writer with
  | none => rfl
  | some org => simp only [sees, writes] at mine ⊢; simp [mine]

theorem sees_of_owned {row parent : Category} (mine : writes writer row = true)
    (owned : parent.orgID = none ∨ parent.orgID = row.orgID) : sees writer parent = true := by
  cases writer with
  | none => rfl
  | some org =>
      have own : row.orgID = some org := of_decide_eq_true mine
      rcases owned with shared | same
      · simp [sees, shared]
      · simp [sees, same, own]

/-- An update that fires the trigger and is admitted moves the row, to the section it takes over. -/
theorem updateCategory_moves (wellFormed : WellFormed table) {id : UUID} {set : Assignment}
    {old : Category} (found : (table.find? fun row => writes writer row && row.id = id) = some old)
    (fires : set.fires = true) (ok : updateCategory writer id set table = .ok after) :
    ∃ row, Moved table old row ∧ after = replaceBy (·.id) row table ∧
      row.parentID = set.parentID.getD old.parentID ∧
      inherited writer table (set.code.getD old.code) (set.parentID.getD old.parentID) =
        some row.pnlSection := by
  have stored := List.mem_of_find?_eq_some found
  have named := List.find?_some found
  rw [Bool.and_eq_true] at named
  obtain ⟨mine, own⟩ := named
  simp only [updateCategory, found, fires, if_true] at ok
  obtain ⟨filled, triggered, ok⟩ := bind_ok.mp ok
  obtain ⟨section_, present, ok⟩ := bind_ok.mp ok
  obtain ⟨_, -, ok⟩ := bind_ok.mp ok
  obtain ⟨_, -, ok⟩ := bind_ok.mp ok
  obtain ⟨row, new⟩ : ∃ row : Category, row = { old with
      code := set.code.getD old.code
      parentID := set.parentID.getD old.parentID
      pnlSection := section_ } := ⟨_, rfl⟩
  rw [← new] at ok
  have admitted : after = replaceBy (·.id) row table ∧ (set.parentID.isSome = true →
      categoriesParentIsVisible writer (replaceBy (·.id) row table) row = .ok ()) := by
    split at ok
    next =>
      obtain ⟨_, visible, ok⟩ := bind_ok.mp ok
      exact ⟨(Except.ok.inj ok).symm, fun _ => visible⟩
    next unset => exact ⟨(Except.ok.inj ok).symm, fun sets => absurd sets unset⟩
  obtain ⟨rfl, visible⟩ := admitted
  have same : row.id = old.id := by rw [new]
  have owner : row.orgID = old.orgID := by rw [new]
  have parent_ : row.parentID = set.parentID.getD old.parentID := by rw [new]
  have code_ : row.code = set.code.getD old.code := by rw [new]
  have stated : row.pnlSection = section_ := by rw [new]
  -- The new parent is a row of the table as it was, if only this very one.
  have linked (parentID : UUID) (link : row.parentID = some parentID) :
      ∃ parent ∈ table, parent.id = parentID ∧ sees writer parent = true ∧
        (parent.orgID = none ∨ parent.orgID = row.orgID) := by
    cases assigned : set.parentID with
    | none =>
        rw [parent_, assigned] at link
        obtain ⟨parent, known, named, owned⟩ := wellFormed.parents old stored parentID link
        exact ⟨parent, known, named, sees_of_owned mine owned, owner ▸ owned⟩
    | some _ =>
        obtain ⟨parent, known, named, seen, owned⟩ :=
          parent_of_visible (visible (by rw [assigned]; rfl)) link
        rcases mem_replaceBy_cases known with rfl | ⟨other, -⟩
        · exact ⟨old, stored, same.symm.trans named, sees_of_writes mine, .inr owner.symm⟩
        · exact ⟨parent, other, named, seen, owned⟩
  have taken : inherited writer table (set.code.getD old.code) (set.parentID.getD old.parentID) =
      some row.pnlSection := by
    have fills (given : String)
        (found : inherited writer table (set.code.getD old.code) (set.parentID.getD old.parentID) =
          some given) : given = row.pnlSection := by
      rw [stated_of_inherited triggered found] at present
      exact (Except.ok.inj present).trans stated.symm
    cases link : set.parentID.getD old.parentID with
    | none =>
        rw [link] at fills
        rw [← fills _ rfl]
        rfl
    | some parentID =>
        rw [link] at fills
        obtain ⟨parent, known, rfl, seen, -⟩ := linked parentID (parent_.trans link)
        have taken : inherited writer table (set.code.getD old.code) (some parent.id) =
            some parent.pnlSection := inherited_parent wellFormed known seen
        rw [taken, fills _ taken]
  refine ⟨row, ⟨stored, same, owner, fun top => ?_, fun parentID link => ?_⟩, rfl, parent_, taken⟩
  · rw [← parent_, top, inherited] at taken
    exact (code_.trans (Option.some.inj taken)).symm
  · obtain ⟨parent, known, rfl, seen, owned⟩ := linked parentID link
    rw [← parent_, link, inherited_parent wellFormed known seen] at taken
    exact ⟨parent, known, rfl, Option.some.inj taken, owned⟩

/-- An admitted update that fires no trigger sets nothing. -/
theorem updateCategory_idle (wellFormed : WellFormed table) {id : UUID} {set : Assignment}
    {old : Category} (found : (table.find? fun row => writes writer row && row.id = id) = some old)
    (idle : ¬ set.fires = true) (ok : updateCategory writer id set table = .ok after) :
    after = table := by
  have stored := List.mem_of_find?_eq_some found
  obtain ⟨code, parentID, pnlSection⟩ := set
  simp only [Assignment.fires, Bool.or_eq_true, not_or, Bool.not_eq_true,
    Option.isSome_eq_false_iff, Option.isNone_iff_eq_none] at idle
  obtain ⟨⟨rfl, rfl⟩, rfl⟩ := idle
  simp only [updateCategory, found, Assignment.fires, Option.isSome_none, Bool.or_self,
    Bool.false_eq_true, if_false, Option.getD_none] at ok
  obtain ⟨_, kept, ok⟩ := bind_ok.mp ok
  obtain ⟨_, present, ok⟩ := bind_ok.mp ok
  obtain ⟨_, -, ok⟩ := bind_ok.mp ok
  obtain ⟨_, -, ok⟩ := bind_ok.mp ok
  obtain rfl := Except.ok.inj kept
  obtain rfl := Except.ok.inj present
  rw [← Except.ok.inj ok]
  exact replaceBy_eq_self fun row member same => wellFormed.eq_of_id member stored same

theorem Under.mono {larger : Table} {row : Category} {code : String} (under : Under table row code)
    (subset : table ⊆ larger) : Under larger row code := by
  induction under with
  | root top => exact .root top
  | child stored link _ ih => exact .child (subset stored) link ih

/-- An admitted insert keeps the law, unless the row names itself as its parent. -/
theorem insertCategory_follows (wellFormed : WellFormed table) (follows : SectionsFollow table)
    {row : Category} {stated : Option String}
    (ok : insertCategory writer row stated table = .ok after) :
    WellFormed after ∧ (SectionsFollow after ↔ row.parentID ≠ some row.id) := by
  obtain ⟨filled, triggered, ok⟩ := bind_ok.mp ok
  obtain ⟨section_, present, ok⟩ := bind_ok.mp ok
  obtain ⟨_, -, ok⟩ := bind_ok.mp ok
  obtain ⟨_, fresh, ok⟩ := bind_ok.mp ok
  obtain ⟨_, -, ok⟩ := bind_ok.mp ok
  obtain ⟨_, -, ok⟩ := bind_ok.mp ok
  obtain ⟨_, visible, ok⟩ := bind_ok.mp ok
  obtain ⟨new, made⟩ : ∃ new : Category, new = { row with pnlSection := section_ } := ⟨_, rfl⟩
  rw [← made] at ok visible
  have same : row.id = new.id := by rw [made]
  have parent_ : row.parentID = new.parentID := by rw [made]
  have code_ : row.code = new.code := by rw [made]
  have stated_ : section_ = new.pnlSection := by rw [made]
  obtain rfl := Except.ok.inj ok
  have unused : ∀ other ∈ table, other.id ≠ new.id := by
    have all := List.all_eq_true.mp (require_ok.mp fresh)
    exact fun other member => same ▸ of_decide_eq_true (all other member)
  have wellFormed_ : WellFormed (table ++ [new]) := wellFormed.append unused fun id link => by
    obtain ⟨parent, stored, named, -, owned⟩ := parent_of_visible visible link
    exact ⟨parent, stored, named, owned⟩
  have here : new ∈ table ++ [new] := List.mem_append_right _ (List.mem_singleton_self new)
  refine ⟨wellFormed_, fun after own => ?_, fun other => ?_⟩
  · exact after.acyclic new (.single ⟨here, here, (parent_.symm.trans own).trans (congrArg some same)⟩)
  · have lawful := (sectionsFollow_iff wellFormed).mp follows
    have fills (given : String)
        (found : inherited writer table row.code row.parentID = some given) :
        given = new.pnlSection := by
      rw [stated_of_inherited triggered found] at present
      exact (Except.ok.inj present).trans stated_
    refine (sectionsFollow_iff wellFormed_).mpr fun x member => ?_
    rcases List.mem_append.mp member with known | fresh
    · exact (lawful x known).mono (List.subset_append_left _ _)
    · obtain rfl := List.mem_singleton.mp fresh
      cases link : x.parentID with
      | none =>
          rw [parent_, link] at fills
          rw [← fills _ rfl, code_]
          exact .root link
      | some id =>
          obtain ⟨parent, stored, rfl, seen, -⟩ := parent_of_visible visible link
          rcases List.mem_append.mp stored with known | self
          · have taken : inherited writer table row.code (some parent.id) =
                some parent.pnlSection := inherited_parent wellFormed known seen
            rw [parent_, link] at fills
            rw [← fills _ taken]
            exact .child stored link ((lawful parent known).mono (List.subset_append_left _ _))
          · rw [List.mem_singleton.mp self, ← same, ← parent_] at link
            exact absurd link other

end Admitted

/-! ## Every sequence of statements -/

/-- An insert names another row as the parent. An update takes the row under none of its own
descendants, and to the section it has while any row hangs under it. -/
def Statement.KeepsTree (table : Table) : Statement → Prop
  | .insert _ row _ => row.parentID ≠ some row.id
  | .update writer id set => set.fires = true → ∀ old,
      (table.find? fun row => writes writer row && row.id = id) = some old →
      Taxonomy.KeepsTree table old (set.parentID.getD old.parentID)
        (inherited writer table (set.code.getD old.code) (set.parentID.getD old.parentID))

/-- A step: what an admitted statement leaves keeps the law just when it keeps the tree. -/
theorem statement_follows (wellFormed : WellFormed table) (follows : SectionsFollow table)
    {statement : Statement} {after : Table} (ok : statement.run table = .ok after) :
    WellFormed after ∧ (SectionsFollow after ↔ statement.KeepsTree table) := by
  cases statement with
  | insert writer row stated => exact insertCategory_follows wellFormed follows ok
  | update writer id set =>
      cases found : table.find? fun row => writes writer row && row.id = id with
      | none =>
          have same : after = table := by
            simp only [Statement.run, updateCategory, found] at ok
            exact (Except.ok.inj ok).symm
          subst same
          exact ⟨wellFormed, fun _ _ old known => (nomatch found.symm.trans known), fun _ => follows⟩
      | some old =>
          by_cases fires : set.fires = true
          · obtain ⟨row, moved, rfl, parent_, taken⟩ := updateCategory_moves wellFormed found fires ok
            refine ⟨moved.wellFormed wellFormed, ?_⟩
            rw [sectionsFollow_moved wellFormed follows moved, parent_, ← taken]
            constructor
            · intro keeps _ other known
              obtain rfl := Option.some.inj (found.symm.trans known)
              exact keeps
            · exact fun keeps => keeps fires old found
          · obtain rfl := updateCategory_idle wellFormed found fires ok
            exact ⟨wellFormed, fun _ fires_ => absurd fires_ fires, fun _ => follows⟩

/-- Whatever an organisation has classified is reported under the root of its category. -/
def ReportsFollow (table : Table) : Prop :=
  ∀ (org : UUID) (d : Database), d.categories = visibleRows org table →
    ∀ args, ∀ line ∈ Reports.classifiedRows d args, ∃ row ∈ table, ∃ root ∈ table,
      row.toCategoryRow = line.2 ∧ Relation.ReflTransGen (HangsUnder table) row root ∧
      root.parentID = none ∧ (Reports.reportKey line).pnlSection = root.code

theorem SectionsFollow.reports (follows : SectionsFollow table) : ReportsFollow table := by
  intro org d reads args line classified
  have category := (mem_innerJoin.mp classified).2.1
  rw [reads] at category
  obtain ⟨row, seen, same⟩ := List.mem_map.mp category
  have member := (List.mem_filter.mp seen).1
  obtain ⟨root, stored, chain, top, section_⟩ := follows.rooted row member
  refine ⟨row, member, root, stored, same, chain, top, ?_⟩
  rw [Reports.reportKey, ← same]
  exact section_

/-- The law in every table reached, and in every report read from it. -/
def FollowThroughout (table : Table) : List Statement → Prop
  | [] => SectionsFollow table ∧ ReportsFollow table
  | statement :: rest => (SectionsFollow table ∧ ReportsFollow table) ∧
      FollowThroughout (statement.after table) rest

/-- Every statement admitted keeps the tree it finds. -/
def KeepThroughout (table : Table) : List Statement → Prop
  | [] => True
  | statement :: rest =>
      (∀ after, statement.run table = .ok after → statement.KeepsTree table) ∧
        KeepThroughout (statement.after table) rest

/-- The sections follow the tree in every table reached just when every statement admitted keeps
the tree. -/
theorem sections_follow_iff (wellFormed : WellFormed table) (follows : SectionsFollow table)
    (statements : List Statement) :
    FollowThroughout table statements ↔ KeepThroughout table statements := by
  induction statements generalizing table with
  | nil => exact ⟨fun _ => trivial, fun _ => ⟨follows, follows.reports⟩⟩
  | cons statement rest ih =>
      rw [FollowThroughout, KeepThroughout, Statement.after]
      cases ran : statement.run table with
      | error e =>
          rw [ih wellFormed follows]
          exact ⟨fun both => ⟨nofun, both.2⟩, fun both => ⟨⟨follows, follows.reports⟩, both.2⟩⟩
      | ok after =>
          obtain ⟨wellFormed_, iff_⟩ := statement_follows wellFormed follows ran
          have first : FollowThroughout after rest → SectionsFollow after := by
            intro all
            cases rest with
            | nil => exact all.1
            | cons _ _ => exact all.1.1
          constructor
          · rintro ⟨-, later⟩
            have now := first later
            refine ⟨fun _ _ => iff_.mp now, (ih wellFormed_ now).mp later⟩
          · rintro ⟨keeps, later⟩
            have now := iff_.mpr (keeps after rfl)
            exact ⟨⟨follows, follows.reports⟩, (ih wellFormed_ now).mpr later⟩

/-! ## A root renamed over its leaf -/

def sampleRoot : Category where
  id := 1
  taxonomyVersion := "v1"
  code := "X1"
  name := "Own section"
  pnlSection := ""
  isPNL := true
  isLeaf := false
  isComputed := false
  requiresAllocation := false
  orgID := some 7
  parentID := none

def sampleLeaf : Category :=
  { sampleRoot with id := 2, code := "X101", name := "Own leaf", isLeaf := true, parentID := some 1 }

def renameRoot : Statement := .update (some 7) 1 ⟨some "X2", none, some none⟩

theorem sections_follow_sample :
    FollowThroughout [] [.insert (some 7) sampleRoot none, renameRoot,
      .insert (some 7) sampleLeaf none] := by
  have empty : WellFormed [] := ⟨List.nodup_nil, nofun⟩
  have follows : SectionsFollow [] := (sectionsFollow_iff empty).mpr nofun
  refine (sections_follow_iff empty follows _).mpr ⟨fun _ _ => nofun, fun _ _ fires old found => ?_,
    fun _ _ => (by decide : sampleLeaf.parentID ≠ some sampleLeaf.id), trivial⟩
  obtain rfl : { sampleRoot with pnlSection := "X1" } = old := Option.some.inj found
  refine ⟨fun _ link => (nomatch link), fun child hangs => ?_⟩
  obtain rfl := List.mem_singleton.mp hangs.1
  exact nomatch hangs.2.2

theorem renamed_root_fails : ¬ ∀ statements : List Statement, FollowThroughout [] statements := by
  intro claimed
  have follows := claimed [.insert (some 7) sampleRoot none, .insert (some 7) sampleLeaf none,
    renameRoot]
  have last : SectionsFollow [{ sampleRoot with code := "X2", pnlSection := "X2" },
      { sampleLeaf with pnlSection := "X1" }] := follows.2.2.2.1
  obtain ⟨root, member, -, top, same⟩ := last.rooted _ (List.mem_cons_of_mem _ (List.mem_cons_self ..))
  rcases List.mem_cons.mp member with rfl | leaf
  · exact absurd same (by decide)
  · obtain rfl := List.mem_singleton.mp leaf
    cases top

end Vekst.Taxonomy
