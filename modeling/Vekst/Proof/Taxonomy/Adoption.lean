import Vekst.Proof.Taxonomy.Sections
import Vekst.Taxonomy.Template

namespace Vekst.Taxonomy
open Ledger Relational

/-! ## The template -/

/-- What the constraints of `category_templates` admit: a code of two characters a level, and a
parent code that is the code less its last two. -/
structure Admitted (templates : List TemplateRow) : Prop where
  keyed : (templates.map fun r => (r.taxonomyVersion, r.code)).Nodup
  levels : ∀ r ∈ templates, 1 ≤ r.level ∧ r.level ≤ 5
  encodes : ∀ r ∈ templates, r.code.toList.length = r.level * 2
  parents : ∀ r ∈ templates, ∀ code, r.parentCode = some code →
    ∃ a b, r.code.toList = code.toList ++ [a, b]

section
variable {templates : List TemplateRow} {version : String}

theorem mem_industryTemplate {r : TemplateRow} :
    r ∈ industryTemplate templates version ↔ r ∈ templates ∧ r.taxonomyVersion = version := by
  rw [industryTemplate, List.mem_insertionSort, List.mem_filter, decide_eq_true_eq]

instance : Std.Total fun a b : TemplateRow => a.level < b.level ∨ a.level = b.level ∧ a.code ≤ b.code where
  total a b := by
    rcases lt_trichotomy a.level b.level with less | same | more
    · exact .inl (.inl less)
    · exact (le_total a.code b.code).imp (fun le => .inr ⟨same, le⟩) fun le => .inr ⟨same.symm, le⟩
    · exact .inr (.inl more)

instance : IsTrans TemplateRow fun a b => a.level < b.level ∨ a.level = b.level ∧ a.code ≤ b.code where
  trans a b c first second := by
    rcases first with less | ⟨same, le⟩
    · rcases second with less' | ⟨same', -⟩
      · exact .inl (less.trans less')
      · exact .inl (same' ▸ less)
    · rcases second with less' | ⟨same', le'⟩
      · exact .inl (same ▸ less')
      · exact .inr ⟨same.trans same', le.trans le'⟩

/-- The rows in the order of adoption: no row before one of a lower level, and no code twice. -/
theorem Admitted.ordered (admitted : Admitted templates) :
    (industryTemplate templates version).Pairwise fun a b => a.level ≤ b.level ∧ a.code ≠ b.code := by
  have sorted := (templates.filter (·.taxonomyVersion = version)).pairwise_insertionSort
    fun a b => a.level < b.level ∨ a.level = b.level ∧ a.code ≤ b.code
  have once : (industryTemplate templates version).Nodup :=
    (List.perm_insertionSort _ _).nodup_iff.mpr (admitted.keyed.of_map.filter _)
  refine List.Pairwise.imp_of_mem ?_ (sorted.and once)
  rintro a b first second ⟨le, other⟩
  obtain ⟨aStored, aVersion⟩ := mem_industryTemplate.mp first
  obtain ⟨bStored, bVersion⟩ := mem_industryTemplate.mp second
  refine ⟨le.elim Nat.le_of_lt fun same => same.1.le, fun same => other ?_⟩
  exact List.inj_on_of_nodup_map admitted.keyed aStored bStored
    (Prod.ext (aVersion.trans bVersion.symm) same)

/-- A parent is of a lower level. -/
theorem Admitted.level_lt (admitted : Admitted templates) {r t : TemplateRow} (known : r ∈ templates)
    (other : t ∈ templates) (names : r.parentCode = some t.code) : t.level < r.level := by
  obtain ⟨a, b, code⟩ := admitted.parents r known t.code names
  have lengths := congrArg List.length code
  rw [List.length_append, admitted.encodes r known, admitted.encodes t other] at lengths
  simp only [List.length_cons, List.length_nil] at lengths
  omega

end

/-! ## The maps -/

theorem lookup_eq_some_mem {known : ByCode} {code : String} {id : UUID}
    (found : known.lookup code = some id) : (code, id) ∈ known := by
  induction known with
  | nil => cases found
  | cons entry rest ih =>
      obtain ⟨own, value⟩ := entry
      rw [List.lookup_cons] at found
      split at found
      next same =>
        obtain rfl := Option.some.inj found
        rw [eq_of_beq same]
        exact List.mem_cons_self
      next => exact List.mem_cons_of_mem _ (ih found)

theorem lookup_eq_none_iff {known : ByCode} {code : String} :
    known.lookup code = none ↔ ∀ entry ∈ known, entry.1 ≠ code := by
  rw [List.lookup_eq_none_iff]
  constructor
  · intro differs entry member same
    exact absurd same.symm (bne_iff_ne.mp (differs entry member))
  · intro differs entry member
    exact bne_iff_ne.mpr (differs entry member).symm

theorem mem_globalByCode {taxonomy : Table} {entry : String × UUID} :
    entry ∈ globalByCode taxonomy ↔
      ∃ c ∈ taxonomy, c.orgID = none ∧ entry = (c.code, c.id) := by
  have from_ (known : ByCode) : entry ∈ taxonomy.foldl
      (fun known c => if c.orgID.isNone then (c.code, c.id) :: known else known) known ↔
        (∃ c ∈ taxonomy, c.orgID = none ∧ entry = (c.code, c.id)) ∨ entry ∈ known := by
    induction taxonomy generalizing known with
    | nil => simp
    | cons head taxonomy ih =>
        rw [List.foldl_cons, ih]
        cases owner : head.orgID with
        | none =>
            simp only [Option.isNone_none, if_true, List.mem_cons, exists_eq_or_imp, owner, true_and,
              or_assoc]
            exact or_left_comm
        | some org => simp [owner]
  rw [globalByCode, from_ []]
  simp

theorem mem_effectiveTaxonomy {org : UUID} {version : String} {table : Table} {row : Category} :
    row ∈ effectiveTaxonomy org version table ↔
      row ∈ table ∧ sees (some org) row = true ∧ row.taxonomyVersion = version := by
  rw [effectiveTaxonomy, List.mem_insertionSort, List.mem_filter, Bool.and_eq_true,
    decide_eq_true_eq]

/-- The entries are the shared categories of the version. -/
theorem mem_shared {org : UUID} {version : String} {table : Table} {code : String} {id : UUID} :
    (code, id) ∈ globalByCode (effectiveTaxonomy org version table) ↔
      ∃ c ∈ table, c.orgID = none ∧ c.taxonomyVersion = version ∧ c.code = code ∧ c.id = id := by
  rw [mem_globalByCode]
  constructor
  · rintro ⟨c, read, shared, same⟩
    obtain ⟨stored, -, version⟩ := mem_effectiveTaxonomy.mp read
    obtain ⟨rfl, rfl⟩ := Prod.mk.inj same
    exact ⟨c, stored, shared, version, rfl, rfl⟩
  · rintro ⟨c, stored, shared, version, rfl, rfl⟩
    have seen : sees (some org) c = true := by simp [sees, shared]
    exact ⟨c, mem_effectiveTaxonomy.mpr ⟨stored, seen, version⟩, shared, rfl⟩

/-! ## The copies -/

/-- The row names a parent code that neither the template nor the shared taxonomy has. -/
def Unresolved (rows : List TemplateRow) (version : String) (table : Table) (r : TemplateRow) :
    Prop :=
  ∃ code, r.parentCode = some code ∧ (∀ t ∈ rows, t.code ≠ code) ∧
    ∀ c ∈ table, c.orgID = none → c.taxonomyVersion = version → c.code ≠ code

/-- The parent of a row's copy, where the row names one: the own copy where the template has the
code, the shared category where it has not. -/
structure Parent (rows : List TemplateRow) (version : String) (table copies : Table)
    (r : TemplateRow) (parentID : Option UUID) : Prop where
  top : r.parentCode = none → parentID = none
  under : ∀ code, r.parentCode = some code → ∃ parent, parentID = some parent.id ∧
    parent.code = code ∧ ((∃ t ∈ rows, t.code = code) → parent ∈ copies) ∧
    ((∀ t ∈ rows, t.code ≠ code) →
      parent ∈ table ∧ parent.orgID = none ∧ parent.taxonomyVersion = version)

/-- The organisation's copy of a template row. -/
structure Copy (rows : List TemplateRow) (version : String) (org : UUID) (table copies : Table)
    (r : TemplateRow) (copy : Category) : Prop where
  owner : copy.orgID = some org
  version_ : copy.taxonomyVersion = version
  code : copy.code = r.code
  name : copy.name = r.name
  leaf : copy.isLeaf = r.isLeaf
  pnl : copy.isPNL = r.isPNL
  parent : Parent rows version table copies r copy.parentID

theorem Parent.mono {rows : List TemplateRow} {version : String} {table copies : Table}
    {r : TemplateRow} {parentID : Option UUID} (found : Parent rows version table copies r parentID)
    (more : Table) : Parent rows version table (copies ++ more) r parentID where
  top := found.top
  under code names := by
    obtain ⟨parent, link, same, own, shared⟩ := found.under code names
    exact ⟨parent, link, same, fun known => List.mem_append_left _ (own known), shared⟩

theorem Copy.mono {rows : List TemplateRow} {version : String} {org : UUID} {table copies : Table}
    {r : TemplateRow} {copy : Category} (is : Copy rows version org table copies r copy)
    (more : Table) : Copy rows version org table (copies ++ more) r copy :=
  { is with parent := is.parent.mono more }

/-- The section a row takes over: its own code, or the section of a parent it may see. -/
def TakesOver (table : Table) (org : UUID) (code : String) : Option UUID → String → Prop
  | none, section_ => section_ = code
  | some id, section_ => ∃ parent ∈ table, parent.id = id ∧ parent.pnlSection = section_ ∧
      (parent.orgID = none ∨ parent.orgID = some org)

/-- An insert of the organisation's own row whose parent it may see, under an identifier and a code
that are free, is admitted with the section it takes over. -/
theorem insertCategory_of {table : Table} (wellFormed : WellFormed table) {org : UUID}
    {row : Category} {section_ : String} (own : row.orgID = some org) (plain : row.isComputed = false)
    (fresh : ∀ other ∈ table, other.id ≠ row.id)
    (free : ∀ other ∈ table, other.orgID = some org → other.code ≠ row.code)
    (takes : TakesOver table org row.code row.parentID section_) :
    insertCategory (some org) row none table = .ok (table ++ [{ row with pnlSection := section_ }]) := by
  have inherits : inherited (some org) table row.code row.parentID = some section_ := by
    cases link : row.parentID with
    | none =>
        rw [link] at takes
        obtain rfl : section_ = row.code := takes
        rfl
    | some id =>
        rw [link] at takes
        obtain ⟨parent, stored, rfl, rfl, owned⟩ := takes
        exact inherited_parent wellFormed stored
          (@sees_of_owned (some org) row parent (decide_eq_true own) (own ▸ owned))
  have triggered : categorySectionFollowsParent (some org) table row.code row.parentID none =
      .ok (some section_) := by
    simp only [categorySectionFollowsParent, inherits]
  obtain ⟨new, made⟩ : ∃ new : Category, new = { row with pnlSection := section_ } := ⟨_, rfl⟩
  have id_ : new.id = row.id := by rw [made]
  have owner : new.orgID = some org := by rw [made, ← own]
  have code_ : new.code = row.code := by rw [made]
  have link_ : new.parentID = row.parentID := by rw [made]
  have plain_ : new.isComputed = false := by rw [made, ← plain]
  have columns : checkColumns table new = .ok () := by
    refine bind_ok.mpr ⟨(), require_ok.mpr (by simp [plain_]), require_ok.mpr ?_⟩
    rw [List.all_eq_true]
    intro other member
    by_cases mine : other.orgID = some org
    · simp [code_, free other member mine]
    · simp [owner, mine]
  have parented : checkParent (table ++ [new]) new = .ok () ∧
      categoriesParentIsVisible (some org) (table ++ [new]) new = .ok () := by
    cases link : row.parentID with
    | none => simp [checkParent, categoriesParentIsVisible, link_, link, require]
    | some id =>
        rw [link] at takes
        obtain ⟨parent, stored, rfl, -, owned⟩ := takes
        have seen : sees (some org) parent = true :=
          @sees_of_owned (some org) row parent (decide_eq_true own) (own ▸ owned)
        have found : (table ++ [new]).find? (fun other => sees (some org) other && other.id = parent.id) =
            some parent := by
          rw [List.find?_append, find_visible wellFormed stored seen]
          rfl
        constructor
        · refine require_ok.mpr ?_
          rw [link_, link, Option.all_some, List.any_eq_true]
          exact ⟨parent, List.mem_append_left _ stored, decide_eq_true rfl⟩
        · rw [categoriesParentIsVisible, link_, link]
          refine require_ok.mpr ?_
          rw [found, Option.any_some, owner]
          rcases owned with shared | mine
          · simp [shared]
          · simp [mine]
  rw [← made]
  refine bind_ok.mpr ⟨some section_, triggered, bind_ok.mpr ⟨section_, rfl, ?_⟩⟩
  rw [← made]
  refine bind_ok.mpr ⟨(), require_ok.mpr (decide_eq_true owner), bind_ok.mpr ⟨(), require_ok.mpr ?_,
    bind_ok.mpr ⟨(), columns, bind_ok.mpr ⟨(), parented.1, bind_ok.mpr ⟨(), parented.2, rfl⟩⟩⟩⟩⟩
  rw [List.all_eq_true]
  intro other member
  exact decide_eq_true (id_ ▸ fresh other member)

/-! ## The loop -/

/-- What the loop has done: one copy for each row behind it, and a map from their codes. -/
structure Adopting (rows : List TemplateRow) (version : String) (org : UUID) (draw : Nat → UUID)
    (table : Table) (done_ : List TemplateRow) (copies : Table) (orgByCode : ByCode) : Prop where
  wellFormed : WellFormed (table ++ copies)
  matched : List.Forall₂ (Copy rows version org table copies) done_ copies
  known : ∀ entry, entry ∈ orgByCode ↔ ∃ copy ∈ copies, entry = (copy.code, copy.id)
  drawn : ∀ copy ∈ copies, ∃ k < done_.length, copy.id = draw k
  sections : (∀ c ∈ table, c.orgID = none → c.taxonomyVersion = version →
      Under table c c.pnlSection) → ∀ copy ∈ copies, Under (table ++ copies) copy copy.pnlSection

section
variable {rows done_ rest : List TemplateRow} {version : String} {org : UUID} {draw : Nat → UUID}
  {table copies : Table} {orgByCode : ByCode} {r : TemplateRow} {parentID : Option UUID}

theorem Parent.stored (found : Parent rows version table copies r parentID)
    (matched : List.Forall₂ (Copy rows version org table copies) done_ copies) {id : UUID}
    (link : parentID = some id) : ∃ parent ∈ table ++ copies, parent.id = id ∧
      (parent ∈ copies ∨
        parent ∈ table ∧ parent.orgID = none ∧ parent.taxonomyVersion = version) ∧
      (parent.orgID = none ∨ parent.orgID = some org) := by
  cases named : r.parentCode with
  | none => exact nomatch (found.top named).symm.trans link
  | some code =>
      obtain ⟨parent, same, -, own, shared⟩ := found.under code named
      obtain rfl := Option.some.inj (same.symm.trans link)
      by_cases copied : ∃ t ∈ rows, t.code = code
      · have member := own copied
        obtain ⟨_, -, copy⟩ := exists_left_of_forall₂ matched member
        exact ⟨parent, List.mem_append_right _ member, rfl, .inl member, .inr copy.owner⟩
      · have none_ : ∀ t ∈ rows, t.code ≠ code := fun t known same => copied ⟨t, known, same⟩
        obtain ⟨stored, owner, version_⟩ := shared none_
        exact ⟨parent, List.mem_append_left _ stored, rfl, .inr ⟨stored, owner, version_⟩, .inl owner⟩

/-- A code of the template is behind the loop when a row under it comes up. -/
theorem Adopting.copied (adopting : Adopting rows version org draw table done_ copies orgByCode)
    (split_ : rows = done_ ++ r :: rest)
    (ordered : rows.Pairwise fun a b => a.level ≤ b.level ∧ a.code ≠ b.code)
    (lower : ∀ t ∈ rows, r.parentCode = some t.code → t.level < r.level) {t : TemplateRow}
    (known : t ∈ rows) (names : r.parentCode = some t.code) : ∃ copy ∈ copies, copy.code = t.code := by
  have less := lower t known names
  have behind : t ∈ done_ := by
    rw [split_] at known ordered
    rcases List.mem_append.mp known with behind | ahead
    · exact behind
    · have later := (List.pairwise_append.mp ordered).2.1
      rcases List.mem_cons.mp ahead with rfl | ahead
      · exact absurd less (lt_irrefl _)
      · exact absurd ((List.pairwise_cons.mp later).1 t ahead).1 (not_le.mpr less)
  obtain ⟨copy, member, is⟩ := exists_right_of_forall₂ adopting.matched behind
  exact ⟨copy, member, is.code⟩

/-- The two maps give a row its parent, or the row is unresolved. -/
theorem Adopting.resolveParent (adopting : Adopting rows version org draw table done_ copies orgByCode)
    (split_ : rows = done_ ++ r :: rest)
    (ordered : rows.Pairwise fun a b => a.level ≤ b.level ∧ a.code ≠ b.code)
    (lower : ∀ t ∈ rows, r.parentCode = some t.code → t.level < r.level) :
    (∃ parentID, Taxonomy.resolveParent (globalByCode (effectiveTaxonomy org version table))
        orgByCode r = .ok parentID ∧ Parent rows version table copies r parentID) ∨
      (∃ failure, Taxonomy.resolveParent (globalByCode (effectiveTaxonomy org version table))
        orgByCode r = .error failure) ∧ Unresolved rows version table r := by
  unfold Taxonomy.resolveParent
  cases named : r.parentCode with
  | none => exact .inl ⟨none, rfl, fun _ => rfl, fun code some_ => nomatch named.symm.trans some_⟩
  | some code =>
      have behind {t : TemplateRow} (known : t ∈ rows) (same : t.code = code) :
          ∃ copy ∈ copies, copy.code = code := by
        subst same
        exact adopting.copied split_ ordered lower known named
      cases own : orgByCode.lookup code with
      | some id =>
          obtain ⟨copy, member, same⟩ := (adopting.known _).mp (lookup_eq_some_mem own)
          obtain ⟨rfl, rfl⟩ := Prod.mk.inj same
          refine .inl ⟨some copy.id, by simp only [own], fun none_ => (nomatch named.symm.trans none_), ?_⟩
          intro code some_
          obtain rfl := Option.some.inj (named.symm.trans some_)
          refine ⟨copy, rfl, rfl, fun _ => member, fun absent => ?_⟩
          obtain ⟨t, known, is⟩ := exists_left_of_forall₂ adopting.matched member
          exact absurd is.code.symm (absent t (split_ ▸ List.mem_append_left _ known))
      | none =>
          have uncopied {t : TemplateRow} (known : t ∈ rows) : t.code ≠ code := by
            intro same
            obtain ⟨copy, member, rfl⟩ := behind known same
            exact lookup_eq_none_iff.mp own _ ((adopting.known _).mpr ⟨copy, member, rfl⟩) rfl
          cases shared : (globalByCode (effectiveTaxonomy org version table)).lookup code with
          | some id =>
              obtain ⟨c, stored, owner, version_, rfl, rfl⟩ :=
                mem_shared.mp (lookup_eq_some_mem shared)
              refine .inl ⟨some c.id, by simp only [own, shared],
                fun none_ => (nomatch named.symm.trans none_), ?_⟩
              intro code some_
              obtain rfl := Option.some.inj (named.symm.trans some_)
              refine ⟨c, rfl, rfl, fun ⟨t, known, same⟩ => absurd same (uncopied known), fun _ => ?_⟩
              exact ⟨stored, owner, version_⟩
          | none =>
              refine .inr ⟨⟨.unresolvedParent r.code code, by simp only [own, shared]⟩, code, named, fun t => uncopied, ?_⟩
              rintro c stored owner version_ rfl
              exact lookup_eq_none_iff.mp shared _
                (mem_shared.mpr ⟨c, stored, owner, version_, rfl, rfl⟩) rfl

theorem Parent.resolved (found : Parent rows version table copies r parentID) :
    ¬ Unresolved rows version table r := by
  rintro ⟨code, named, unknown, unshared⟩
  obtain ⟨parent, -, same, -, shared⟩ := found.under code named
  obtain ⟨stored, owner, version_⟩ := shared unknown
  exact unshared parent stored owner version_ same

/-- A step of the loop: the row is copied, under the parent the maps give it. -/
theorem Adopting.step (adopting : Adopting rows version org draw table done_ copies orgByCode)
    (new : ∀ row ∈ table, row.orgID ≠ some org) (fresh : ∀ k, ∀ row ∈ table, row.id ≠ draw k)
    (injective : Function.Injective draw) (uncopied : ∀ t ∈ done_, t.code ≠ r.code)
    (found : Parent rows version table copies r parentID) :
    ∃ copy, insertCategory (some org) (adoptedRow version org (draw done_.length) parentID r) none
        (table ++ copies) = .ok (table ++ (copies ++ [copy])) ∧
      Adopting rows version org draw table (done_ ++ [r]) (copies ++ [copy])
        ((r.code, draw done_.length) :: orgByCode) := by
  have unused : ∀ other ∈ table ++ copies, other.id ≠ draw done_.length := by
    intro other member
    rcases List.mem_append.mp member with stored | copied
    · exact fresh _ other stored
    · obtain ⟨k, before, same⟩ := adopting.drawn other copied
      rw [same]
      exact fun again => before.ne (injective again)
  have free : ∀ other ∈ table ++ copies, other.orgID = some org → other.code ≠ r.code := by
    intro other member mine
    rcases List.mem_append.mp member with stored | copied
    · exact absurd mine (new other stored)
    · obtain ⟨t, behind, is⟩ := exists_left_of_forall₂ adopting.matched copied
      rw [is.code]
      exact uncopied t behind
  obtain ⟨section_, takes⟩ : ∃ section_, TakesOver (table ++ copies) org r.code parentID section_ := by
    cases link : parentID with
    | none => exact ⟨_, rfl⟩
    | some id =>
        obtain ⟨parent, stored, named, -, owned⟩ := found.stored adopting.matched link
        exact ⟨_, parent, stored, named, rfl, owned⟩
  obtain ⟨copy, made⟩ : ∃ copy : Category, copy =
      { adoptedRow version org (draw done_.length) parentID r with pnlSection := section_ } :=
    ⟨_, rfl⟩
  have inserted := @insertCategory_of _ adopting.wellFormed org
    (adoptedRow version org (draw done_.length) parentID r) section_ rfl rfl unused free takes
  rw [← made, List.append_assoc] at inserted
  have id_ : copy.id = draw done_.length := by rw [made, adoptedRow]
  have owner : copy.orgID = some org := by rw [made, adoptedRow]
  have code_ : copy.code = r.code := by rw [made, adoptedRow]
  have link_ : copy.parentID = parentID := by rw [made, adoptedRow]
  have stated : copy.pnlSection = section_ := by rw [made]
  have wellFormed : WellFormed (table ++ copies ++ [copy]) := by
    refine adopting.wellFormed.append (id_ ▸ unused) fun id link => ?_
    obtain ⟨parent, stored, named, -, owned⟩ := found.stored adopting.matched (link_ ▸ link)
    exact ⟨parent, List.mem_append_left _ stored, named, owner ▸ owned⟩
  have is : Copy rows version org table (copies ++ [copy]) r copy :=
    ⟨owner, by rw [made, adoptedRow], code_, by rw [made, adoptedRow], by rw [made, adoptedRow],
      by rw [made, adoptedRow], link_ ▸ found.mono [copy]⟩
  refine ⟨copy, inserted, by rwa [← List.append_assoc], ?_, ?_, ?_, ?_⟩
  · exact List.rel_append (adopting.matched.imp fun _ _ other => other.mono [copy]) (.cons is .nil)
  · intro entry
    rw [List.mem_cons, adopting.known]
    simp only [List.mem_append, List.mem_singleton]
    constructor
    · rintro (rfl | ⟨other, member, rfl⟩)
      · exact ⟨copy, .inr rfl, by rw [code_, id_]⟩
      · exact ⟨other, .inl member, rfl⟩
    · rintro ⟨other, member | rfl, rfl⟩
      · exact .inr ⟨other, member, rfl⟩
      · exact .inl (by rw [code_, id_])
  · intro other member
    rw [List.length_append, List.length_singleton]
    rcases List.mem_append.mp member with behind | last
    · obtain ⟨k, before, same⟩ := adopting.drawn other behind
      exact ⟨k, by omega, same⟩
    · rw [List.mem_singleton.mp last]
      exact ⟨done_.length, by omega, id_⟩
  · intro lawful other member
    have sections := adopting.sections lawful
    rw [← List.append_assoc]
    have grows : table ++ copies ⊆ table ++ copies ++ [copy] := List.subset_append_left _ _
    rcases List.mem_append.mp member with behind | last
    · exact (sections other behind).mono grows
    · rw [List.mem_singleton.mp last, stated]
      cases link : parentID with
      | none =>
          rw [link] at takes link_
          obtain rfl : section_ = r.code := takes
          rw [← code_]
          exact .root link_
      | some id =>
          obtain ⟨parent, stored, rfl, from_, -⟩ := found.stored adopting.matched link
          rw [link] at takes link_
          obtain ⟨same, known, named, rfl, -⟩ := takes
          obtain rfl := adopting.wellFormed.eq_of_id known stored named
          refine .child (grows stored) link_ (Under.mono ?_ grows)
          rcases from_ with copied | ⟨shared, owner, version_⟩
          · exact sections _ copied
          · exact (lawful _ shared owner version_).mono (List.subset_append_left _ _)

/-- The loop copies the rows before it, or meets one that is unresolved. -/
theorem Adopting.run (adopting : Adopting rows version org draw table done_ copies orgByCode)
    (split_ : rows = done_ ++ rest) (new : ∀ row ∈ table, row.orgID ≠ some org)
    (fresh : ∀ k, ∀ row ∈ table, row.id ≠ draw k) (injective : Function.Injective draw)
    (ordered : rows.Pairwise fun a b => a.level ≤ b.level ∧ a.code ≠ b.code)
    (lower : ∀ r ∈ rows, ∀ t ∈ rows, r.parentCode = some t.code → t.level < r.level) :
    ((∃ failure, adoptRows version org draw (globalByCode (effectiveTaxonomy org version table)) rest
        done_.length orgByCode (table ++ copies) = .error failure) ∧
      ∃ r ∈ rest, Unresolved rows version table r) ∨
    (∃ all map, adoptRows version org draw (globalByCode (effectiveTaxonomy org version table)) rest
        done_.length orgByCode (table ++ copies) = .ok (table ++ all) ∧
      Adopting rows version org draw table rows all map ∧
      ∀ r ∈ rest, ¬ Unresolved rows version table r) := by
  induction rest generalizing done_ copies orgByCode with
  | nil =>
      rw [List.append_nil] at split_
      subst split_
      exact .inr ⟨copies, orgByCode, rfl, adopting, by simp⟩
  | cons r rest ih =>
      have known : r ∈ rows := split_ ▸ List.mem_append_right _ List.mem_cons_self
      have uncopied : ∀ t ∈ done_, t.code ≠ r.code := by
        rw [split_] at ordered
        exact fun t behind => ((List.pairwise_append.mp ordered).2.2 t behind r List.mem_cons_self).2
      rw [adoptRows]
      rcases adopting.resolveParent split_ ordered (lower r known) with
        ⟨parentID, resolves, found⟩ | ⟨⟨failure, fails⟩, unresolved⟩
      · obtain ⟨copy, inserts, next⟩ := adopting.step new fresh injective uncopied found
        rw [resolves]
        simp only [bind, Except.bind, inserts, Except.mapError]
        have splitNext : rows = (done_ ++ [r]) ++ rest := by
          rw [split_, List.append_assoc]
          rfl
        have later := ih next splitNext
        rw [List.length_append, List.length_singleton] at later
        rcases later with ⟨fails, r', member, unresolved⟩ | ⟨all, map, succeeds, adopted, resolved⟩
        · exact .inl ⟨fails, r', List.mem_cons_of_mem _ member, unresolved⟩
        · refine .inr ⟨all, map, succeeds, adopted, ?_⟩
          intro r' member
          rcases List.mem_cons.mp member with rfl | tail
          · exact found.resolved
          · exact resolved r' tail
      · rw [fails]
        exact .inl ⟨⟨failure, rfl⟩, r, List.mem_cons_self, unresolved⟩

end

/-- Adoption fails, and leaves the table, exactly when a row of the template names a parent code that
neither the template nor the shared taxonomy has; otherwise each row has one copy, under the parent
it names, and the sections of the copies follow the tree if those of the shared categories do. -/
theorem adoption_builds_tree {templates : List TemplateRow} (admitted : Admitted templates)
    {table : Table} (wellFormed : WellFormed table) {version : String} {org : UUID}
    (new : ∀ row ∈ table, row.orgID ≠ some org) {draw : Nat → UUID}
    (fresh : ∀ k, ∀ row ∈ table, row.id ≠ draw k) (injective : Function.Injective draw) :
    ((∃ failure, adoptIndustryTemplate templates version org draw table = .error failure) ↔
      ∃ r ∈ industryTemplate templates version,
        Unresolved (industryTemplate templates version) version table r) ∧
    ((∃ failure, adoptIndustryTemplate templates version org draw table = .error failure) →
      afterAdoption templates version org draw table = table) ∧
    ∀ after, adoptIndustryTemplate templates version org draw table = .ok after →
      ∃ copies, after = table ++ copies ∧ WellFormed after ∧
        List.Forall₂ (Copy (industryTemplate templates version) version org table copies)
          (industryTemplate templates version) copies ∧
        (∀ row ∈ after, row.orgID = some org ↔ row ∈ copies) ∧
        ((∀ c ∈ table, c.orgID = none → c.taxonomyVersion = version → Under table c c.pnlSection) →
          ∀ copy ∈ copies, Under after copy copy.pnlSection) := by
  have start : Adopting (industryTemplate templates version) version org draw table [] [] [] :=
    ⟨by rwa [List.append_nil], .nil, by simp, by simp, by simp⟩
  have lower : ∀ r ∈ industryTemplate templates version, ∀ t ∈ industryTemplate templates version,
      r.parentCode = some t.code → t.level < r.level := fun r known t other =>
    admitted.level_lt (mem_industryTemplate.mp known).1 (mem_industryTemplate.mp other).1
  have ran := start.run (List.nil_append _).symm new fresh injective admitted.ordered lower
  rw [List.append_nil] at ran
  change (∃ failure, adoptIndustryTemplate templates version org draw table = .error failure) ∧ _ ∨
    (∃ all map, adoptIndustryTemplate templates version org draw table = .ok _ ∧ _) at ran
  rcases ran with ⟨⟨failure, fails⟩, unresolved⟩ | ⟨all, map, succeeds, adopted, resolved⟩
  · refine ⟨⟨fun _ => unresolved, fun _ => ⟨failure, fails⟩⟩, fun _ => ?_, fun after succeeds => ?_⟩
    · rw [afterAdoption, fails]
    · exact nomatch fails.symm.trans succeeds
  · have none_ : ¬ ∃ failure, adoptIndustryTemplate templates version org draw table =
        .error failure := by
      rintro ⟨failure, fails⟩
      exact nomatch fails.symm.trans succeeds
    refine ⟨⟨fun fails => absurd fails none_, ?_⟩, fun fails => absurd fails none_, ?_⟩
    · rintro ⟨r, member, unresolved⟩
      exact absurd unresolved (resolved r member)
    · intro after result
      obtain rfl := Except.ok.inj (succeeds.symm.trans result)
      refine ⟨all, rfl, adopted.wellFormed, adopted.matched, fun row member => ?_, adopted.sections⟩
      constructor
      · intro mine
        rcases List.mem_append.mp member with stored | copied
        · exact absurd mine (new row stored)
        · exact copied
      · intro copied
        obtain ⟨_, -, is⟩ := exists_left_of_forall₂ adopted.matched copied
        exact is.owner

def opexRoot : Category :=
  { sampleRoot with code := "04", name := "OPEX", pnlSection := "04", orgID := none }

/-- A level-2 row under the shared root, and a level-3 row under the copy of the first. -/
def sampleTemplate : List TemplateRow := [
  ⟨"v1", "040101", some "0401", 3, "Finance", true, true⟩,
  ⟨"v1", "0401", some "04", 2, "Administration", false, true⟩]

theorem adoption_builds_tree_sample :
    ∃ copies, adoptIndustryTemplate sampleTemplate "v1" 7 (· + 100) [opexRoot] =
        .ok (opexRoot :: copies) ∧
      List.Forall₂ (Copy (industryTemplate sampleTemplate "v1") "v1" 7 [opexRoot] copies)
        (industryTemplate sampleTemplate "v1") copies ∧
      ∀ copy ∈ copies, Under (opexRoot :: copies) copy copy.pnlSection := by
  have admitted : Admitted sampleTemplate := by
    refine ⟨by decide, by decide, by decide, ?_⟩
    intro r member code names
    simp only [sampleTemplate, List.mem_cons, List.not_mem_nil, or_false] at member
    rcases member with rfl | rfl <;> cases names <;> exact ⟨'0', '1', by decide⟩
  have wellFormed : WellFormed [opexRoot] := by
    refine ⟨by decide, fun row member id link => ?_⟩
    obtain rfl := List.mem_singleton.mp member
    cases link
  have lawful : ∀ c ∈ [opexRoot], c.orgID = none → c.taxonomyVersion = "v1" →
      Under [opexRoot] c c.pnlSection := by
    intro c member _ _
    obtain rfl := List.mem_singleton.mp member
    exact .root rfl
  have fresh : ∀ k, ∀ row ∈ [opexRoot], row.id ≠ k + 100 := by
    intro k row member
    obtain rfl := List.mem_singleton.mp member
    show (1 : ℕ) ≠ k + 100
    omega
  obtain ⟨fails, -, succeeds⟩ := @adoption_builds_tree _ admitted _ wellFormed "v1" 7 (by decide)
    (· + 100) fresh (add_left_injective 100)
  have ok : (adoptIndustryTemplate sampleTemplate "v1" 7 (· + 100) [opexRoot]).toOption.isSome := by
    decide +kernel
  cases result : adoptIndustryTemplate sampleTemplate "v1" 7 (· + 100) [opexRoot] with
  | error failure => simp [result, Except.toOption] at ok
  | ok after =>
      obtain ⟨copies, rfl, -, copied, -, sections⟩ := succeeds after result
      exact ⟨copies, rfl, copied, sections lawful⟩

end Vekst.Taxonomy
