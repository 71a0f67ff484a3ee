import Vekst.Classify.Seeded
import Vekst.Proof.Eval.Engine
import Vekst.Relational.Search

namespace Vekst.Eval
open Decimal Regex Normalize Jsonb Relational

/-! ## The codes of the taxonomy -/

/-- How many categories have a code below this one. -/
def siblings (code : Codes) (parent : Path) : Nat := code.countP (·.1.dropLast = parent)

/-- A section has its place as its code, any other its parent's code and a number of its own. -/
inductive Numbered (code : Codes) (e : Path × Text) : Prop
  | section_ (name : String) (i : Nat) (path : e.1 = [name]) (known : l1Order.idxOf? name = some i)
      (own : e.2 = twoDigits (i + 1))
  | below (parent : Path × Text) (seq : Nat) (held : parent ∈ code) (path : e.1.dropLast = parent.1)
      (nonempty : parent.1 ≠ []) (bound : seq ≤ siblings code parent.1)
      (own : e.2 = parent.2 ++ twoDigits seq)

structure Coded (code : Codes) : Prop where
  keyed : (code.map (·.1)).Nodup
  each : ∀ e ∈ code, Numbered code e
  apart : ∀ e ∈ code, ∀ e' ∈ code, e.1.dropLast = e'.1.dropLast → e.2 = e'.2 → e = e'

section Codes

variable {code code' : Codes} {t : Path} {rest : List Path} {e e' parent : Path × Text}

theorem siblings_append (code : Codes) (e : Path × Text) (p : Path) :
    siblings code p ≤ siblings (code ++ [e]) p := by
  rw [siblings, siblings, List.countP_append]
  omega

theorem Numbered.append (numbered : Numbered code e) (new : Path × Text) :
    Numbered (code ++ [new]) e := by
  rcases numbered with ⟨name, i, path, known, own⟩ | ⟨parent, seq, held, path, nonempty, bound, own⟩
  · exact .section_ name i path known own
  · exact .below parent seq (List.mem_append_left _ held) path nonempty
      (bound.trans (siblings_append code new parent.1)) own

theorem eq_of_keyed (keyed : (code.map (·.1)).Nodup) (held : e ∈ code) (held' : e' ∈ code)
    (same : e.1 = e'.1) : e = e' := List.inj_on_of_nodup_map keyed held held' same

theorem name_of_idxOf? {name name' : String} {i : Nat} (known : l1Order.idxOf? name = some i)
    (known' : l1Order.idxOf? name' = some i) : name = name' := by
  obtain ⟨_, at_, -⟩ := List.idxOf?_eq_some_iff.mp known
  obtain ⟨_, at', -⟩ := List.idxOf?_eq_some_iff.mp known'
  exact at_.symm.trans at'

/-- A new category is numbered behind its siblings. -/
theorem assignCode_some (assigned : assignCode code t = some code') :
    (∃ name i, t = [name] ∧ l1Order.idxOf? name = some i ∧
      code' = code ++ [(t, twoDigits (i + 1))]) ∨
    ∃ above, (t.dropLast, above) ∈ code ∧ t.dropLast ≠ [] ∧
      code' = code ++ [(t, above ++ twoDigits (siblings code t.dropLast + 1))] := by
  rw [assignCode] at assigned
  dsimp only at assigned
  split at assigned
  next alone =>
    obtain ⟨i, known, made⟩ := Option.bind_eq_some_iff.mp assigned
    obtain ⟨name, first, known⟩ := Option.bind_eq_some_iff.mp known
    obtain ⟨tail, rfl⟩ := List.head?_eq_some_iff.mp first
    cases tail with
    | nil => exact .inl ⟨name, i, rfl, known, (Option.some.inj made).symm⟩
    | cons second more => simp at alone
  next nonempty =>
    obtain ⟨above, held, made⟩ := Option.bind_eq_some_iff.mp assigned
    obtain ⟨before, after, parts, -⟩ := List.lookup_eq_some_iff.mp held
    exact .inr ⟨above, by simp [parts], nonempty, (Option.some.inj made).symm⟩

/-- The step of the loop: the new code is none of its siblings'. -/
theorem coded_assignCode (coded : Coded code) (fresh : t ∉ code.map (·.1))
    (assigned : assignCode code t = some code') :
    Coded code' ∧ code'.map (·.1) = code.map (·.1) ++ [t] := by
  -- What is left of the step: the new entry is numbered, and apart from its siblings.
  have extend {c : Text} (numbered : Numbered (code ++ [(t, c)]) (t, c))
      (apart : ∀ e ∈ code, e.1.dropLast = t.dropLast → e.2 ≠ c) : Coded (code ++ [(t, c)]) := by
    refine ⟨?_, fun e member => ?_, fun e member e' member' path same => ?_⟩
    · rw [List.map_append]
      exact List.nodup_append.mpr ⟨coded.keyed, by simp, by
        rintro p held _ new rfl
        obtain rfl : p = t := by simpa using new
        exact fresh held⟩
    · rcases List.mem_append.mp member with old | new
      · exact (coded.each e old).append _
      · obtain rfl := List.mem_singleton.mp new
        exact numbered
    · rcases List.mem_append.mp member with old | new <;>
        rcases List.mem_append.mp member' with old' | new'
      · exact coded.apart e old e' old' path same
      · obtain rfl := List.mem_singleton.mp new'
        exact absurd same (apart e old path)
      · obtain rfl := List.mem_singleton.mp new
        exact absurd same.symm (apart e' old' path.symm)
      · rw [List.mem_singleton.mp new, List.mem_singleton.mp new']
  rcases assignCode_some assigned with ⟨name, i, rfl, known, rfl⟩ | ⟨above, held, nonempty, rfl⟩
  · refine ⟨extend (.section_ name i rfl known rfl) fun e old path same => ?_, by simp⟩
    rcases coded.each e old with ⟨name', i', path', known', own⟩ | ⟨parent, _, _, path', parted, -, -⟩
    · have number : i' + 1 = i + 1 := padded_injective 2 (own.symm.trans same)
      obtain rfl : i' = i := Nat.succ.inj number
      obtain rfl := name_of_idxOf? known known'
      exact fresh (path' ▸ List.mem_map_of_mem old)
    · exact parted (path'.symm.trans path)
  · refine ⟨extend (.below (t.dropLast, above) _ (List.mem_append_left _ held) rfl nonempty ?_ rfl)
      fun e old path same => ?_, by simp⟩
    · rw [siblings, siblings, List.countP_append]
      simp
    · rcases coded.each e old with ⟨name', i', path', -, -⟩ | ⟨parent, seq, held', path', -, bound, own⟩
      · rw [path'] at path
        exact nonempty (path.symm.trans rfl)
      · obtain rfl : parent = (t.dropLast, above) :=
          eq_of_keyed coded.keyed held' held (path'.symm.trans path)
        have number : seq = siblings code t.dropLast + 1 :=
          padded_injective 2 (List.append_cancel_left (own.symm.trans same))
        rw [number] at bound
        exact absurd bound (Nat.not_succ_le_self _)

/-- The run of the loop. -/
theorem coded_assignCodes (coded : Coded code) (fresh : (code.map (·.1) ++ rest).Nodup)
    (assigned : rest.foldlM assignCode code = some code') :
    Coded code' ∧ code'.map (·.1) = code.map (·.1) ++ rest := by
  induction rest generalizing code with
  | nil =>
      obtain rfl := Option.some.inj assigned
      exact ⟨coded, by simp⟩
  | cons t rest ih =>
      obtain ⟨next_, first, later⟩ := Option.bind_eq_some_iff.mp assigned
      have new : t ∉ code.map (·.1) := fun old =>
        (List.nodup_append.mp fresh).2.2 t old t List.mem_cons_self rfl
      obtain ⟨held, keys⟩ := coded_assignCode coded new first
      have rest_ := ih held (by rw [keys, List.append_assoc]; exact fresh) later
      rw [keys, List.append_assoc] at rest_
      exact rest_

theorem length_dropLast_of_ne_nil {p : Path} (nonempty : p.dropLast ≠ []) :
    p.length = p.dropLast.length + 1 := by
  rw [List.length_dropLast]
  have long := List.length_pos_of_ne_nil nonempty
  rw [List.length_dropLast] at long
  omega

/-- Two characters for each level, while no category has a hundred below it. -/
theorem length_of_coded (coded : Coded code) (few : ∀ p, siblings code p ≤ 99) (n : Nat) :
    ∀ e ∈ code, e.1.length = n → e.2.length = 2 * n := by
  induction n with
  | zero =>
      intro e held short
      rcases coded.each e held with ⟨name, i, path, -, -⟩ | ⟨parent, _, _, path, nonempty, -, -⟩
      · rw [path] at short
        cases short
      · rw [List.eq_nil_of_length_eq_zero short] at path
        exact absurd path.symm nonempty
  | succ n ih =>
      intro e held long
      rcases coded.each e held with ⟨name, i, path, known, own⟩ |
        ⟨parent, seq, held', path, nonempty, bound, own⟩
      · obtain ⟨small, -, -⟩ := List.idxOf?_eq_some_iff.mp known
        have few_ : l1Order.length = 9 := rfl
        rw [path, List.length_singleton] at long
        rw [own, twoDigits, length_padded (by decide) (by omega)]
        omega
      · have level := length_dropLast_of_ne_nil (path ▸ nonempty)
        have above := ih parent held' (by rw [← path]; omega)
        have many := few parent.1
        rw [own, List.length_append, above, twoDigits, length_padded (by decide) (by omega)]
        omega

theorem code_injective (coded : Coded code) (few : ∀ p, siblings code p ≤ 99) (n : Nat) :
    ∀ e ∈ code, ∀ e' ∈ code, e.1.length = n → e.2 = e'.2 → e = e' := by
  induction n with
  | zero =>
      intro e held e' held' short same
      have none_ := length_of_coded coded few 0 e held short
      have level := length_of_coded coded few _ e' held' rfl
      rw [← same, none_] at level
      refine eq_of_keyed coded.keyed held held' ?_
      rw [List.eq_nil_of_length_eq_zero short,
        List.eq_nil_of_length_eq_zero (show e'.1.length = 0 by omega)]
  | succ n ih =>
      intro e held e' held' long same
      have size := length_of_coded coded few _ e held long
      have size' := length_of_coded coded few _ e' held' rfl
      rw [same] at size
      have long' : e'.1.length = n + 1 := by omega
      refine coded.apart e held e' held' ?_ same
      rcases coded.each e held with ⟨name, _, path, -, -⟩ | ⟨parent, seq, above, path, nonempty, bound, own⟩ <;>
        rcases coded.each e' held' with ⟨name', _, path', -, -⟩ |
          ⟨parent', seq', above', path', nonempty', bound', own'⟩
      · rw [path, path']
        rfl
      · have level := length_dropLast_of_ne_nil (path' ▸ nonempty')
        have parents := List.length_pos_of_ne_nil nonempty'
        rw [path, List.length_singleton] at long
        rw [path'] at level
        omega
      · have level := length_dropLast_of_ne_nil (path ▸ nonempty)
        have parents := List.length_pos_of_ne_nil nonempty
        rw [path', List.length_singleton] at long'
        rw [path] at level
        omega
      · have level := length_dropLast_of_ne_nil (path ▸ nonempty)
        have level' := length_dropLast_of_ne_nil (path' ▸ nonempty')
        rw [path] at level
        rw [path'] at level'
        have wide := length_of_coded coded few n parent above (by omega)
        have wide' := length_of_coded coded few n parent' above' (by omega)
        have codes : parent.2 = parent'.2 :=
          (List.append_inj (own.symm.trans (same.trans own')) (wide.trans wide'.symm)).1
        rw [path, path', ih parent above parent' above' (by omega) codes]

end Codes

section Taxonomy

variable {source : List SourceRule} {cats : List Node} {c p : Node}

/-- No category has a hundred below it. -/
def Narrow (source : List SourceRule) : Prop :=
  ∀ parent, (nodes source).countP (·.dropLast = parent) ≤ 99

theorem taxonomy_coded (built : buildTaxonomy source = some cats) (narrow : Narrow source) :
    ∃ code, Coded code ∧ (∀ p, siblings code p ≤ 99) ∧ cats = code.map (nodeOf (nodes source)) := by
  obtain ⟨code, assigned, made⟩ := Option.bind_eq_some_iff.mp built
  obtain rfl := Option.some.inj made
  have perm : (order source).Perm (nodes source) := List.perm_insertionSort _ _
  have fresh : (order source).Nodup := perm.nodup_iff.mpr (List.nodup_dedup _)
  have none_ : Coded [] := ⟨List.nodup_nil, by simp, by simp⟩
  obtain ⟨coded, keys⟩ := coded_assignCodes none_ (by simpa using fresh) assigned
  refine ⟨code, coded, fun parent => ?_, rfl⟩
  have counted : siblings code parent = (code.map (·.1)).countP (·.dropLast = parent) := by
    rw [List.countP_map]
    rfl
  rw [counted, keys, List.map_nil, List.nil_append, perm.countP_eq]
  exact narrow parent

theorem codes_nodup (built : buildTaxonomy source = some cats) (narrow : Narrow source) :
    (cats.map (·.code)).Nodup := by
  obtain ⟨code, coded, few, rfl⟩ := taxonomy_coded built narrow
  rw [List.map_map]
  exact List.Nodup.map_on (fun e held e' held' same => code_injective coded few _ e held e' held' rfl same)
    coded.keyed.of_map

theorem paths_nodup (built : buildTaxonomy source = some cats) (narrow : Narrow source) :
    (cats.map (·.path)).Nodup := by
  obtain ⟨code, coded, few, rfl⟩ := taxonomy_coded built narrow
  rw [List.map_map]
  exact coded.keyed

theorem length_code (built : buildTaxonomy source = some cats) (narrow : Narrow source)
    (member : c ∈ cats) : c.code.length = 2 * c.path.length := by
  obtain ⟨code, coded, few, rfl⟩ := taxonomy_coded built narrow
  obtain ⟨e, held, rfl⟩ := List.mem_map.mp member
  exact length_of_coded coded few _ e held rfl

/-- A category below another: the parent is there, and its code is what is left of the last two
characters. -/
theorem parent_of_code (built : buildTaxonomy source = some cats) (narrow : Narrow source)
    (member : c ∈ cats) (nonempty : c.path.dropLast ≠ []) :
    ∃ p ∈ cats, p.path = c.path.dropLast ∧ p.code = c.code.take (c.code.length - 2) := by
  obtain ⟨code, coded, few, rfl⟩ := taxonomy_coded built narrow
  obtain ⟨e, held, rfl⟩ := List.mem_map.mp member
  rcases coded.each e held with ⟨name, _, path, -, -⟩ | ⟨parent, seq, above, path, -, bound, own⟩
  · exact absurd (congrArg List.dropLast path) nonempty
  · refine ⟨_, List.mem_map_of_mem above, path.symm, ?_⟩
    have many := few parent.1
    have two : (twoDigits seq).length = 2 := length_padded (by decide) (by omega)
    change parent.2 = e.2.take (e.2.length - 2)
    rw [own, List.length_append, two, Nat.add_sub_cancel, List.take_left]

/-- The parent by code is the parent by path. -/
theorem codes_follow_paths (built : buildTaxonomy source = some cats) (narrow : Narrow source)
    (below : c ∈ cats) (above : p ∈ cats) :
    2 < c.code.length ∧ p.code = c.code.take (c.code.length - 2) ↔
      c.path.dropLast ≠ [] ∧ p.path = c.path.dropLast := by
  have size := length_code built narrow below
  constructor
  · rintro ⟨long, same⟩
    have nonempty : c.path.dropLast ≠ [] := by
      refine List.ne_nil_of_length_pos ?_
      rw [List.length_dropLast]
      omega
    obtain ⟨parent, held, path, code⟩ := parent_of_code built narrow below nonempty
    rw [List.inj_on_of_nodup_map (codes_nodup built narrow) above held (same.trans code.symm)]
    exact ⟨nonempty, path⟩
  · rintro ⟨nonempty, path⟩
    obtain ⟨parent, held, same, code⟩ := parent_of_code built narrow below nonempty
    rw [List.inj_on_of_nodup_map (paths_nodup built narrow) above held (path.trans same.symm)]
    have level := length_dropLast_of_ne_nil nonempty
    have deep := List.length_pos_of_ne_nil nonempty
    exact ⟨by omega, code⟩

theorem level_eq (built : buildTaxonomy source = some cats) (member : c ∈ cats) :
    c.level = c.path.length := by
  obtain ⟨code, -, made⟩ := Option.bind_eq_some_iff.mp built
  obtain rfl := Option.some.inj made
  obtain ⟨e, -, rfl⟩ := List.mem_map.mp member
  rfl

theorem path_ne_nil (built : buildTaxonomy source = some cats) (narrow : Narrow source)
    (member : c ∈ cats) : c.path ≠ [] := by
  obtain ⟨code, coded, few, rfl⟩ := taxonomy_coded built narrow
  obtain ⟨e, held, rfl⟩ := List.mem_map.mp member
  intro nothing
  change e.1 = [] at nothing
  rcases coded.each e held with ⟨name, _, path, -, -⟩ | ⟨parent, _, -, path, nonempty, -, -⟩
  · rw [nothing] at path
    cases path
  · rw [nothing] at path
    exact nonempty path.symm

theorem nodeAt_path (built : buildTaxonomy source = some cats) (narrow : Narrow source)
    (member : c ∈ cats) : nodeAt cats c.path = some c :=
  find?_of_unique member (by simp) fun b held same =>
    List.inj_on_of_nodup_map (paths_nodup built narrow) held member (by simpa using same)

theorem byCodeOf_code (built : buildTaxonomy source = some cats) (narrow : Narrow source)
    (member : c ∈ cats) : byCodeOf cats c.code = some c.path := by
  have found : cats.reverse.find? (·.code = c.code) = some c :=
    find?_of_unique (List.mem_reverse.mpr member) (by simp) fun b held same =>
      List.inj_on_of_nodup_map (codes_nodup built narrow) (List.mem_reverse.mp held) member
        (by simpa using same)
  rw [byCodeOf, found]
  rfl

/-- What a rule keeps shared, it keeps shared with what is above it. -/
theorem targeted_parent (built : buildTaxonomy source = some cats) (narrow : Narrow source)
    {rule : Path} (below : c ∈ cats) (above : p ∈ cats) (path : p.path = c.path.dropLast)
    (target : c.path ∈ targeted cats rule) : p.path ∈ targeted cats rule := by
  have nonempty : c.path.dropLast ≠ [] := path ▸ path_ne_nil built narrow above
  obtain ⟨-, parent⟩ := (codes_follow_paths built narrow below above).mpr ⟨nonempty, path⟩
  have deep := List.length_pos_of_ne_nil nonempty
  rw [List.length_dropLast] at deep
  have size := length_code built narrow below
  unfold targeted at target ⊢
  cases located : nodeAt cats rule with
  | none =>
      rw [located] at target
      cases target
  | some n =>
      rw [located] at target
      have size' := length_code built narrow (List.mem_of_find?_eq_some located)
      obtain ⟨stem, listed, named⟩ := List.mem_filterMap.mp target
      obtain ⟨i, inside, rfl⟩ := List.mem_map.mp listed
      rw [List.mem_range] at inside
      obtain ⟨x, found, same⟩ := Option.map_eq_some_iff.mp named
      have held := List.mem_reverse.mp (List.mem_of_find?_eq_some found)
      have code : x.code = n.code.take (2 * (i + 1)) := by simpa using List.find?_some found
      obtain rfl := List.inj_on_of_nodup_map (paths_nodup built narrow) held below same
      have long : x.code.length = 2 * (i + 1) := by
        rw [code, List.length_take]
        omega
      refine List.mem_filterMap.mpr ⟨p.code, List.mem_map.mpr ⟨i - 1, ?_, ?_⟩,
        byCodeOf_code built narrow above⟩
      · rw [List.mem_range]
        omega
      · have stem : 2 * (i - 1 + 1) = x.code.length - 2 := by omega
        rw [parent, stem, code, List.take_take, ← code]
        congr 1
        omega

theorem isGlobal_parent (built : buildTaxonomy source = some cats) (narrow : Narrow source)
    {rules : List Path} (below : c ∈ cats) (above : p ∈ cats) (path : p.path = c.path.dropLast)
    (shared : isGlobal cats rules c.path) (common : p.path ∉ orgScoped) :
    isGlobal cats rules p.path := by
  simp only [isGlobal, Bool.and_eq_true, Bool.or_eq_true, decide_eq_true_eq, List.any_eq_true]
    at shared ⊢
  refine ⟨?_, common⟩
  rcases shared.1 with ⟨x, held, same, high⟩ | target
  · obtain rfl := List.inj_on_of_nodup_map (paths_nodup built narrow) held below same
    refine .inl ⟨p, above, rfl, ?_⟩
    rw [level_eq built held] at high
    rw [level_eq built above, path, List.length_dropLast]
    omega
  · obtain ⟨rule, listed, target⟩ := List.mem_flatMap.mp target
    exact .inr (List.mem_flatMap.mpr ⟨rule, listed,
      targeted_parent built narrow below above path target⟩)

/-- The row of a shared category, and that of its parent in the tree. -/
theorem parent_in_seed (built : buildTaxonomy source = some cats) (narrow : Narrow source)
    (rules : List StoredRule) (member : c ∈ cats)
    (shared : isGlobal cats (rules.map (·.path)) c.path) (common : c.path.dropLast ∉ orgScoped) :
    categoryRow c ∈ seedCategories cats rules ∧
      Classify.parentOf (seedCategories cats rules) (categoryRow c) =
        (nodeAt cats c.path.dropLast).map categoryRow := by
  have listed {n : Node} (held : n ∈ cats) (global : isGlobal cats (rules.map (·.path)) n.path) :
      n ∈ (cats.filter fun c => isGlobal cats (rules.map (·.path)) c.path).insertionSort
        fun a b => a.code ≤ b.code :=
    (List.mem_insertionSort _).mpr (List.mem_filter.mpr ⟨held, global⟩)
  have size := length_code built narrow member
  have width : (categoryRow c).code.length = c.code.length := String.length_ofList
  have codes : (categoryRow c).code.toList = c.code := String.toList_ofList
  refine ⟨List.mem_append_left _ (List.mem_map_of_mem (listed member shared)), ?_⟩
  rw [Classify.parentOf, width, codes]
  by_cases root : c.path.dropLast = []
  · have deep := List.length_pos_of_ne_nil (path_ne_nil built narrow member)
    have short : c.path.length - 1 = 0 := by rw [← List.length_dropLast, root, List.length_nil]
    have nobody : nodeAt cats [] = none :=
      List.find?_eq_none.mpr fun n held => by simpa using path_ne_nil built narrow held
    rw [if_neg (by omega), root, nobody]
    rfl
  · obtain ⟨p, above, path, code⟩ := parent_of_code built narrow member root
    obtain ⟨long, -⟩ := (codes_follow_paths built narrow member above).mpr ⟨root, path⟩
    have global := isGlobal_parent built narrow member above path shared (path ▸ common)
    rw [if_pos long, ← path, nodeAt_path built narrow above, Option.map_some, seedCategories,
      List.find?_append, List.find?_map]
    have found := find?_of_unique (q := (fun row : SeedCategory =>
        row.taxonomyVersion = (categoryRow c).taxonomyVersion &&
          row.code = String.ofList (c.code.take (c.code.length - 2))) ∘ categoryRow)
      (listed above global) (by simp [categoryRow, code]) fun n held same => by
        have known := (List.mem_filter.mp ((List.mem_insertionSort _).mp held)).1
        have codes : n.code = p.code := by
          simpa [categoryRow, code, String.ofList_inj] using same
        exact List.inj_on_of_nodup_map (codes_nodup built narrow) known above codes
    rw [found]
    rfl

/-- The codes are distinct, two characters a level, and the links that the migration reads off them
are those of the tree. -/
theorem parents_resolved (built : buildTaxonomy source = some cats) (narrow : Narrow source)
    (rules : List StoredRule) :
    (cats.map (·.code)).Nodup ∧ ∀ c ∈ cats, c.code.length = 2 * c.level ∧
      (isGlobal cats (rules.map (·.path)) c.path → c.path.dropLast ∉ orgScoped →
        categoryRow c ∈ seedCategories cats rules ∧
          Classify.parentOf (seedCategories cats rules) (categoryRow c) =
            (nodeAt cats c.path.dropLast).map categoryRow) := by
  refine ⟨codes_nodup built narrow, fun c member => ⟨?_, fun shared common => ?_⟩⟩
  · rw [level_eq built member]
    exact length_code built narrow member
  · exact parent_in_seed built narrow rules member shared common

end Taxonomy

/-- A row for each category that the tables of codes name. -/
def codedSource : List SourceRule :=
  ((knp.map (·.2) ++ operationType.map (·.2) ++ plText.map (·.2.2)).dedup).map
    fun path => ⟨"", "", "", path⟩

theorem parents_resolved_sample :
    ∃ cats c, buildTaxonomy codedSource = some cats ∧ c ∈ cats ∧
      (Classify.parentOf (seedCategories cats []) (categoryRow c)).map (·.name) = some "OPEX" := by
  have facts : ((buildTaxonomy codedSource).bind fun cats =>
      (nodeAt cats ["OPEX", "PAYROLL to distribute"]).map fun c =>
        isGlobal cats [] c.path && decide (c.path.dropLast ∉ orgScoped) &&
          decide ((nodeAt cats c.path.dropLast).map (·.name) = some "OPEX")) = some true := by
    decide +kernel
  have narrow : Narrow codedSource := fun parent =>
    List.countP_le_length.trans (show (nodes codedSource).length ≤ 99 by decide +kernel)
  obtain ⟨cats, built, facts⟩ := Option.bind_eq_some_iff.mp facts
  obtain ⟨c, located, facts⟩ := Option.map_eq_some_iff.mp facts
  simp only [Bool.and_eq_true, decide_eq_true_eq] at facts
  obtain ⟨⟨shared, common⟩, named⟩ := facts
  have member := List.mem_of_find?_eq_some located
  obtain ⟨-, each⟩ := parents_resolved built narrow []
  obtain ⟨-, resolved⟩ := each c member
  obtain ⟨-, parent⟩ := resolved shared common
  refine ⟨cats, c, built, member, ?_⟩
  rw [parent, Option.map_map]
  exact named


/-! ## What the builders make -/

/-- A condition on the text of a payment, or on a regulated code. -/
def Built (r : TemplateRule) : Prop :=
  r.field = "description" ∧ r.op = "contains_all" ∨ r.field = "regulated_code" ∧ r.op = "eq"

section Templates

variable {u : Tables} {lower : String → String} {cats : List Node} {source by_ : List SourceRule}
  {rules kept : List TemplateRule} {r : TemplateRule} {stored : StoredRule}

theorem mem_of_mapM_some {α β : Type} {g : α → Option β} {items : List α} {rows : List β} {row : β}
    (success : items.mapM g = some rows) (member : row ∈ rows) : ∃ item ∈ items, g item = some row := by
  induction items generalizing rows with
  | nil =>
      obtain rfl : rows = [] := by simpa using success.symm
      cases member
  | cons item items ih =>
      rw [List.mapM_cons] at success
      obtain ⟨first, made, rest⟩ := Option.bind_eq_some_iff.mp success
      obtain ⟨others, later, same⟩ := Option.bind_eq_some_iff.mp rest
      obtain rfl := Option.some.inj same
      rcases List.mem_cons.mp member with rfl | further
      · exact ⟨item, List.mem_cons_self, made⟩
      · obtain ⟨other, known, found⟩ := ih later further
        exact ⟨other, List.mem_cons_of_mem item known, found⟩

theorem built_byRule {row : SourceRule} (made : byRule u cats row = some r) : Built r := by
  rw [byRule] at made
  split at made
  · cases made
  · dsimp only at made
    split at made
    · cases made
    · split at made
      · cases made
      · obtain rfl := Option.some.inj made
        exact .inl ⟨rfl, rfl⟩

theorem built_codeRule {country scope : String} {entry : (String × String) × Path}
    (made : codeRule country scope cats entry = some r) : Built r := by
  obtain ⟨_, _, rfl⟩ := Option.map_eq_some_iff.mp made
  exact .inr ⟨rfl, rfl⟩

theorem built_textRule {country scope : String} {entry : String × String × Path}
    (made : textRule country scope cats entry = some r) : Built r := by
  obtain ⟨_, _, rfl⟩ := Option.map_eq_some_iff.mp made
  exact .inl ⟨rfl, rfl⟩

theorem built_templates (made : templates u cats by_ = some rules) : ∀ r ∈ rules, Built r := by
  obtain ⟨kz, kazakh, made⟩ := Option.bind_eq_some_iff.mp made
  obtain ⟨pl, polish, made⟩ := Option.bind_eq_some_iff.mp made
  obtain rfl := Option.some.inj made
  obtain ⟨codes, first, polish⟩ := Option.bind_eq_some_iff.mp polish
  obtain ⟨texts, second, polish⟩ := Option.bind_eq_some_iff.mp polish
  obtain rfl := Option.some.inj polish
  intro r member
  simp only [List.mem_append] at member
  rcases member with (belarusian | kazakh_) | code | text
  · rw [buildBYTemplate, List.mem_insertionSort, List.mem_filterMap] at belarusian
    obtain ⟨row, -, made⟩ := belarusian
    exact built_byRule made
  · obtain ⟨_, -, made⟩ := mem_of_mapM_some kazakh kazakh_
    exact built_codeRule made
  · obtain ⟨_, -, made⟩ := mem_of_mapM_some first code
    exact built_codeRule made
  · obtain ⟨_, -, made⟩ := mem_of_mapM_some second text
    exact built_textRule made

theorem collapse_sublist (seen : List (String × String × String × String × Path)) :
    (collapse u seen rules).Sublist rules := by
  induction rules generalizing seen with
  | nil => exact .slnil
  | cons r rest ih =>
      rw [collapse]
      split
      · exact (ih _).cons r
      · exact (ih _).cons_cons r

theorem mem_numbered (member : stored ∈ numbered u kept) :
    stored.toTemplateRule ∈ kept ∧ stored.storedValue = storedValueOf u stored.toTemplateRule := by
  obtain ⟨⟨r, i⟩, listed, rfl⟩ := List.mem_map.mp member
  exact ⟨List.fst_mem_of_mem_zipIdx listed, rfl⟩

/-- The priorities count the rules. -/
theorem priorities_numbered (u : Tables) (kept : List TemplateRule) :
    (numbered u kept).map (·.priority) = List.range' 1 kept.length := by
  rw [numbered, List.map_map, ← List.zipIdx_map_snd]
  rfl

/-! ## What the matcher says -/

end Templates

section Longer

variable {u : Tables} {lower : String → String} {row : Txn} {rules more : List Rule}
  {memory : List (String × String)}

end Longer

/-! ## Rules that normalisation makes one -/

section Collapsed

variable {u : Tables} {lower : String → String} {cats : List Node} {rules : List TemplateRule}
  {row : Txn} {memory : List (String × String)}

/-- What a rule says: when it holds, and the category it answers with. -/
def told (u : Tables) (lower : String → String) (cats : List Node) (r : TemplateRule) :
    List Condition × String :=
  (conditions lower ⟨r, storedValueOf u r, 0⟩, codeOf cats r.path)

theorem told_of_keyOf {r r' : TemplateRule} (built : Built r) (built' : Built r')
    (same : keyOf u r = keyOf u r') : told u lower cats r = told u lower cats r' := by
  simp only [keyOf, Prod.mk.injEq] at same
  obtain ⟨-, field, value, direction, path⟩ := same
  have op : r.op = r'.op := by
    rcases built with ⟨text, op⟩ | ⟨code, op⟩ <;> rcases built' with ⟨text', op'⟩ | ⟨code', op'⟩
    · rw [op, op']
    · exact absurd (text.symm.trans (field.trans code')) (by decide)
    · exact absurd (code.symm.trans (field.trans text')) (by decide)
    · rw [op, op']
  simp only [told, conditions, field, op, value, direction, path]

/-- A search passes over what is like a rule it has passed over before. -/
theorem find?_collapse (p : List Condition × String → Bool)
    (seen : List (String × String × String × String × Path)) (built : ∀ r ∈ rules, Built r)
    (passed : ∀ r ∈ rules, keyOf u r ∈ seen → p (told u lower cats r) = false) :
    ((collapse u seen rules).map (told u lower cats)).find? p =
      (rules.map (told u lower cats)).find? p := by
  induction rules generalizing seen with
  | nil => rfl
  | cons r rest ih =>
      have builtRest : ∀ r' ∈ rest, Built r' := fun r' later => built r' (List.mem_cons_of_mem r later)
      have passedRest : ∀ r' ∈ rest, keyOf u r' ∈ seen → p (told u lower cats r') = false :=
        fun r' later => passed r' (List.mem_cons_of_mem r later)
      rw [collapse, List.map_cons]
      split
      next known =>
        rw [ih seen builtRest passedRest, List.find?_cons, passed r List.mem_cons_self known]
      next fresh =>
        rw [List.map_cons, List.find?_cons, List.find?_cons]
        cases outcome : p (told u lower cats r) with
        | true => rfl
        | false =>
            refine ih (keyOf u r :: seen) builtRest fun r' later known => ?_
            rcases List.mem_cons.mp known with same | before
            · rw [told_of_keyOf (builtRest r' later) (built r List.mem_cons_self) same, outcome]
            · exact passedRest r' later before

/-- The answer of a layer, read off what the rules say. -/
theorem answerOf_compared (layer : String) (q : List Condition → Bool) (group : List Rule) :
    (answerOf u lower row layer (group.filter fun e => q e.all)).map Answer.compared =
      ((group.map fun e => (e.all, e.categoryCode)).find? fun x =>
          q x.1 && x.1.all (conditionHolds u lower row)).map fun x =>
        (x.2, layer, if layer = "L0.5" then 99 / 100 else 95 / 100) := by
  have both : (fun e : Rule =>
      decide (q e.all = true ∧ e.all.all (conditionHolds u lower row) = true)) =
      (fun x : List Condition × String => q x.1 && x.1.all (conditionHolds u lower row)) ∘
        fun e => (e.all, e.categoryCode) := by
    funext e
    rw [Bool.decide_and, Bool.decide_eq_true, Bool.decide_eq_true]
    rfl
  rw [answerOf, List.find?_filter, List.find?_map, Option.map_map, Option.map_map, both]
  rfl

theorem fixtures_told (rules : List TemplateRule) :
    (fixtures lower cats (numbered u rules)).map (fun e => (e.all, e.categoryCode)) =
      rules.map (told u lower cats) := by
  rw [fixtures, numbered, List.map_map, List.map_map]
  conv_rhs => rw [← List.zipIdx_map_fst 1 rules, List.map_map]
  rfl

/-- Whatever the row and the memory, dropping the rules that normalisation makes one changes no
answer. -/
theorem collapsed_alike {by_ : List SourceRule} (made : templates u cats by_ = some rules)
    (row : Txn) (memory : List (String × String)) :
    (classify u lower row (fixtures lower cats (numbered u (collapse u [] rules))) memory).map
        Answer.compared =
      (classify u lower row (fixtures lower cats (numbered u rules)) memory).map Answer.compared := by
  have layer (name : String) (q : List Condition → Bool) :
      (answerOf u lower row name
          ((fixtures lower cats (numbered u (collapse u [] rules))).filter fun e => q e.all)).map
          Answer.compared =
        (answerOf u lower row name
          ((fixtures lower cats (numbered u rules)).filter fun e => q e.all)).map Answer.compared := by
    rw [answerOf_compared, answerOf_compared, fixtures_told, fixtures_told,
      find?_collapse _ [] (built_templates made) fun r _ seen => absurd seen List.not_mem_nil]
  have regulated := layer "L0.5" fun all => all.any (·.field = "regulated_code")
  have textual := layer "L1" fun all => !all.any (·.field = "regulated_code")
  simp only [classify]
  cases (if memory = [] then none else memory.lookup (key u row).1) with
  | some category => rfl
  | none =>
      rw [Option.map_or, Option.map_or]
      exact congrArg₂ _ regulated textual

end Collapsed

/-- Two rows that differ in letter case only. -/
def alikeRows : List SourceRule :=
  [⟨"PAYMENT 1", "", "Expense", ["CS"]⟩, ⟨"payment 1", "", "Expense", ["CS"]⟩]

def lowered (s : String) : String := String.ofList (s.toList.map Char.toLower)

theorem collapsed_alike_sample :
    ∃ cats rules, buildTaxonomy codedSource = some cats ∧
      templates asciiTables cats alikeRows = some rules ∧
      (collapse asciiTables [] rules).length < rules.length ∧
      (classify asciiTables lowered sampleTxn
          (fixtures lowered cats (numbered asciiTables (collapse asciiTables [] rules))) []).map
          Answer.compared =
        (classify asciiTables lowered sampleTxn
          (fixtures lowered cats (numbered asciiTables rules)) []).map Answer.compared := by
  have facts : ((buildTaxonomy codedSource).bind fun cats =>
      (templates asciiTables cats alikeRows).map fun rules =>
        decide ((collapse asciiTables [] rules).length < rules.length)) = some true := by
    decide +kernel
  obtain ⟨cats, named, facts⟩ := Option.bind_eq_some_iff.mp facts
  obtain ⟨rules, made, fewer⟩ := Option.map_eq_some_iff.mp facts
  exact ⟨cats, rules, named, made, of_decide_eq_true fewer, collapsed_alike made sampleTxn []⟩

end Vekst.Eval
