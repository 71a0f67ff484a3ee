import Mathlib.Algebra.BigOperators.Group.List.Lemmas
import Mathlib.Data.List.Dedup

namespace Relational

variable {α κ M : Type*} [DecidableEq κ] [AddCommMonoid M]

/-- The total of the rows whose key is `k`. -/
def groupSum (key : α → κ) (f : α → M) (rows : List α) (k : κ) : M :=
  ((rows.filter fun a => key a = k).map f).sum

@[simp] theorem groupSum_nil (key : α → κ) (f : α → M) (k : κ) : groupSum key f [] k = 0 := rfl

theorem groupSum_cons (key : α → κ) (f : α → M) (a : α) (rows : List α) (k : κ) :
    groupSum key f (a :: rows) k = (if key a = k then f a else 0) + groupSum key f rows k := by
  by_cases same : key a = k <;> simp [groupSum, same]

theorem sum_map_ite_eq (keys : List κ) (nodup : keys.Nodup) (k : κ) (x : M) (member : k ∈ keys) :
    (keys.map fun k' => if k = k' then x else 0).sum = x := by
  induction keys with
  | nil => simp at member
  | cons head rest ih =>
      have fresh := (List.nodup_cons.mp nodup).1
      rcases List.mem_cons.mp member with rfl | tail
      · have others : ∀ k' ∈ rest, (if k = k' then x else 0) = 0 := by
          intro k' later
          have different : k ≠ k' := fun same => fresh (same ▸ later)
          simp [different]
        rw [List.map_cons, List.sum_cons, List.map_congr_left others]
        simp
      · have different : k ≠ head := fun same => fresh (same ▸ tail)
        rw [List.map_cons, List.sum_cons, ih (List.nodup_cons.mp nodup).2 tail]
        simp [different]

/-- Grouping loses nothing: the group totals add up to the total of the rows. -/
theorem sum_groupSum (key : α → κ) (f : α → M) (keys : List κ) (nodup : keys.Nodup) (rows : List α)
    (covered : ∀ a ∈ rows, key a ∈ keys) :
    (keys.map (groupSum key f rows)).sum = (rows.map f).sum := by
  induction rows with
  | nil =>
      rw [List.map_congr_left fun k _ => groupSum_nil key f k]
      simp
  | cons a rows ih =>
      have step : ∀ k ∈ keys, groupSum key f (a :: rows) k =
          (if key a = k then f a else 0) + groupSum key f rows k :=
        fun k _ => groupSum_cons key f a rows k
      rw [List.map_congr_left step, List.sum_map_add,
        sum_map_ite_eq keys nodup (key a) (f a) (covered a (by simp)),
        ih (fun b later => covered b (by simp [later])), List.map_cons, List.sum_cons]

/-- `GROUP BY`: the distinct keys, each with the rows that have it. -/
def groups (key : α → κ) (rows : List α) : List (κ × List α) :=
  (rows.map key).dedup.map fun k => (k, rows.filter fun a => key a = k)

/-- Group totals over the keys of interest are the total over the rows with such a key. -/
theorem sum_groups (key : α → κ) (f : α → M) (rows : List α) (keep : κ → Bool) :
    (((groups key rows).filter fun g => keep g.1).map fun g => (g.2.map f).sum).sum =
      ((rows.filter fun a => keep (key a)).map f).sum := by
  have flat : ((groups key rows).filter fun g => keep g.1).map (fun g => (g.2.map f).sum) =
      ((rows.map key).dedup.filter keep).map
        (groupSum key f (rows.filter fun a => keep (key a))) := by
    rw [groups, List.filter_map, List.map_map]
    apply List.map_congr_left
    intro k member
    have kept := (List.mem_filter.mp member).2
    simp only [Function.comp_apply, groupSum, List.filter_filter]
    congr 2
    apply List.filter_congr
    intro a _
    by_cases same : key a = k
    · simp only [same, decide_true, Bool.true_and]
      exact kept.symm
    · simp [same]
  rw [flat]
  apply sum_groupSum key f _ (((rows.map key).nodup_dedup).filter _)
  intro a member
  obtain ⟨known, kept⟩ := List.mem_filter.mp member
  exact List.mem_filter.mpr ⟨List.mem_dedup.mpr (List.mem_map_of_mem known), kept⟩

/-! ## Sums over what a query keeps -/

theorem sum_filter (keep : α → Bool) (f : α → M) (rows : List α) :
    ((rows.filter keep).map f).sum = (rows.map fun a => if keep a then f a else 0).sum := by
  induction rows with
  | nil => rfl
  | cons a rows ih => by_cases kept : keep a <;> simp [kept, ih]

theorem sum_filterMap {β : Type*} (g : α → Option β) (f : β → M) (rows : List α) :
    ((rows.filterMap g).map f).sum = (rows.map fun a => (g a).elim 0 f).sum := by
  induction rows with
  | nil => rfl
  | cons a rows ih => cases kept : g a <;> simp [kept, ih]

/-- Group totals in any order, over the keys of interest, are the total over their rows. -/
theorem sum_ite_groups (key : α → κ) (f : α → M) (rows : List α) (keep : κ → Bool)
    {listed : List (κ × List α)} (sorted : listed.Perm (groups key rows)) :
    (listed.map fun g => if keep g.1 then (g.2.map f).sum else 0).sum =
      (rows.map fun a => if keep (key a) then f a else 0).sum := by
  rw [(sorted.map _).sum_eq, ← sum_filter, sum_groups, sum_filter]

/-! ## Lists matched item by item -/

section Matched

variable {α β : Type*} {R : α → β → Prop} {left : List α} {right : List β}

theorem exists_left_of_forall₂ (matched : List.Forall₂ R left right) {b : β} (member : b ∈ right) :
    ∃ a ∈ left, R a b := by
  induction matched with
  | nil => cases member
  | cons related _ ih =>
      rcases List.mem_cons.mp member with rfl | later
      · exact ⟨_, by simp, related⟩
      · obtain ⟨a, known, found⟩ := ih later
        exact ⟨a, List.mem_cons_of_mem _ known, found⟩

theorem exists_right_of_forall₂ (matched : List.Forall₂ R left right) {a : α} (member : a ∈ left) :
    ∃ b ∈ right, R a b :=
  exists_left_of_forall₂ matched.flip member

theorem forall₂_comp {γ : Type*} {S : β → γ → Prop} {last : List γ}
    (first : List.Forall₂ R left right) (second : List.Forall₂ S right last) :
    List.Forall₂ (fun a c => ∃ b, R a b ∧ S b c) left last := by
  induction first generalizing last with
  | nil =>
      cases second
      exact .nil
  | cons related _ ih => cases second with
    | cons next rest => exact .cons ⟨_, related, next⟩ (ih rest)

theorem exists_forall₂ (each : ∀ a ∈ left, ∃ b, R a b) : ∃ right, List.Forall₂ R left right := by
  induction left with
  | nil => exact ⟨[], .nil⟩
  | cons a left ih =>
      obtain ⟨b, related⟩ := each a (by simp)
      obtain ⟨right, matched⟩ := ih fun other later => each other (List.mem_cons_of_mem a later)
      exact ⟨b :: right, .cons related matched⟩

theorem map_eq_of_forall₂ {δ : Type*} {f : α → δ} {g : β → δ}
    (matched : List.Forall₂ (fun a b => g b = f a) left right) : right.map g = left.map f := by
  induction matched with
  | nil => rfl
  | cons same _ ih => rw [List.map_cons, List.map_cons, same, ih]

/-- A test on the one side parts both sides, each part matched with its own. -/
theorem forall₂_filter (matched : List.Forall₂ R left right) (test : β → Bool) :
    ∃ passed rest, left.Perm (passed ++ rest) ∧ passed.Sublist left ∧
      List.Forall₂ R passed (right.filter test) ∧ List.Forall₂ R rest (right.filter (!test ·)) := by
  induction matched with
  | nil => exact ⟨[], [], .nil, .slnil, .nil, .nil⟩
  | @cons a b left right related _ ih =>
      obtain ⟨passed, rest, apart, fewer, passes, others⟩ := ih
      cases outcome : test b with
      | true =>
          rw [List.filter_cons_of_pos outcome, List.filter_cons_of_neg (by simp [outcome])]
          exact ⟨a :: passed, rest, apart.cons a, fewer.cons_cons a, .cons related passes, others⟩
      | false =>
          rw [List.filter_cons_of_neg (by simp [outcome]), List.filter_cons_of_pos (by simp [outcome])]
          exact ⟨passed, a :: rest, (apart.cons a).trans List.perm_middle.symm, fewer.cons a, passes,
            .cons related others⟩

theorem sum_of_forall₂ {f h : α → M} {g : β → M}
    (matched : List.Forall₂ (fun a b => f a + g b = h a) left right) :
    (left.map f).sum + (right.map g).sum = (left.map h).sum := by
  induction matched with
  | nil => simp
  | cons same _ ih => simp only [List.map_cons, List.sum_cons, ← same, ← ih, add_add_add_comm]

end Matched

/-! ## Rows translated one by one -/

section Translation

variable {β γ ε : Type} {g : γ → Except ε β}

theorem mapM_cons_ok {item : γ} {items : List γ} {rows : List β} :
    (item :: items).mapM g = .ok rows ↔
      ∃ head tail, g item = .ok head ∧ items.mapM g = .ok tail ∧ rows = head :: tail := by
  rw [List.mapM_cons]
  cases first : g item with
  | error e => simp [bind, Except.bind]
  | ok head =>
      cases rest : items.mapM g with
      | error e => simp [bind, Except.bind]
      | ok tail => simp [bind, Except.bind, pure, Except.pure, eq_comm]

theorem mapM_nil_ok {rows : List β} : ([] : List γ).mapM g = .ok rows ↔ rows = [] := by
  simp [pure, Except.pure, eq_comm]

theorem mapM_eq_ok_iff {items : List γ} {rows : List β} :
    items.mapM g = .ok rows ↔ List.Forall₂ (fun item row => g item = .ok row) items rows := by
  induction items generalizing rows with
  | nil =>
      rw [mapM_nil_ok, List.forall₂_nil_left_iff]
  | cons item items ih =>
      rw [mapM_cons_ok, List.forall₂_cons_left_iff]
      constructor
      · rintro ⟨head, tail, first, rest, rfl⟩
        exact ⟨head, tail, first, ih.mp rest, rfl⟩
      · rintro ⟨head, tail, first, rest, rfl⟩
        exact ⟨head, tail, first, ih.mpr rest, rfl⟩

theorem mem_of_mapM {items : List γ} {rows : List β} (success : items.mapM g = .ok rows) {row : β}
    (member : row ∈ rows) : ∃ item ∈ items, g item = .ok row :=
  exists_left_of_forall₂ (mapM_eq_ok_iff.mp success) member

theorem exists_of_mapM {items : List γ} {rows : List β} (success : items.mapM g = .ok rows)
    {item : γ} (member : item ∈ items) : ∃ row ∈ rows, g item = .ok row :=
  exists_right_of_forall₂ (mapM_eq_ok_iff.mp success) member

theorem exists_error_of_mapM {items : List γ} {e : ε} (failed : items.mapM g = .error e) :
    ∃ item ∈ items, g item = .error e := by
  induction items with
  | nil => cases failed
  | cons item items ih =>
      rw [List.mapM_cons] at failed
      cases first : g item with
      | error e' =>
          rw [first] at failed
          obtain rfl := Except.error.inj failed
          exact ⟨item, by simp, first⟩
      | ok head =>
          rw [first] at failed
          cases rest : items.mapM g with
          | error e' =>
              rw [rest] at failed
              obtain rfl := Except.error.inj failed
              obtain ⟨other, later, refused⟩ := ih rest
              exact ⟨other, List.mem_cons_of_mem item later, refused⟩
          | ok tail =>
              rw [rest] at failed
              cases failed

theorem exists_mapM {items : List γ} (each : ∀ item ∈ items, ∃ row, g item = .ok row) :
    ∃ rows, items.mapM g = .ok rows := by
  induction items with
  | nil => exact ⟨[], mapM_nil_ok.mpr rfl⟩
  | cons item items ih =>
      obtain ⟨head, first⟩ := each item (by simp)
      obtain ⟨tail, rest⟩ := ih fun other later => each other (List.mem_cons_of_mem item later)
      exact ⟨head :: tail, mapM_cons_ok.mpr ⟨head, tail, first, rest, rfl⟩⟩

theorem map_mapM {items : List γ} {rows : List β} {δ : Type*} (success : items.mapM g = .ok rows)
    (f : β → δ) (f' : γ → δ) (same : ∀ item row, g item = .ok row → f row = f' item) :
    rows.map f = items.map f' := by
  induction items generalizing rows with
  | nil => rw [mapM_nil_ok.mp success, List.map_nil, List.map_nil]
  | cons item items ih =>
      obtain ⟨head, tail, first, rest, rfl⟩ := mapM_cons_ok.mp success
      rw [List.map_cons, List.map_cons, same item head first, ih rest]

/-- A total is kept when each translation keeps its own part of it. -/
theorem sum_mapM {items : List γ} {rows : List β} (success : items.mapM g = .ok rows) (f : β → M)
    (f' : γ → M) (same : ∀ item ∈ items, ∀ row, g item = .ok row → f row = f' item) :
    (rows.map f).sum = (items.map f').sum := by
  induction items generalizing rows with
  | nil => rw [mapM_nil_ok.mp success, List.map_nil, List.map_nil]
  | cons item items ih =>
      obtain ⟨head, tail, first, rest, rfl⟩ := mapM_cons_ok.mp success
      rw [List.map_cons, List.map_cons, List.sum_cons, List.sum_cons, same item (by simp) head first,
        ih rest fun other later => same other (List.mem_cons_of_mem item later)]

end Translation

end Relational
