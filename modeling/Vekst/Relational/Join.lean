import Mathlib.Data.List.Basic

namespace Relational

variable {α β γ : Type*}

/-- `left JOIN right ON on`. -/
def innerJoin (left : List α) (right : List β) (on : α → β → Bool) : List (α × β) :=
  left.flatMap fun a => (right.filter (on a)).map fun b => (a, b)

/-- `left LEFT JOIN right ON on`: a row without a partner stays, beside nothing. -/
def leftJoin (left : List α) (right : List β) (on : α → β → Bool) : List (α × Option β) :=
  left.flatMap fun a => match right.filter (on a) with
    | [] => [(a, none)]
    | partners => partners.map fun b => (a, some b)

/-- A join looks at the right side through the partners it finds there. -/
theorem innerJoin_congr {left : List α} {right other : List β} {on : α → β → Bool}
    (partners : ∀ a ∈ left, right.filter (on a) = other.filter (on a)) :
    innerJoin left right on = innerJoin left other on := by
  apply List.flatMap_congr
  intro a member
  rw [partners a member]

theorem leftJoin_congr {left : List α} {right other : List β} {on : α → β → Bool}
    (partners : ∀ a ∈ left, right.filter (on a) = other.filter (on a)) :
    leftJoin left right on = leftJoin left other on := by
  apply List.flatMap_congr
  intro a member
  rw [partners a member]

theorem mem_innerJoin {left : List α} {right : List β} {on : α → β → Bool} {a : α} {b : β} :
    (a, b) ∈ innerJoin left right on ↔ a ∈ left ∧ b ∈ right ∧ on a b := by
  simp only [innerJoin, List.mem_flatMap, List.mem_map, List.mem_filter, Prod.mk.injEq]
  constructor
  · rintro ⟨_, known, _, ⟨partner, matching⟩, rfl, rfl⟩
    exact ⟨known, partner, matching⟩
  · rintro ⟨known, partner, matching⟩
    exact ⟨a, known, b, ⟨partner, matching⟩, rfl, rfl⟩

theorem mem_left_of_mem_leftJoin {left : List α} {right : List β} {on : α → β → Bool}
    {row : α × Option β} (member : row ∈ leftJoin left right on) : row.1 ∈ left := by
  obtain ⟨a, known, found⟩ := List.mem_flatMap.mp member
  cases partners : right.filter (on a) with
  | nil =>
      obtain rfl : row = (a, none) := by simpa [partners] using found
      exact known
  | cons first rest =>
      rw [partners] at found
      obtain ⟨b, -, rfl⟩ := List.mem_map.mp found
      exact known

/-- A row left without a partner is one that no row on the right matches. -/
theorem mem_leftJoin_none {left : List α} {right : List β} {on : α → β → Bool} {a : α} :
    (a, none) ∈ leftJoin left right on ↔ a ∈ left ∧ right.filter (on a) = [] := by
  simp only [leftJoin, List.mem_flatMap]
  constructor
  · rintro ⟨b, known, member⟩
    cases partners : right.filter (on b) with
    | nil =>
        obtain rfl : a = b := by simpa [partners] using member
        exact ⟨known, partners⟩
    | cons first rest => simp [partners] at member
  · rintro ⟨known, alone⟩
    exact ⟨a, known, by simp [alone]⟩

/-- The rows of a left join that found no partner. -/
theorem leftJoin_filter_none (left : List α) (right : List β) (on : α → β → Bool) :
    ((leftJoin left right on).filter fun row => row.2.isNone).map Prod.fst =
      left.filter fun a => !right.any (on a) := by
  induction left with
  | nil => rfl
  | cons a left ih =>
      rw [leftJoin] at ih ⊢
      rw [List.flatMap_cons, List.filter_append, List.map_append, ih, List.filter_cons]
      cases partners : right.filter (on a) with
      | nil =>
          have alone : right.any (on a) = false := by
            rw [List.any_eq_false]
            exact List.filter_eq_nil_iff.mp partners
          simp [alone]
      | cons first rest =>
          have first_ : first ∈ right.filter (on a) := by simp [partners]
          obtain ⟨known, matching⟩ := List.mem_filter.mp first_
          have found : right.any (on a) = true := List.any_eq_true.mpr ⟨first, known, matching⟩
          simp [found]

/-- At most one partner each. -/
def Functional (left : List α) (right : List β) (on : α → β → Bool) : Prop :=
  ∀ a ∈ left, (right.filter (on a)).length ≤ 1

theorem find?_eq_head? (right : List β) (p : β → Bool) : right.find? p = (right.filter p).head? := by
  simp

theorem Functional.tail {a : α} {left : List α} {right : List β} {on : α → β → Bool}
    (functional : Functional (a :: left) right on) : Functional left right on :=
  fun b member => functional b (List.mem_cons_of_mem a member)

theorem Functional.sublist {small left : List α} {right : List β} {on : α → β → Bool}
    (functional : Functional left right on) (sub : small ⊆ left) : Functional small right on :=
  fun a member => functional a (sub member)

/-- A condition that fixes a key of the right side, as a foreign key does. -/
theorem Functional.of_key {κ : Type*} {left : List α} {right : List β} {on : α → β → Bool}
    (key : β → κ) (keyed : (right.map key).Nodup)
    (fixed : ∀ a b b', on a b → on a b' → key b = key b') : Functional left right on := by
  intro a _
  have nodup : ((right.filter (on a)).map key).Nodup :=
    keyed.sublist (List.filter_sublist.map key)
  have matching : ∀ b ∈ right.filter (on a), on a b := fun b member => (List.mem_filter.mp member).2
  revert nodup matching
  cases right.filter (on a) with
  | nil => simp
  | cons b rest =>
      cases rest with
      | nil => simp
      | cons b' others =>
          intro nodup matching
          have same := fixed a b b' (matching b (by simp)) (matching b' (by simp))
          simp [same] at nodup

theorem leftJoin_eq_map {left : List α} {right : List β} {on : α → β → Bool}
    (functional : Functional left right on) :
    leftJoin left right on = left.map fun a => (a, right.find? (on a)) := by
  induction left with
  | nil => rfl
  | cons a left ih =>
      have few := functional a (by simp)
      have rest := ih functional.tail
      simp only [leftJoin, List.flatMap_cons, List.map_cons] at rest ⊢
      rw [rest, find?_eq_head?]
      cases partners : right.filter (on a) with
      | nil => rfl
      | cons b others =>
          rw [partners, List.length_cons] at few
          obtain rfl : others = [] := List.eq_nil_of_length_eq_zero (by omega)
          rfl

theorem innerJoin_eq_filterMap {left : List α} {right : List β} {on : α → β → Bool}
    (functional : Functional left right on) :
    innerJoin left right on =
      left.filterMap fun a => (right.find? (on a)).map fun b => (a, b) := by
  induction left with
  | nil => rfl
  | cons a left ih =>
      have few := functional a (by simp)
      have rest := ih functional.tail
      simp only [innerJoin, List.flatMap_cons, List.filterMap_cons] at rest ⊢
      rw [rest, find?_eq_head?]
      cases partners : right.filter (on a) with
      | nil => rfl
      | cons b others =>
          rw [partners, List.length_cons] at few
          obtain rfl : others = [] := List.eq_nil_of_length_eq_zero (by omega)
          rfl

end Relational
