import Mathlib.Data.List.Sort

namespace Relational

variable {α : Type*} {r : α → α → Prop} {rows page more : List α} {last : α}

/-! ## Pages of sorted rows, each read behind the last row of the one before -/

/-- What sorts strictly behind the last row of a page is what the page left. -/
theorem behind_iff_mem_rest (sorted : (page ++ more).Pairwise r) (once : (page ++ more).Nodup)
    (antisymm : ∀ a ∈ page ++ more, ∀ b ∈ page ++ more, r a b → r b a → a = b)
    (refl : ∀ a, r a a) (ends : page.getLast? = some last) {a : α} (member : a ∈ page ++ more) :
    (r last a ∧ a ≠ last) ↔ a ∈ more := by
  obtain ⟨start, rfl⟩ := List.getLast?_eq_some_iff.mp ends
  have shown : last ∈ start ++ [last] := by simp
  have known : last ∈ start ++ [last] ++ more := List.mem_append_left _ shown
  obtain ⟨within, -, across⟩ := List.pairwise_append.mp sorted
  have apart : ∀ b ∈ start ++ [last], b ∉ more := (List.nodup_append'.mp once).2.2
  constructor
  · rintro ⟨behind, other⟩
    rcases List.mem_append.mp member with early | late
    · have ahead : r a last := by
        rcases List.mem_append.mp early with before | same
        · exact (List.pairwise_append.mp within).2.2 a before last (by simp)
        · rw [List.mem_singleton.mp same]
          exact refl last
      exact absurd (antisymm a member last known ahead behind) other
    · exact late
  · intro late
    refine ⟨across last shown a late, ?_⟩
    rintro rfl
    exact apart _ shown late

variable [DecidableRel r]

/-- Sorting what is behind the last row of a page gives what the page left, in its order. -/
theorem sort_behind [Std.Total r] [IsTrans α r] {p : α → Bool}
    (split_ : rows.insertionSort r = page ++ more) (once : rows.Nodup)
    (antisymm : ∀ a ∈ rows, ∀ b ∈ rows, r a b → r b a → a = b)
    (ends : page.getLast? = some last) (behind : ∀ a ∈ rows, p a ↔ r last a ∧ a ≠ last) :
    (rows.filter p).insertionSort r = more := by
  have perm : (page ++ more).Perm rows := split_ ▸ rows.perm_insertionSort r
  have sorted : (page ++ more).Pairwise r := split_ ▸ rows.pairwise_insertionSort r
  have rest : (page ++ more).filter p = more := by
    have decided : ∀ a ∈ page ++ more, p a ↔ a ∈ more := by
      intro a member
      rw [behind a (perm.subset member)]
      exact behind_iff_mem_rest sorted (perm.nodup_iff.mpr once)
        (fun a first b second => antisymm a (perm.subset first) b (perm.subset second))
        (fun a => (Std.Total.total a a).elim id id) ends member
    have apart : ∀ b ∈ page, b ∉ more := (List.nodup_append'.mp (perm.nodup_iff.mpr once)).2.2
    rw [List.filter_append, List.filter_eq_nil_iff.mpr, List.filter_eq_self.mpr, List.nil_append]
    · exact fun a late => (decided a (List.mem_append_right _ late)).mpr late
    · intro a early kept
      exact apart a early ((decided a (List.mem_append_left _ early)).mp kept)
  have same : ((rows.filter p).insertionSort r).Perm more := by
    have kept := perm.filter p
    rw [rest] at kept
    exact ((rows.filter p).perm_insertionSort r).trans kept.symm
  refine same.eq_of_pairwise (fun a b first second => ?_) ((rows.filter p).pairwise_insertionSort r)
    (List.pairwise_append.mp sorted).2.1
  have known : a ∈ rows := (List.mem_filter.mp (List.mem_insertionSort _ |>.mp first)).1
  exact antisymm a known b (perm.subset (List.mem_append_right _ second))

end Relational
