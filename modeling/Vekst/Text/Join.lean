import Mathlib.Data.List.Basic

/-! # Texts joined by a separator -/

namespace Join

variable {α : Type} [DecidableEq α] {sep : α}

/-- The pieces without separators, over all the parts. -/
def pieces (sep : α) (parts : List (List α)) : List (List α) := parts.flatMap (·.splitOn sep)

/-- How many separators each part holds. -/
def separators (sep : α) (parts : List (List α)) : List Nat := parts.map (·.count sep)

theorem length_splitOn (xs : List α) : (xs.splitOn sep).length = xs.count sep + 1 := by
  induction xs with
  | nil => rfl
  | cons x xs ih =>
      rw [List.splitOn_cons_eq_if_modifyHead, List.count_cons]
      split
      · rw [List.length_cons, ih]
      · rw [List.length_modifyHead, ih]

theorem splitOn_injective : Function.Injective (List.splitOn sep : List α → List (List α)) := by
  intro xs ys same
  have joined := congrArg (List.intercalate [sep]) same
  rwa [List.intercalate_splitOn, List.intercalate_splitOn] at joined

theorem splitOn_intercalate {parts : List (List α)} (some_ : parts ≠ []) :
    ([sep].intercalate parts).splitOn sep = pieces sep parts := by
  induction parts with
  | nil => exact absurd rfl some_
  | cons part parts ih =>
      cases parts with
      | nil => simp [pieces]
      | cons next parts =>
          have joined : [sep].intercalate (part :: next :: parts) =
              part ++ sep :: [sep].intercalate (next :: parts) := by
            simp [List.intercalate_cons_cons]
          rw [joined, List.splitOn_append_cons_self, ih (List.cons_ne_nil _ _)]
          rfl

/-- The pieces and how many of them each part has are the parts. -/
theorem eq_of_pieces {parts parts' : List (List α)} (same : pieces sep parts = pieces sep parts')
    (counts : separators sep parts = separators sep parts') : parts = parts' := by
  induction parts generalizing parts' with
  | nil => exact (List.map_eq_nil_iff.mp counts.symm).symm
  | cons part parts ih =>
      cases parts' with
      | nil => cases counts
      | cons part' parts' =>
          obtain ⟨count, counts⟩ := List.cons.inj counts
          have length : (part.splitOn sep).length = (part'.splitOn sep).length := by
            rw [length_splitOn, length_splitOn]
            exact congrArg (· + 1) count
          obtain ⟨head, tail⟩ := List.append_inj same length
          rw [splitOn_injective head, ih tail counts]

theorem pieces_append (left right : List (List α)) :
    pieces sep (left ++ right) = pieces sep left ++ pieces sep right := List.flatMap_append

theorem pieces_of_absent {parts : List (List α)} (absent : ∀ part ∈ parts, sep ∉ part) :
    pieces sep parts = parts := by
  induction parts with
  | nil => rfl
  | cons part parts ih =>
      obtain ⟨here, later⟩ := List.forall_mem_cons.mp absent
      rw [pieces, List.flatMap_cons, List.splitOn_eq_singleton here]
      exact congrArg _ (ih later)

omit [DecidableEq α] in
theorem mem_intercalate {x : α} {parts : List (List α)} (member : x ∈ [sep].intercalate parts) :
    x = sep ∨ ∃ part ∈ parts, x ∈ part := by
  induction parts with
  | nil => simp at member
  | cons part parts ih =>
      cases parts with
      | nil => exact .inr ⟨part, by simpa using member⟩
      | cons next parts =>
          rw [List.intercalate_cons_cons, List.append_assoc, List.mem_append,
            List.mem_append, List.mem_singleton] at member
          rcases member with here | mark | later
          · exact .inr ⟨part, List.mem_cons_self, here⟩
          · exact .inl mark
          · rcases ih later with mark | ⟨part', member, inside⟩
            · exact .inl mark
            · exact .inr ⟨part', List.mem_cons_of_mem _ member, inside⟩

theorem append_cons_inj {xs ys as bs : List α} (absent : sep ∉ as) (absent' : sep ∉ bs) :
    xs ++ sep :: as = ys ++ sep :: bs ↔ xs = ys ∧ as = bs := by
  constructor
  · intro same
    have split_ := congrArg (List.splitOn sep) same
    rw [List.splitOn_append_cons_self, List.splitOn_append_cons_self,
      List.splitOn_eq_singleton absent, List.splitOn_eq_singleton absent'] at split_
    obtain ⟨front, back⟩ := List.append_inj' split_ rfl
    exact ⟨splitOn_injective front, List.singleton_inj.mp back⟩
  · rintro ⟨rfl, rfl⟩
    rfl

end Join
