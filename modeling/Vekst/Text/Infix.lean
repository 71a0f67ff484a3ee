import Mathlib.Data.List.Infix

/-! # Which texts hold some parts -/

namespace Infix

variable {α : Type*} {part : List α} {parts others : List (List α)} {x : α} {n : Nat}

/-- Parts one behind the other, and so many letters behind each. -/
def spaced (x : α) (n : Nat) (parts : List (List α)) : List α :=
  parts.flatMap fun part => part ++ List.replicate n x

theorem infix_spaced (member : part ∈ parts) : part <:+: spaced x n parts := by
  obtain ⟨before, after, rfl⟩ := List.append_of_mem member
  rw [spaced, List.flatMap_append, List.flatMap_cons, List.append_assoc]
  exact List.infix_append' _ _ _

/-- A part in letters that it neither begins nor ends with and that it does not reach across is in one
of the texts beside them. -/
theorem infix_beside {left right : List α} (head : part.head? ≠ some x)
    (last : part.getLast? ≠ some x) (short : part.length ≤ n)
    (occurs : part <:+: left ++ (List.replicate n x ++ right)) : part <:+: left ∨ part <:+: right := by
  have apart {before after : List α} (parted : part = before ++ after) (some_ : before ≠ [])
      (all : ∀ y ∈ before, y = x) : False := by
    obtain ⟨first, rest, rfl⟩ := List.exists_cons_of_ne_nil some_
    rw [parted, all first List.mem_cons_self] at head
    exact head rfl
  rcases List.infix_append_iff.mp occurs with early | late | ⟨before, after, parted, ends, starts⟩
  · exact .inl early
  · rcases List.infix_append_iff.mp late with among | later | ⟨before, after, parted, ends, starts⟩
    · by_cases empty : part = []
      · exact .inl (empty ▸ List.nil_infix)
      · have all : ∀ y ∈ part, y = x := fun y member =>
          List.eq_of_mem_replicate (among.subset member)
        exact (apart (List.append_nil _).symm empty all).elim
    · exact .inr later
    · by_cases empty : before = []
      · rw [parted, empty, List.nil_append]
        exact .inr starts.isInfix
      · exact (apart parted empty fun y member =>
          List.eq_of_mem_replicate (ends.subset member)).elim
  · by_cases empty : after = []
    · rw [parted, empty, List.append_nil]
      exact .inl ends.isInfix
    · have room : after.length ≤ (List.replicate n x).length := by
        rw [List.length_replicate]
        exact le_trans (by simp [parted]) short
      have among := List.prefix_of_prefix_length_le starts (List.prefix_append _ _) room
      have final : after.getLast empty = x :=
        List.eq_of_mem_replicate (among.subset (List.getLast_mem empty))
      rw [parted, List.getLast?_append_of_ne_nil _ empty, List.getLast?_eq_getLast_of_ne_nil empty,
        final] at last
      exact absurd rfl last

theorem infix_of_spaced (head : part.head? ≠ some x) (last : part.getLast? ≠ some x)
    (short : part.length ≤ n) (some_ : part ≠ []) (occurs : part <:+: spaced x n others) :
    ∃ other ∈ others, part <:+: other := by
  induction others with
  | nil => exact absurd (List.infix_nil.mp occurs) some_
  | cons other others ih =>
      rw [spaced, List.flatMap_cons, List.append_assoc] at occurs
      rcases infix_beside head last short occurs with here | there
      · exact ⟨other, List.mem_cons_self, here⟩
      · obtain ⟨later, member, occurs⟩ := ih there
        exact ⟨later, List.mem_cons_of_mem _ member, occurs⟩

/-- Each of the parts is in one of the others. -/
def Covered (parts others : List (List α)) : Prop := ∀ part ∈ parts, ∃ other ∈ others, part <:+: other

/-- Texts that hold the others hold the parts exactly when each part is in one of the others. -/
theorem holds_of_holds_iff (letters : ∀ a b : α, ∃ x, x ≠ a ∧ x ≠ b) (some_ : ∀ part ∈ parts, part ≠ []) :
    (∀ text, (∀ other ∈ others, other <:+: text) → ∀ part ∈ parts, part <:+: text) ↔
      Covered parts others := by
  constructor
  · intro always part member
    obtain ⟨first, rest, parted⟩ := List.exists_cons_of_ne_nil (some_ part member)
    obtain ⟨x, head, last⟩ := letters first (part.getLast (some_ part member))
    have occurs := always (spaced x part.length others) (fun _ => infix_spaced) part member
    refine infix_of_spaced ?_ ?_ le_rfl (some_ part member) occurs
    · rw [parted]
      exact fun same => head (Option.some.inj same).symm
    · rw [List.getLast?_eq_getLast_of_ne_nil (some_ part member)]
      exact fun same => last (Option.some.inj same).symm
  · intro covered text holds part member
    obtain ⟨other, listed, within⟩ := covered part member
    exact within.trans (holds other listed)

end Infix
