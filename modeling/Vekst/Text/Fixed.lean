import Vekst.Text.Regex

namespace Regex

/-! ## Patterns of one length -/

namespace Pattern

/-- Every match is of one length, and what is matched depends on nothing around it. -/
def Fixed (r : Pattern) (n : Nat) (accepts : Text → Prop) [DecidablePred accepts] : Prop :=
  ∀ before s, r.lengths before s = if n ≤ s.length ∧ accepts (s.take n) then [n] else []

theorem fixed_empty : Fixed .empty 0 fun _ => True := fun _ _ => by simp

theorem fixed_set (p : Char → Bool) : Fixed (.set p) 1 fun t => t.all p := by
  intro before s
  cases s with
  | nil => rfl
  | cons c s => simp

theorem Fixed.seq {r s : Pattern} {n m : Nat} {accepts accepts' : Text → Prop}
    [DecidablePred accepts] [DecidablePred accepts'] (first : Fixed r n accepts)
    (second : Fixed s m accepts') :
    Fixed (.seq r s) (n + m) fun t => accepts (t.take n) ∧ accepts' (t.drop n) := by
  intro before t
  have cut : (t.take (n + m)).drop n = (t.drop n).take m := by
    rw [List.drop_take, Nat.add_sub_cancel_left]
  have front : (t.take (n + m)).take n = t.take n := by
    rw [List.take_take, Nat.min_eq_left (Nat.le_add_right n m)]
  have room : n + m ≤ t.length ↔ n ≤ t.length ∧ m ≤ (t.drop n).length := by
    rw [List.length_drop]
    omega
  simp only [lengths_seq, first before t, cut, front, room]
  by_cases starts : n ≤ t.length ∧ accepts (t.take n)
  · rw [if_pos starts, List.flatMap_singleton, second]
    by_cases ends : m ≤ (t.drop n).length ∧ accepts' ((t.drop n).take m)
    · rw [if_pos ends, if_pos ⟨⟨starts.1, ends.1⟩, starts.2, ends.2⟩]
      rfl
    · rw [if_neg ends, if_neg fun all => ends ⟨all.1.2, all.2.2⟩]
      rfl
  · rw [if_neg starts, if_neg fun all => starts ⟨all.1.1, all.2.1⟩]
    rfl

/-- At the start of a text a pattern of one length matches what it accepts, if the rest is one that
may follow. -/
theorem Fixed.anchored {r ending : Pattern} {n : Nat} {accepts ends : Text → Prop}
    [DecidablePred accepts] [DecidablePred ends] (fixed : Fixed r n accepts)
    (known : ∀ before t, ending.lengths before t = if ends t then [0] else []) (s : Text) :
    ((sequence [.start, r, ending]).matchAt [] s).isSome ↔
      n ≤ s.length ∧ accepts (s.take n) ∧ ends (s.drop n) := by
  have parts : (sequence [.start, r, ending]).lengths [] s =
      ((Pattern.seq r (.seq ending .empty)).lengths [] s).map (0 + ·) := List.flatMap_singleton _ _
  rw [matchAt, List.isSome_head?, parts, lengths_seq, fixed]
  by_cases fits : n ≤ s.length ∧ accepts (s.take n)
  · have finish (before : Text) : (Pattern.seq ending .empty).lengths before (s.drop n) =
        if ends (s.drop n) then [0] else [] := by
      rw [lengths_seq, known]
      split <;> rfl
    rw [if_pos fits, List.flatMap_singleton, finish]
    by_cases ended : ends (s.drop n) <;> simp [ended, fits]
  · rw [if_neg fits]
    have other : ¬ (n ≤ s.length ∧ accepts (s.take n) ∧ ends (s.drop n)) :=
      fun all => fits ⟨all.1, all.2.1⟩
    simp [other]

/-- Between the ends of a text a pattern of one length matches the texts that it accepts. -/
theorem Fixed.whole {r : Pattern} {n : Nat} {accepts : Text → Prop} [DecidablePred accepts]
    (fixed : Fixed r n accepts) (s : Text) :
    ((sequence [.start, r, .finish]).matchAt [] s).isSome ↔ s.length = n ∧ accepts s := by
  have finish : ∀ before t, Pattern.finish.lengths before t = if t = [] then [0] else [] := by
    intro before t
    cases t <;> rfl
  rw [fixed.anchored finish, List.drop_eq_nil_iff]
  constructor
  · rintro ⟨long, accepted, short⟩
    rw [List.take_of_length_le short] at accepted
    exact ⟨Nat.le_antisymm short long, accepted⟩
  · rintro ⟨rfl, accepted⟩
    rw [List.take_length]
    exact ⟨Nat.le_refl _, accepted, Nat.le_refl _⟩

end Pattern

end Regex
