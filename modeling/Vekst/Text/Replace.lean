import Vekst.Text.Squeeze

namespace Regex

/-! ## Occurrences replaced -/

section Replace

variable {old new : Text}

@[simp] theorem replaceAll_nil (some_ : old ≠ []) : replaceAll old new [] = [] := by
  cases old with
  | nil => exact absurd rfl some_
  | cons c old => rfl

theorem replaceAll_of_not {c : Char} {s : Text} (other : ¬ old <+: c :: s) :
    replaceAll old new (c :: s) = c :: replaceAll old new s := by
  have missed : old.isPrefixOf (c :: s) = false := by
    rw [← Bool.not_eq_true, List.isPrefixOf_iff_prefix]
    exact other
  rw [replaceAll, substituteFrom_none (by rw [missed, if_neg Bool.false_ne_true])]
  exact congrArg (c :: ·) (substituteFrom_before (fun _ _ _ => rfl) 0 [c] [] s)

theorem replaceAll_append (some_ : old ≠ []) (s : Text) :
    replaceAll old new (old ++ s) = new ++ replaceAll old new s := by
  have opens : old.isPrefixOf (old ++ s) = true :=
    List.isPrefixOf_iff_prefix.mpr (List.prefix_append old s)
  have short : old.length ≤ (old ++ s).length := by simp
  rw [replaceAll, substituteFrom_some (List.length_pos_of_ne_nil some_) short (by rw [if_pos opens]),
    List.take_left, List.drop_left]
  exact congrArg (new ++ ·) (substituteFrom_before (fun _ _ _ => rfl) 0 _ [] s)

/-- A text is read from the left: an occurrence at once, any other character alone. -/
theorem replaceAll_induct (some_ : old ≠ []) {motive : Text → Prop} (nil : motive [])
    (other : ∀ c s, ¬ old <+: c :: s → motive s → motive (c :: s))
    (found : ∀ s, motive s → motive (old ++ s)) (s : Text) : motive s := by
  induction size : s.length using Nat.strong_induction_on generalizing s with
  | _ size_ ih =>
    subst size
    cases s with
    | nil => exact nil
    | cons c s =>
        by_cases opens : old <+: c :: s
        · obtain ⟨rest, same⟩ := opens
          rw [← same]
          apply found
          apply ih rest.length _ rest rfl
          rw [← same, List.length_append]
          have positive := List.length_pos_of_ne_nil some_
          omega
        · exact other c s opens (ih s.length (Nat.lt_succ_self _) s rfl)

theorem replaceAll_eq_self {s : Text} (some_ : old ≠ []) (absent : ¬ old <:+: s) :
    replaceAll old new s = s := by
  induction s with
  | nil => exact replaceAll_nil some_
  | cons c s ih =>
      rw [List.infix_cons_iff, not_or] at absent
      rw [replaceAll_of_not absent.1, ih absent.2]

theorem countP_replaceAll_le {p : Char → Bool} (some_ : old ≠ [])
    (fewer : new.countP p ≤ old.countP p) (s : Text) :
    (replaceAll old new s).countP p ≤ s.countP p := by
  induction s using replaceAll_induct some_ with
  | nil => rw [replaceAll_nil some_]
  | other c s opens ih =>
      rw [replaceAll_of_not opens, List.countP_cons, List.countP_cons]
      omega
  | found s ih =>
      rw [replaceAll_append some_, List.countP_append, List.countP_append]
      omega

/-- A replacement by a lighter text makes the whole lighter. -/
theorem countP_replaceAll_lt {p : Char → Bool} (fewer : new.countP p < old.countP p) {s : Text}
    (found : old <:+: s) : (replaceAll old new s).countP p < s.countP p := by
  have some_ : old ≠ [] := by
    rintro rfl
    cases fewer
  induction s using replaceAll_induct some_ with
  | nil => exact absurd (List.infix_nil.mp found) some_
  | other c s opens ih =>
      have later := ih ((List.infix_cons_iff.mp found).resolve_left opens)
      rw [replaceAll_of_not opens, List.countP_cons, List.countP_cons]
      omega
  | found s ih =>
      have rest := countP_replaceAll_le some_ (Nat.le_of_lt fewer) s
      rw [replaceAll_append some_, List.countP_append, List.countP_append]
      omega

variable {blank : Char} {s word : Text}

theorem prefix_of_replaceAll (some_ : old ≠ []) (absent : blank ∉ word)
    (opens : word <+: replaceAll old [blank] s) : word <+: s := by
  induction s using replaceAll_induct some_ generalizing word with
  | nil =>
      rw [replaceAll_nil some_] at opens
      exact opens
  | other c s missed ih =>
      rw [replaceAll_of_not missed] at opens
      cases word with
      | nil => exact List.nil_prefix
      | cons d word =>
          obtain ⟨rfl, tail⟩ := List.cons_prefix_cons.mp opens
          exact List.cons_prefix_cons.mpr ⟨rfl, ih (fun inside => absent (by simp [inside])) tail⟩
  | found s =>
      rw [replaceAll_append some_] at opens
      cases word with
      | nil => exact List.nil_prefix
      | cons d word =>
          obtain ⟨rfl, -⟩ := List.cons_prefix_cons.mp opens
          exact absurd List.mem_cons_self absent

/-- A replacement by a blank makes no new occurrence of a text without it. -/
theorem infix_of_replaceAll (some_ : old ≠ []) (absent : blank ∉ word)
    (inside : word <:+: replaceAll old [blank] s) : word <:+: s := by
  induction s using replaceAll_induct some_ with
  | nil =>
      rw [replaceAll_nil some_] at inside
      exact inside
  | other c s missed ih =>
      rw [replaceAll_of_not missed] at inside
      rcases List.infix_cons_iff.mp inside with opens | later
      · rw [← replaceAll_of_not missed] at opens
        exact (prefix_of_replaceAll some_ absent opens).isInfix
      · exact List.infix_cons_iff.mpr (.inr (ih later))
  | found s ih =>
      rw [replaceAll_append some_, List.singleton_append] at inside
      rcases List.infix_cons_iff.mp inside with opens | later
      · cases word with
        | nil => exact List.nil_infix
        | cons d word =>
            obtain ⟨rfl, -⟩ := List.cons_prefix_cons.mp opens
            exact absurd List.mem_cons_self absent
      · exact (ih later).trans (List.suffix_append old s).isInfix

/-- Nor does it leave one of the text it replaces. -/
theorem not_infix_replaceAll (some_ : old ≠ []) (absent : blank ∉ old) :
    ¬ old <:+: replaceAll old [blank] s := by
  intro inside
  induction s using replaceAll_induct some_ with
  | nil =>
      rw [replaceAll_nil some_] at inside
      exact some_ (List.infix_nil.mp inside)
  | other c s missed ih =>
      rw [replaceAll_of_not missed] at inside
      rcases List.infix_cons_iff.mp inside with opens | later
      · rw [← replaceAll_of_not missed] at opens
        exact missed (prefix_of_replaceAll some_ absent opens)
      · exact ih later
  | found s ih =>
      rw [replaceAll_append some_, List.singleton_append] at inside
      rcases List.infix_cons_iff.mp inside with opens | later
      · cases old with
        | nil => exact some_ rfl
        | cons d old =>
            obtain ⟨rfl, -⟩ := List.cons_prefix_cons.mp opens
            exact absent List.mem_cons_self
      · exact ih later

end Replace

end Regex
