import Vekst.Text.Regex

namespace Regex

variable {p : Char → Bool}

theorem rdropWhile_cons_pos {c : Char} (space : p c) (s : Text) :
    (c :: s).rdropWhile p = if s.rdropWhile p = [] then [] else c :: s.rdropWhile p := by
  simp only [List.rdropWhile, List.reverse_cons, List.dropWhile_append, List.reverse_eq_nil_iff]
  split
  case isTrue gone =>
    rw [List.isEmpty_iff] at gone
    rw [List.dropWhile_cons_of_pos space, if_pos gone]
    rfl
  case isFalse left =>
    rw [List.isEmpty_iff] at left
    rw [if_neg left, List.reverse_append]
    rfl

theorem rdropWhile_cons_neg {c : Char} (other : ¬ p c) (s : Text) :
    (c :: s).rdropWhile p = c :: s.rdropWhile p := by
  simp only [List.rdropWhile, List.reverse_cons, List.dropWhile_append]
  split
  case isTrue gone =>
    rw [List.isEmpty_iff] at gone
    rw [List.dropWhile_cons_of_neg other, gone]
    rfl
  case isFalse => rw [List.reverse_append]; rfl

theorem dropWhile_rdropWhile (s : Text) :
    (s.rdropWhile p).dropWhile p = (s.dropWhile p).rdropWhile p := by
  induction s with
  | nil => rfl
  | cons c rest ih =>
      by_cases space : p c
      · rw [List.dropWhile_cons_of_pos space, rdropWhile_cons_pos space, ← ih]
        split
        case isTrue gone => rw [gone]
        case isFalse => rw [List.dropWhile_cons_of_pos space]
      · rw [List.dropWhile_cons_of_neg space, rdropWhile_cons_neg space,
          List.dropWhile_cons_of_neg space]

theorem dropWhile_filter_dropWhile (kept : Char → Bool) (s : Text) :
    ((s.dropWhile p).filter kept).dropWhile p = (s.filter kept).dropWhile p := by
  induction s with
  | nil => rfl
  | cons c rest ih =>
      by_cases space : p c
      · rw [List.dropWhile_cons_of_pos space, ih, List.filter_cons]
        split
        · rw [List.dropWhile_cons_of_pos space]
        · rfl
      · rw [List.dropWhile_cons_of_neg space]

theorem rdropWhile_filter_rdropWhile (kept : Char → Bool) (s : Text) :
    ((s.rdropWhile p).filter kept).rdropWhile p = (s.filter kept).rdropWhile p := by
  have turned := dropWhile_filter_dropWhile (p := p) kept s.reverse
  simp only [List.rdropWhile, ← List.filter_reverse, List.reverse_reverse, turned]

/-- What is taken off the ends before a filter would come off behind it. -/
theorem strip_filter_strip (kept : Char → Bool) (s : Text) :
    strip p ((strip p s).filter kept) = strip p (s.filter kept) := by
  unfold strip
  rw [← dropWhile_rdropWhile, rdropWhile_filter_rdropWhile, dropWhile_rdropWhile,
    dropWhile_filter_dropWhile]

end Regex
