import Vekst.Proof.Normalize.DigitGroups
import Vekst.Text.Replace

namespace Vekst.Normalize
open Regex

section Left

variable {separator digit : Char → Bool} {before s : Text}

/-! ## The text that is left -/

def leftOf (separator digit : Char → Bool) (before s : Text) : Text :=
  (keptFrom separator digit before s).map Prod.fst

/-- The run of separators before a place was opened by a digit. -/
def opened (separator digit : Char → Bool) (before : Text) : Bool :=
  (before.dropWhile separator).head?.any digit

theorem opened_separator {c : Char} (blank : separator c) :
    opened separator digit (c :: before) = opened separator digit before := by
  rw [opened, List.dropWhile_cons, if_pos blank, opened]

theorem opened_other {c : Char} (other : separator c = false) :
    opened separator digit (c :: before) = digit c := by
  rw [opened, List.dropWhile_cons, other]
  rfl

theorem leftOf_cons (c : Char) : leftOf separator digit before (c :: s) =
    if betweenDigits separator digit before c s then leftOf separator digit (c :: before) s
    else c :: leftOf separator digit (c :: before) s := by
  rw [leftOf, keptFrom]
  split <;> rfl

theorem leftOf_other {c : Char} (other : separator c = false) :
    leftOf separator digit before (c :: s) = c :: leftOf separator digit (c :: before) s := by
  rw [leftOf_cons, betweenDigits, other, Bool.false_and, Bool.false_and, if_neg Bool.false_ne_true]

theorem leftOf_unopened {c : Char} (closed : opened separator digit before = false) :
    leftOf separator digit before (c :: s) = c :: leftOf separator digit (c :: before) s := by
  rw [opened] at closed
  rw [leftOf_cons, betweenDigits, closed, Bool.and_false, Bool.false_and, if_neg Bool.false_ne_true]

theorem countP_leftOf {q : Char → Bool} (apart : ∀ c, separator c → q c = false) :
    (leftOf separator digit before s).countP q = s.countP q := by
  induction s generalizing before with
  | nil => rfl
  | cons c s ih =>
      rw [leftOf_cons]
      split
      next inside =>
        simp only [betweenDigits, Bool.and_eq_true] at inside
        rw [ih, List.countP_cons, apart c inside.1.1]
        rfl
      next => rw [List.countP_cons, ih, List.countP_cons]

/-! ## Separators at the ends -/

theorem betweenDigits_eq (c : Char) : betweenDigits separator digit before c s =
    (separator c && opened separator digit before && opened separator digit s) := rfl

theorem leftOf_word {word : Text} (plain : ∀ c ∈ word, digit c = false)
    (closed : opened separator digit before = false) :
    leftOf separator digit before (word ++ s) =
      word ++ leftOf separator digit (word.reverse ++ before) s := by
  induction word generalizing before with
  | nil => rfl
  | cons c word ih =>
      have still : opened separator digit (c :: before) = false := by
        cases blank : separator c with
        | true => rw [opened_separator blank, closed]
        | false => rw [opened_other blank, plain c (by simp)]
      rw [List.cons_append, leftOf_unopened closed, ih (fun d member => plain d (by simp [member])) still]
      simp

theorem exists_leftOf_word {word y : Text} (plain : ∀ c ∈ word, digit c = false)
    (closed : opened separator digit before = false)
    (same : leftOf separator digit before s = word ++ y) : ∃ s', s = word ++ s' := by
  induction word generalizing before s with
  | nil => exact ⟨s, rfl⟩
  | cons c word ih => cases s with
    | nil => cases same
    | cons d s =>
        rw [leftOf_unopened closed] at same
        obtain ⟨rfl, tail⟩ := List.cons.inj same
        have still : opened separator digit (d :: before) = false := by
          cases blank : separator d with
          | true => rw [opened_separator blank, closed]
          | false => rw [opened_other blank, plain d (by simp)]
        obtain ⟨s', rfl⟩ := ih (fun e member => plain e (by simp [member])) still tail
        exact ⟨s', rfl⟩

theorem exists_leftOf_append {c : Char} (other : separator c = false) (x y : Text) :
    ∃ x', leftOf separator digit before (x ++ c :: y) =
      x' ++ c :: leftOf separator digit (c :: (x.reverse ++ before)) y := by
  induction x generalizing before with
  | nil => exact ⟨[], leftOf_other other⟩
  | cons d x ih =>
      obtain ⟨x', known⟩ := @ih (d :: before)
      rw [List.cons_append, leftOf_cons, known]
      split
      · exact ⟨x', by simp⟩
      · exact ⟨d :: x', by simp⟩

theorem leftOf_eq_append {c : Char} {x y : Text}
    (same : leftOf separator digit before s = x ++ c :: y) :
    ∃ x' s', s = x' ++ c :: s' ∧ leftOf separator digit (c :: (x'.reverse ++ before)) s' = y := by
  induction s generalizing before x with
  | nil => exact absurd same.symm (by simp [leftOf, keptFrom])
  | cons d s ih =>
      rw [leftOf_cons] at same
      split at same
      next =>
        obtain ⟨x', s', rfl, known⟩ := ih same
        exact ⟨d :: x', s', rfl, by simpa using known⟩
      next => cases x with
        | nil =>
            obtain ⟨rfl, tail⟩ := List.cons.inj same
            exact ⟨[], s, rfl, tail⟩
        | cons e x =>
            obtain ⟨rfl, tail⟩ := List.cons.inj same
            obtain ⟨x', s', rfl, known⟩ := ih tail
            exact ⟨d :: x', s', rfl, by simpa using known⟩

/-- A text without digits that begins with a word is left whole, and nothing makes another one. -/
theorem infix_leftOf_iff {c : Char} {word : Text} (other : separator c = false)
    (plain : ∀ d ∈ c :: word, digit d = false) :
    c :: word <:+: leftOf separator digit before s ↔ c :: word <:+: s := by
  have tail : ∀ d ∈ word, digit d = false := fun d member => plain d (by simp [member])
  have closed : ∀ b, opened separator digit (c :: b) = false := by
    intro b
    rw [opened_other other, plain c (by simp)]
  constructor
  · rintro ⟨x, y, same⟩
    rw [List.append_assoc, List.cons_append] at same
    obtain ⟨x', s', rfl, known⟩ := leftOf_eq_append same.symm
    obtain ⟨after, rfl⟩ := exists_leftOf_word tail (closed _) known
    exact ⟨x', after, by simp⟩
  · rintro ⟨x, y, rfl⟩
    obtain ⟨x', known⟩ := @exists_leftOf_append separator digit before c other x (word ++ y)
    rw [leftOf_word tail (closed _)] at known
    refine ⟨x', leftOf separator digit (word.reverse ++ (c :: (x.reverse ++ before))) y, ?_⟩
    rw [List.append_assoc x, List.cons_append, known]
    simp

theorem apart_leftOf_iff {space : Char → Bool} (spaces : ∀ c, space c → separator c)
    (apart : ∀ c, digit c → separator c = false) {first second : Text} (some_ : first ≠ [])
    (one : ∀ c ∈ first, separator c = false ∧ digit c = false)
    (two : ∀ c ∈ second, separator c = false ∧ digit c = false) :
    Apart space first second (leftOf separator digit before s) ↔ Apart space first second s := by
  have plain : ∀ run : Text, (∀ c ∈ run, space c) →
      ∀ c ∈ first ++ (run ++ second), digit c = false := by
    intro run blanks c member
    rcases List.mem_append.mp member with inside | later
    · exact (one c inside).2
    · rcases List.mem_append.mp later with between | inside
      · cases found : digit c with
        | false => rfl
        | true => exact nomatch (apart c found).symm.trans (spaces c (blanks c between))
      · exact (two c inside).2
  have held_ : ∀ run : Text, (∀ c ∈ run, space c) →
      (first ++ (run ++ second) <:+: leftOf separator digit before s ↔
        first ++ (run ++ second) <:+: s) := by
    intro run blanks
    have known := plain run blanks
    cases first with
    | nil => exact absurd rfl some_
    | cons c first => exact infix_leftOf_iff (one c (by simp)).1 known
  constructor
  · rintro ⟨x, run, y, same, run_, blanks⟩
    obtain ⟨x', y', known⟩ := (held_ run blanks).mp ⟨x, y, by rw [same]; simp⟩
    exact ⟨x', run, y', by rw [← known]; simp, run_, blanks⟩
  · rintro ⟨x, run, y, same, run_, blanks⟩
    obtain ⟨x', y', known⟩ := (held_ run blanks).mpr ⟨x, y, by rw [same]; simp⟩
    exact ⟨x', run, y', by rw [← known]; simp, run_, blanks⟩

/-! ## Texts without gaps -/

/-- No separators stand between two digits. The text comes after one that ends in a number or not,
with separators behind the number or not. -/
def Gapless (separator digit : Char → Bool) : Bool → Bool → Text → Prop
  | _, _, [] => True
  | number, parted, c :: s =>
      if separator c then Gapless separator digit number true s
      else (digit c → number → parted = false) ∧ Gapless separator digit (digit c) false s

theorem gapless_separator {number parted : Bool} {c : Char} (blank : separator c) :
    Gapless separator digit number parted (c :: s) ↔ Gapless separator digit number true s := by
  rw [Gapless, if_pos blank]

theorem gapless_other {number parted : Bool} {c : Char} (other : separator c = false) :
    Gapless separator digit number parted (c :: s) ↔
      (digit c → number → parted = false) ∧ Gapless separator digit (digit c) false s := by
  rw [Gapless, other, if_neg Bool.false_ne_true]

theorem gapless_words (one other : Bool) :
    Gapless separator digit false one s ↔ Gapless separator digit false other s := by
  cases s with
  | nil => rfl
  | cons c s => cases blank : separator c with
    | true => rw [gapless_separator blank, gapless_separator blank]
    | false => simp [gapless_other blank]

theorem gapless_prefix {number parted : Bool} {x y : Text}
    (known : Gapless separator digit number parted (x ++ y)) :
    Gapless separator digit number parted x := by
  induction x generalizing number parted with
  | nil => trivial
  | cons c x ih => cases blank : separator c with
    | true =>
        rw [List.cons_append, gapless_separator blank] at known
        exact (gapless_separator blank).mpr (ih known)
    | false =>
        rw [List.cons_append, gapless_other blank] at known
        exact (gapless_other blank).mpr (known.imp_right ih)

theorem gapless_dropWhile {space : Char → Bool} (spaces : ∀ c, space c → separator c) {number : Bool}
    (known : Gapless separator digit number true s) :
    Gapless separator digit number true (s.dropWhile space) := by
  induction s with
  | nil => exact known
  | cons c s ih =>
      rw [List.dropWhile_cons]
      split
      next blank => exact ih ((gapless_separator (spaces c blank)).mp known)
      next => exact known

theorem closed_of_gapless (known : Gapless separator digit true true s) :
    opened separator digit s = false := by
  induction s with
  | nil => rfl
  | cons c s ih => cases blank : separator c with
    | true =>
        rw [opened_separator blank]
        exact ih ((gapless_separator blank).mp known)
    | false =>
        have closes := ((gapless_other blank).mp known).1
        rw [opened_other blank]
        cases found : digit c with
        | false => rfl
        | true => exact absurd (closes found rfl) Bool.noConfusion

/-- What is left has no gap. Kept separators behind a number have no digit after them. -/
theorem gapless_leftOf {parted : Bool}
    (fresh : parted → opened separator digit before → opened separator digit s = false) :
    Gapless separator digit (opened separator digit before) parted
      (leftOf separator digit before s) := by
  induction s generalizing before parted with
  | nil => trivial
  | cons c s ih => cases blank : separator c with
    | true =>
        have next := @ih (c :: before)
        rw [opened_separator blank] at next
        rw [opened_separator blank] at fresh
        rw [leftOf_cons, betweenDigits_eq, blank, Bool.true_and]
        split
        next => exact next fresh
        next outside =>
          apply (gapless_separator blank).mpr
          apply next
          intro _ number
          simpa [number] using outside
    | false =>
        have next := @ih (c :: before) false Bool.noConfusion
        rw [opened_other blank] at next
        rw [opened_other blank] at fresh
        rw [leftOf_other blank, gapless_other blank]
        refine ⟨fun found number => ?_, next⟩
        cases parted with
        | false => rfl
        | true => exact nomatch (fresh rfl number).symm.trans found

theorem leftOf_of_gapless {parted : Bool}
    (known : Gapless separator digit (opened separator digit before) parted s) :
    leftOf separator digit before s = s := by
  induction s generalizing before parted with
  | nil => rfl
  | cons c s ih => cases blank : separator c with
    | true =>
        rw [gapless_separator blank] at known
        have outside : betweenDigits separator digit before c s = false := by
          rw [betweenDigits_eq, blank, Bool.true_and]
          cases number : opened separator digit before with
          | false => rfl
          | true =>
              rw [number] at known
              exact closed_of_gapless known
        rw [← opened_separator blank] at known
        rw [leftOf_cons, outside, if_neg Bool.false_ne_true, ih known]
    | false =>
        rw [gapless_other blank, ← @opened_other separator digit before c blank] at known
        rw [leftOf_other blank, ih known.2]

theorem gapless_squeeze {space : Char → Bool} (spaces : ∀ c, space c → separator c)
    (blank : separator ' ') {number parted : Bool} (known : Gapless separator digit number parted s) :
    Gapless separator digit number parted (squeeze space s) := by
  induction size : s.length using Nat.strong_induction_on generalizing number parted s with
  | _ size_ ih =>
    subst size
    cases s with
    | nil => trivial
    | cons c s => cases space_ : space c with
      | true =>
          rw [gapless_separator (spaces c space_)] at known
          rw [squeeze_of_space space_, gapless_separator blank]
          exact ih (s.dropWhile space).length
            (Nat.lt_succ_of_le (List.dropWhile_sublist space).length_le)
            (gapless_dropWhile spaces known) rfl
      | false =>
          have tail := fun n b (rest : Gapless separator digit n b s) =>
            ih s.length (Nat.lt_succ_self _) rest rfl
          rw [squeeze_cons_of_not space_]
          cases other : separator c with
          | true =>
              rw [gapless_separator other] at known ⊢
              exact tail number true known
          | false =>
              rw [gapless_other other] at known ⊢
              exact ⟨known.1, tail (digit c) false known.2⟩

theorem gapless_strip {space : Char → Bool} (spaces : ∀ c, space c → separator c)
    (known : Gapless separator digit false false s) :
    Gapless separator digit false false (strip space s) := by
  have dropped : Gapless separator digit false false (s.dropWhile space) :=
    (gapless_words true false).mp (gapless_dropWhile spaces ((gapless_words false true).mp known))
  obtain ⟨trail, parts⟩ := List.rdropWhile_prefix space (s.dropWhile space)
  rw [← parts] at dropped
  exact gapless_prefix dropped

end Left

end Vekst.Normalize
