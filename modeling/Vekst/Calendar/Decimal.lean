import Mathlib.Algebra.Group.Nat.Defs
import Mathlib.Data.List.Basic
import Mathlib.Tactic.Tauto

namespace Decimal

/-- The decimal digits of `n`, padded on the left with zeros to a width: `%0wd`. -/
def padded (width n : Nat) : List Char := (Nat.toDigits 10 n).leftpad width '0'

/-- `%0wd` of a signed number: the sign takes one place of the width. -/
def paddedInt (width : Nat) (n : Int) : List Char :=
  if n < 0 then '-' :: padded (width - 1) n.natAbs else padded width n.natAbs

abbrev value (digits : List Char) : Nat := Nat.ofDigitChars 10 digits 0

theorem value_padded (width n : Nat) : value (padded width n) = n := by
  simp [padded, List.leftpad, value, Nat.ofDigitChars_append, Nat.ofDigitChars_replicate_zero,
    Nat.ofDigitChars_toDigits]

theorem padded_injective (width : Nat) : Function.Injective (padded width) := by
  intro n m same
  rw [← value_padded width n, same, value_padded]

theorem isDigit_of_mem_padded {width n : Nat} {c : Char} (member : c ∈ padded width n) :
    c.isDigit := by
  rcases List.mem_append.mp member with zero | digit
  · rw [List.eq_of_mem_replicate zero]
    rfl
  · exact Nat.isDigit_of_mem_toDigits (by decide) (by decide) digit

theorem length_padded {width n : Nat} (positive : 0 < width) (small : n < 10 ^ width) :
    (padded width n).length = width := by
  have bound : (Nat.toDigits 10 n).length ≤ width :=
    (Nat.length_toDigits_le_iff (by decide) positive).mpr small
  simp only [padded, List.leftpad, List.length_append, List.length_replicate]
  omega

theorem lt_length_padded {width n : Nat} (positive : 0 < width) (large : 10 ^ width ≤ n) :
    width < (padded width n).length := by
  have bound : ¬ (Nat.toDigits 10 n).length ≤ width :=
    fun short => absurd ((Nat.length_toDigits_le_iff (by decide) positive).mp short) (by omega)
  simp only [padded, List.leftpad, List.length_append, List.length_replicate]
  omega

theorem paddedInt_of_nonneg (width : Nat) {n : Int} (nonneg : 0 ≤ n) :
    paddedInt width n = padded width n.toNat := by
  have same : n.natAbs = n.toNat := by omega
  have unsigned : ¬ n < 0 := by omega
  simp [paddedInt, unsigned, same]

/-! ## Order -/

theorem value_cons (c : Char) (digits : List Char) :
    value (c :: digits) = 10 ^ digits.length * (c.toNat - '0'.toNat) + value digits := by
  rw [value, Nat.ofDigitChars_cons, Nat.ofDigitChars_eq_ofDigitChars_zero]
  simp

theorem value_append (left right : List Char) :
    value (left ++ right) = value left * 10 ^ right.length + value right := by
  rw [value, Nat.ofDigitChars_append, Nat.ofDigitChars_eq_ofDigitChars_zero]
  simp [value, Nat.mul_comm]

theorem value_zeros (n : Nat) : value (List.replicate n '0') = 0 := by
  induction n with
  | zero => rfl
  | succ n ih => rw [List.replicate_succ, value_cons, ih, Nat.sub_self, Nat.mul_zero]

theorem value_lt (digits : List Char) (known : ∀ c ∈ digits, c.isDigit) :
    value digits < 10 ^ digits.length := by
  induction digits with
  | nil => simp [value]
  | cons c digits ih =>
      have digit := Char.isDigit_iff_toNat.mp (known c (by simp))
      have rest := ih fun d member => known d (by simp [member])
      have top : c.toNat - '0'.toNat ≤ 9 := by
        have nine : '9'.toNat = 57 := rfl
        have zero : '0'.toNat = 48 := rfl
        omega
      rw [value_cons, List.length_cons, Nat.pow_succ]
      have scaled := Nat.mul_le_mul_left (10 ^ digits.length) top
      omega

/-- Numerals of one width compare as texts the way their values do. -/
theorem lt_iff_value_lt {left right : List Char} (leftDigits : ∀ c ∈ left, c.isDigit)
    (rightDigits : ∀ c ∈ right, c.isDigit) (sameLength : left.length = right.length) :
    left < right ↔ value left < value right := by
  induction left generalizing right with
  | nil =>
      cases right with
      | nil => simp
      | cons d right => simp at sameLength
  | cons c left ih =>
      cases right with
      | nil => simp at sameLength
      | cons d right =>
          have length : left.length = right.length := by simpa using sameLength
          have tails := ih (fun x member => leftDigits x (by simp [member]))
            (fun x member => rightDigits x (by simp [member])) length
          have cDigit := Char.isDigit_iff_toNat.mp (leftDigits c (by simp))
          have dDigit := Char.isDigit_iff_toNat.mp (rightDigits d (by simp))
          have leftBound := value_lt left fun x member => leftDigits x (by simp [member])
          have rightBound := value_lt right fun x member => rightDigits x (by simp [member])
          rw [List.cons_lt_cons_iff, tails, value_cons, value_cons, length]
          rw [length] at leftBound
          rcases Nat.lt_trichotomy c.toNat d.toNat with less | same | more
          · have head : c < d := less
            have step : c.toNat - '0'.toNat + 1 ≤ d.toNat - '0'.toNat := by omega
            have scaled := Nat.mul_le_mul_left (10 ^ right.length) step
            rw [Nat.mul_add] at scaled
            simp only [head, true_or, true_iff]
            omega
          · obtain rfl : c = d := Char.toNat_inj.mp same
            simp
          · have notLess : ¬ c < d := fun less => absurd less (Nat.lt_asymm more)
            have different : c ≠ d := fun same => by simp [same] at more
            have step : d.toNat - '0'.toNat + 1 ≤ c.toNat - '0'.toNat := by omega
            have scaled := Nat.mul_le_mul_left (10 ^ right.length) step
            rw [Nat.mul_add] at scaled
            simp only [notLess, different, false_and, or_self, false_iff]
            omega

theorem append_lt_append_iff {left right leftTail rightTail : List Char}
    (sameLength : left.length = right.length) :
    left ++ leftTail < right ++ rightTail ↔
      left < right ∨ left = right ∧ leftTail < rightTail := by
  induction left generalizing right with
  | nil =>
      cases right with
      | nil => simp
      | cons d right => simp at sameLength
  | cons c left ih =>
      cases right with
      | nil => simp at sameLength
      | cons d right =>
          have length : left.length = right.length := by simpa using sameLength
          simp only [List.cons_append, List.cons_lt_cons_iff, ih length, List.cons.injEq]
          tauto

theorem padded_lt_iff {width n m : Nat} (positive : 0 < width) (nSmall : n < 10 ^ width)
    (mSmall : m < 10 ^ width) : padded width n < padded width m ↔ n < m := by
  rw [lt_iff_value_lt (fun _ => isDigit_of_mem_padded) (fun _ => isDigit_of_mem_padded)
    (by rw [length_padded positive nSmall, length_padded positive mSmall]),
    value_padded, value_padded]

end Decimal
