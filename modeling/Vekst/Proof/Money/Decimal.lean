import Vekst.Arithmetic.Wrapping
import Vekst.Money.Decimal
import Vekst.Text.Scan

namespace Vekst.Money
open Decimal

/-! ## What a decimal text of plain digits is read as -/

def signed (neg : Bool) (s : List Char) : List Char := if neg then '-' :: s else s

theorem exponent_le {code : String} {exp : Nat} (known : exponent code = some exp) : exp ≤ 4 := by
  have all : exponents.all (·.2 ≤ 4) := by decide +kernel
  unfold exponent at known
  rw [List.lookup_eq_some_iff] at known
  obtain ⟨before, after, entries, _⟩ := known
  have member : (code, exp) ∈ exponents := by
    rw [entries]
    simp
  exact of_decide_eq_true (List.all_eq_true.mp all _ member)

theorem pow10_eq (exp : Nat) : pow10 exp = .ofInt (10 ^ exp) := by
  unfold pow10
  rw [← Int64.ofInt_eq_ofNat]
  norm_cast

variable {currency : String} {neg : Bool} {digits whole frac : List Char}

theorem parseInt_digits (some_ : digits ≠ []) (known : ∀ c ∈ digits, c.isDigit) :
    parseInt digits = if value digits < 2 ^ 63 then some (.ofInt (value digits)) else none := by
  obtain ⟨c, rest, rfl⟩ := List.exists_cons_of_ne_nil some_
  have first : c.isDigit := known c List.mem_cons_self
  have minus : c ≠ '-' := Scan.ne_of_isDigit first rfl
  have plus : c ≠ '+' := Scan.ne_of_isDigit first rfl
  have all : (c :: rest).all Char.isDigit := List.all_eq_true.mpr known
  unfold parseInt
  split
  rename_i read
  split at read
  case h_1 same => exact absurd (List.cons.inj same).1 minus
  case h_2 same => exact absurd (List.cons.inj same).1 plus
  case h_3 =>
    cases read
    have range : -2 ^ 63 ≤ (value (c :: rest) : ℤ) := by omega
    simp only [Bool.false_eq_true, if_false, all, ne_eq, reduceCtorEq, not_false_eq_true, range,
      true_and]
    norm_cast

theorem head_ne_minus (some_ : digits ≠ []) (known : ∀ c ∈ digits, c.isDigit) (s : List Char) :
    (digits ++ s).head? ≠ some '-' := by
  obtain ⟨c, rest, rfl⟩ := List.exists_cons_of_ne_nil some_
  have first : c.isDigit := known c List.mem_cons_self
  simpa using Scan.ne_of_isDigit first rfl

/-- The sign is cut off before anything else is read. -/
theorem parse_signed {s : List Char} (unsigned : s.head? ≠ some '-') :
    parse currency (signed neg s) = (exponent currency).bind fun exp =>
      let whole := s.takeWhile (· ≠ '.')
      let frac := s.drop (whole.length + 1)
      if exp = 0 then
        if whole.length < s.length then none
        else (parseInt whole).bind fun n => some ⟨currency, negIf neg n⟩
      else if exp < frac.length then none
      else (parseInt whole).bind fun wholeN =>
        (parseInt (frac ++ List.replicate (exp - frac.length) '0')).bind fun fracN =>
          some ⟨currency, negIf neg (wholeN * pow10 exp + fracN)⟩ := by
  unfold parse
  cases neg with
  | false =>
      simp only [signed, Bool.false_eq_true, if_false, unsigned, decide_false]
      rfl
  | true =>
      simp only [signed, if_true, List.head?_cons, decide_true, List.tail_cons]
      rfl

theorem takeWhile_point (known : ∀ c ∈ digits, c.isDigit) (s : List Char) :
    (digits ++ s).takeWhile (· ≠ '.') = digits ++ s.takeWhile (· ≠ '.') := by
  apply List.takeWhile_append_of_pos
  intro c member
  exact decide_eq_true (Scan.ne_of_isDigit (known c member) rfl)

theorem parseInt_fraction (known : ∀ c ∈ frac, c.isDigit) {exp : Nat} (room : frac.length ≤ exp)
    (positive : 0 < exp) (small : exp ≤ 4) :
    parseInt (frac ++ List.replicate (exp - frac.length) '0') =
      some (.ofInt (value frac * 10 ^ (exp - frac.length))) := by
  have all : ∀ c ∈ frac ++ List.replicate (exp - frac.length) '0', c.isDigit := by
    intro c member
    rcases List.mem_append.mp member with ours | zero
    · exact known c ours
    · rw [List.eq_of_mem_replicate zero]
      rfl
  have length : (frac ++ List.replicate (exp - frac.length) '0').length = exp := by
    rw [List.length_append, List.length_replicate]
    omega
  have some_ : frac ++ List.replicate (exp - frac.length) '0' ≠ [] := by
    apply List.ne_nil_of_length_pos
    omega
  have bound := value_lt _ all
  have power : 10 ^ exp ≤ 10 ^ 4 := Nat.pow_le_pow_right (by decide) small
  rw [length] at bound
  rw [parseInt_digits some_ all, if_pos (by omega), value_append, value_zeros,
    List.length_replicate]
  simp

/-- A whole number of units. -/
theorem parse_digits (some_ : digits ≠ []) (known : ∀ c ∈ digits, c.isDigit) :
    parse currency (signed neg digits) = (exponent currency).bind fun exp =>
      if value digits < 2 ^ 63 then
        some ⟨currency, negIf neg (.ofInt (value digits * 10 ^ exp))⟩
      else none := by
  have unsigned := head_ne_minus some_ known []
  have taken := takeWhile_point known []
  rw [List.append_nil] at unsigned taken
  rw [List.takeWhile_nil, List.append_nil] at taken
  rw [parse_signed unsigned]
  cases exact_ : exponent currency with
  | none => rfl
  | some exp =>
      simp only [Option.bind_some, taken, parseInt_digits some_ known]
      by_cases unit : exp = 0
      · subst unit
        rw [if_pos rfl, if_neg (Nat.lt_irrefl _)]
        split <;> simp
      · have dropped : digits.drop (digits.length + 1) = [] :=
          List.drop_eq_nil_of_le (Nat.le_succ _)
        have zeros := @parseInt_fraction [] (by simp) exp (Nat.zero_le exp)
          (Nat.pos_of_ne_zero unit) (exponent_le exact_)
        rw [if_neg unit, dropped, if_neg (by simp), zeros]
        split
        · simp [pow10_eq, value]
        · rfl

/-- A number with a decimal point. -/
theorem parse_point (some_ : whole ≠ []) (known : ∀ c ∈ whole, c.isDigit)
    (someFrac : frac ≠ []) (knownFrac : ∀ c ∈ frac, c.isDigit) :
    parse currency (signed neg (whole ++ '.' :: frac)) = (exponent currency).bind fun exp =>
      if frac.length ≤ exp ∧ value whole < 2 ^ 63 then
        some ⟨currency, negIf neg
          (.ofInt (value (whole ++ frac) * 10 ^ (exp - frac.length)))⟩
      else none := by
  have long := List.length_pos_of_ne_nil someFrac
  have taken : (whole ++ '.' :: frac).takeWhile (· ≠ '.') = whole := by
    rw [takeWhile_point known, List.takeWhile_cons_of_neg (by simp), List.append_nil]
  have dropped : (whole ++ '.' :: frac).drop (whole.length + 1) = frac := by
    rw [List.drop_append]
    simp
  rw [parse_signed (head_ne_minus some_ known _)]
  cases exact_ : exponent currency with
  | none => rfl
  | some exp =>
      simp only [Option.bind_some, taken, dropped, parseInt_digits some_ known]
      by_cases unit : exp = 0
      · have short : ¬ frac.length ≤ exp := by omega
        rw [if_pos unit, if_pos (by simp), if_neg (fun fits => short fits.1)]
      by_cases room : frac.length ≤ exp
      · rw [if_neg unit, if_neg (by omega), parseInt_fraction knownFrac room
          (Nat.pos_of_ne_zero unit) (exponent_le exact_)]
        by_cases small : value whole < 2 ^ 63
        · have sum : ((value (whole ++ frac) : ℕ) : ℤ) * 10 ^ (exp - frac.length) =
              value whole * 10 ^ exp + value frac * 10 ^ (exp - frac.length) := by
            have power : (10 : ℤ) ^ exp = 10 ^ frac.length * 10 ^ (exp - frac.length) := by
              rw [← pow_add, Nat.add_sub_cancel' room]
            rw [value_append, power]
            push_cast
            ring
          rw [if_pos small, if_pos ⟨room, small⟩, sum, Int64.ofInt_add,
            Int64.ofInt_mul (value whole : ℤ), pow10_eq]
          rfl
        · rw [if_neg small, if_neg (fun fits => small fits.2)]
          rfl
      · rw [if_neg unit, if_pos (by omega), if_neg (fun fits => room fits.1)]

end Vekst.Money
