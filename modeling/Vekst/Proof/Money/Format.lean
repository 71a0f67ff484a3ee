import Mathlib.Tactic.IntervalCases
import Vekst.Proof.Money.Decimal

namespace Vekst.Money
open Decimal

/-! ## Amounts written and read back -/

/-- The decimal numeral of an amount: no digit before the point that it does not need, and so many
behind it. -/
def Numeral (exp : Nat) (n : Int) (text : List Char) : Prop :=
  ∃ frac, text = signed (n < 0) (Nat.toDigits 10 (n.natAbs / 10 ^ exp) ++
      if exp = 0 then [] else '.' :: frac) ∧
    frac.length = exp ∧ (∀ c ∈ frac, c.isDigit) ∧ value frac = n.natAbs % 10 ^ exp

/-- An amount is written as its numeral, and read back as it was. -/
def RoundTrips (code : String) (exp : Nat) (m : Int64) : Prop :=
  ∃ text, format ⟨code, m⟩ = some text ∧ Numeral exp m.toInt text ∧
    parse code text = some ⟨code, m⟩

variable {code : String} {exp : Nat} {m : Int64}

theorem digits_toDigits (n : Nat) : ∀ c ∈ Nat.toDigits 10 n, c.isDigit :=
  fun _ member => Nat.isDigit_of_mem_toDigits (by decide) (by decide) member

theorem formatInt_of_nonneg (nonneg : 0 ≤ m.toInt) : formatInt m = Nat.toDigits 10 m.toInt.natAbs := by
  have unsigned : ¬ m.toInt < 0 := Int.not_lt.mpr nonneg
  simp [formatInt, paddedInt, unsigned, padded]

theorem natAbs_lt (inner : m ≠ Int64.minValue) : m.toInt.natAbs < 2 ^ 63 := by
  have least : m.toInt ≠ -2 ^ 63 := by
    intro same
    exact inner (Int64.toInt_inj.mp (same.trans Int64.toInt_minValue.symm))
  have low := m.le_toInt
  have high := m.toInt_lt
  omega

/-- The magnitude of an amount is one too, but for the least. -/
theorem toInt_magnitude (inner : m ≠ Int64.minValue) :
    (if m < 0 then -m else m).toInt = m.toInt.natAbs := by
  have bound := natAbs_lt inner
  have zero_ : (0 : Int64).toInt = 0 := rfl
  split
  next negative =>
    rw [Int64.lt_iff_toInt_lt, zero_] at negative
    rw [Int64.toInt_neg, Int.bmod_eq_of_le] <;> omega
  next other =>
    rw [Int64.lt_iff_toInt_lt, zero_] at other
    omega

theorem negIf_magnitude : negIf (m < 0) (.ofInt m.toInt.natAbs) = m := by
  have zero_ : (0 : Int64).toInt = 0 := rfl
  by_cases negative : m < 0
  · have sign : m.toInt < 0 := by rwa [Int64.lt_iff_toInt_lt, zero_] at negative
    have magnitude : (m.toInt.natAbs : Int) = -m.toInt := by omega
    simp [negIf, negative, magnitude, Int64.ofInt_neg]
  · have sign : ¬ m.toInt < 0 := by rwa [Int64.lt_iff_toInt_lt, zero_] at negative
    have magnitude : (m.toInt.natAbs : Int) = m.toInt := by omega
    simp [negIf, negative, magnitude]

theorem negative_iff : (m < 0) ↔ m.toInt < 0 := Int64.lt_iff_toInt_lt

theorem bmod_natCast {n : ℕ} (small : n < 2 ^ 63) : (n : ℤ).bmod (2 ^ 64) = n :=
  Int.bmod_eq_of_le (by omega) (by omega)

theorem toInt_pow10 (small : exp ≤ 4) : (pow10 exp).toInt = 10 ^ exp := by
  have power : (10 : Int) ^ exp ≤ 10 ^ 4 := by
    exact_mod_cast Nat.pow_le_pow_right (by decide) small
  have positive : (0 : Int) < 10 ^ exp := by positivity
  rw [pow10_eq, Int64.toInt_ofInt_of_le] <;> omega

/-- Every amount but the least is written as its numeral. -/
theorem format_eq (known : exponent code = some exp) (inner : m ≠ Int64.minValue) :
    format ⟨code, m⟩ = some (signed (m < 0) (Nat.toDigits 10 (m.toInt.natAbs / 10 ^ exp) ++
      if exp = 0 then [] else '.' :: padded exp (m.toInt.natAbs % 10 ^ exp))) := by
  have small := exponent_le known
  have scale := toInt_pow10 small
  have units := toInt_magnitude inner
  have positive : 0 < 10 ^ exp := Nat.pow_pos (by decide)
  have bound := natAbs_lt inner
  unfold format
  rw [known, Option.bind_eq_bind, Option.bind_some]
  by_cases unit : exp = 0
  · subst unit
    have signs : m < 0 ↔ m.toInt < 0 := negative_iff
    simp only [if_pos, pow_zero, Nat.div_one, List.append_nil, formatInt, paddedInt, signed, signs,
      decide_eq_true_eq]
    split <;> simp [padded]
  · have whole : ((if m < 0 then -m else m) / pow10 exp).toInt =
        ((m.toInt.natAbs / 10 ^ exp : ℕ) : ℤ) := by
      have quotient : (m.toInt.natAbs : ℤ).tdiv (10 ^ exp) = ((m.toInt.natAbs / 10 ^ exp : ℕ) : ℤ) := by
        rw [Int.tdiv_eq_ediv_of_nonneg (Int.natCast_nonneg _)]
        norm_cast
      have fits := Nat.lt_of_le_of_lt (Nat.div_le_self m.toInt.natAbs (10 ^ exp)) bound
      rw [Int64.toInt_div, units, scale, quotient, bmod_natCast fits]
    have rest : ((if m < 0 then -m else m) % pow10 exp).toInt =
        ((m.toInt.natAbs % 10 ^ exp : ℕ) : ℤ) := by
      rw [Int64.toInt_mod, units, scale, Int.tmod_eq_emod_of_nonneg (Int.natCast_nonneg _)]
      norm_cast
    simp only [if_neg unit]
    rw [formatInt_of_nonneg (whole ▸ Int.natCast_nonneg _), whole, rest,
      paddedInt_of_nonneg exp (Int.natCast_nonneg _), Int.natAbs_natCast, Int.toNat_natCast]
    simp [signed]

theorem roundTrips_of_inner (known : exponent code = some exp) (inner : m ≠ Int64.minValue) :
    RoundTrips code exp m := by
  have bound := natAbs_lt inner
  have positive : 0 < 10 ^ exp := Nat.pow_pos (by decide)
  have signs : (m < 0) = (m.toInt < 0) := propext negative_iff
  have some_ : Nat.toDigits 10 (m.toInt.natAbs / 10 ^ exp) ≠ [] := Nat.toDigits_ne_nil
  have digits := digits_toDigits (m.toInt.natAbs / 10 ^ exp)
  have whole : value (Nat.toDigits 10 (m.toInt.natAbs / 10 ^ exp)) = m.toInt.natAbs / 10 ^ exp :=
    Nat.ofDigitChars_toDigits (by decide) (by decide)
  refine ⟨_, format_eq known inner, ?_, ?_⟩
  · by_cases unit : exp = 0
    · subst unit
      refine ⟨[], by simp [signs], rfl, by simp, ?_⟩
      rw [pow_zero, Nat.mod_one]
      rfl
    · refine ⟨padded exp (m.toInt.natAbs % 10 ^ exp), by simp only [signs],
        length_padded (Nat.pos_of_ne_zero unit) (Nat.mod_lt _ positive),
        fun _ => isDigit_of_mem_padded, value_padded _ _⟩
  · by_cases unit : exp = 0
    · subst unit
      rw [if_pos rfl, List.append_nil, parse_digits some_ digits, known, Option.bind_some, whole]
      simp only [pow_zero, Nat.div_one, mul_one]
      rw [if_pos bound, negIf_magnitude]
    · have length := length_padded (Nat.pos_of_ne_zero unit)
        (Nat.mod_lt m.toInt.natAbs positive)
      have someFrac : padded exp (m.toInt.natAbs % 10 ^ exp) ≠ [] := by
        apply List.ne_nil_of_length_pos
        omega
      have total : value (Nat.toDigits 10 (m.toInt.natAbs / 10 ^ exp) ++
          padded exp (m.toInt.natAbs % 10 ^ exp)) = m.toInt.natAbs := by
        rw [value_append, whole, length, value_padded]
        exact Nat.div_add_mod' _ _
      have fits : m.toInt.natAbs / 10 ^ exp < 2 ^ 63 :=
        Nat.lt_of_le_of_lt (Nat.div_le_self _ _) bound
      rw [if_neg unit, parse_point some_ digits someFrac (fun _ => isDigit_of_mem_padded), known,
        Option.bind_some, length, if_pos ⟨Nat.le_refl _, whole.symm ▸ fits⟩, total, Nat.sub_self,
        pow_zero, mul_one, negIf_magnitude]

/-- The least amount is its own negation, and keeps a second sign. -/
theorem not_roundTrips_least (known : exponent code = some exp) :
    ¬ RoundTrips code exp Int64.minValue := by
  rintro ⟨text, written, ⟨frac, numeral, _⟩, read⟩
  have small := exponent_le known
  unfold format at written
  rw [known, Option.bind_eq_bind, Option.bind_some] at written
  by_cases unit : exp = 0
  · subst unit
    cases written
    have digits : formatInt Int64.minValue = signed true "9223372036854775808".toList := by decide
    have all : "9223372036854775808".toList.all Char.isDigit := by decide
    dsimp only at read
    rw [digits, parse_digits (by decide) (List.all_eq_true.mp all), known, Option.bind_some,
      if_neg (by decide)] at read
    cases read
  · have negative : Int64.minValue < 0 := by decide
    have opposite : -Int64.minValue = Int64.minValue := by decide
    have lead : (formatInt (Int64.minValue / pow10 exp)).head? = some '-' := by
      interval_cases exp
      · exact absurd rfl unit
      all_goals decide
    simp only [if_neg unit, if_pos negative, opposite] at written
    have second : text[1]? = some '-' := by
      cases written
      obtain ⟨later, opens⟩ := List.head?_eq_some_iff.mp lead
      rw [opens]
      rfl
    obtain ⟨c, rest, opens⟩ := List.exists_cons_of_ne_nil
      (@Nat.toDigits_ne_nil (Int64.minValue.toInt.natAbs / 10 ^ exp) 10)
    have digit := digits_toDigits (Int64.minValue.toInt.natAbs / 10 ^ exp) c
      (opens ▸ List.mem_cons_self)
    have sign : decide (Int64.minValue.toInt < 0) = true := by decide
    rw [numeral, sign, opens] at second
    obtain rfl : c = '-' := Option.some.inj second
    cases digit

theorem format_parse_iff (code : String) (exp : Nat) (m : Int64)
    (known : exponent code = some exp) : RoundTrips code exp m ↔ m ≠ Int64.minValue := by
  constructor
  · rintro trips rfl
    exact not_roundTrips_least known trips
  · exact roundTrips_of_inner known

theorem format_parse_sample : RoundTrips "BYN" 2 (-5) ↔ (-5 : Int64) ≠ Int64.minValue :=
  format_parse_iff "BYN" 2 (-5) rfl

theorem least_amount_is_no_numeral : ¬ ∀ (code : String) (exp : Nat) (m : Int64),
    exponent code = some exp → RoundTrips code exp m :=
  fun all => not_roundTrips_least rfl (all "BYN" 2 Int64.minValue rfl)

end Vekst.Money
