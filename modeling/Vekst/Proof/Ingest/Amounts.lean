import Mathlib.Data.Rat.Cast.Order
import Mathlib.Tactic.FieldSimp
import Mathlib.Tactic.Positivity
import Vekst.Proof.Ingest.Separator

namespace Vekst.Ingest
open Regex Money Decimal

/-! ## The number that a cell spells -/

/-- A sign in front of a number; a plus is none, and one behind a minus is none either. -/
def Signed (neg : Bool) (sign : Text) : Prop :=
  (neg = false ∧ (sign = [] ∨ sign = ['+'])) ∨ (neg = true ∧ (sign = ['-'] ∨ sign = ['-', '+']))

/-- Digits, with the last of comma and full stop before the fraction and the other one between the
digits before it. -/
def Marked (body whole frac : Text) : Prop :=
  Digits whole ∧ ((body = whole ∧ frac = []) ∨ Digits frac ∧ ∃ sep other grouped, Marks sep other ∧
    body = grouped ++ sep :: frac ∧ whole = grouped.filter (· ≠ other))

/-- What a cell spells once its spaces are dropped; nothing is zero. -/
def Spells (raw : Text) (neg : Bool) (whole frac : Text) : Prop :=
  let number := trimSpace (raw.filter (· ∉ thousandSpaces))
  (number = [] ∧ neg = false ∧ whole = ['0'] ∧ frac = []) ∨
    ∃ sign body, number = sign ++ body ∧ Signed neg sign ∧ Marked body whole frac

/-- The value of the number in units. -/
def spelled (neg : Bool) (whole frac : Text) : ℚ :=
  (if neg then -1 else 1) * (value (whole ++ frac) / 10 ^ frac.length)

/-- The value in minor units, where the fraction has no more digits than there are. -/
def spelledMinor (exp : Nat) (neg : Bool) (whole frac : Text) : ℤ :=
  (if neg then -1 else 1) * (value (whole ++ frac) * 10 ^ (exp - frac.length))

/-- An amount that is read is exactly the one that the cell spells, and what has no exact amount is
refused. -/
def ReadExactly (currency : String) (exp : Nat) (raw : Text) : Prop :=
  (∀ m, parseAmount currency raw = some m → ∃ neg whole frac, Spells raw neg whole frac ∧
    (m.minorUnits.toInt : ℚ) = spelled neg whole frac * 10 ^ exp) ∧
  ∀ neg whole frac, Spells raw neg whole frac →
    (exp < frac.length ∨ ¬ Wrapping.Fits (spelledMinor exp neg whole frac)) →
      parseAmount currency raw = none

/-- No number of the cell has a whole part below 2^63 and, of as many fraction digits as the
currency has, a value in minor units that is no `int64`. -/
def NoOverflow (exp : Nat) (raw : Text) : Prop :=
  ∀ neg whole frac, Spells raw neg whole frac → frac.length ≤ exp → value whole < 2 ^ 63 →
    Wrapping.Fits (spelledMinor exp neg whole frac)

variable {currency : String} {exp : Nat} {raw sign body whole frac : Text} {neg : Bool}

theorem spelledMinor_eq (room : frac.length ≤ exp) :
    (spelledMinor exp neg whole frac : ℚ) = spelled neg whole frac * 10 ^ exp := by
  have power : (10 : ℚ) ^ exp = 10 ^ (exp - frac.length) * 10 ^ frac.length := by
    rw [← pow_add, Nat.sub_add_cancel room]
  have some_ : (10 : ℚ) ^ frac.length ≠ 0 := by positivity
  unfold spelledMinor spelled
  rw [power]
  push_cast
  field_simp

/-! ## Signs and marks -/

theorem isMark_of_isDigit {c : Char} (digit : c.isDigit) : isMark c = false := by
  have comma : c ≠ ',' := Scan.ne_of_isDigit digit rfl
  have point : c ≠ '.' := Scan.ne_of_isDigit digit rfl
  simp [isMark, comma, point]

/-- What is marked begins with a digit or a mark. -/
theorem Marked.head (marked : Marked body whole frac) :
    ∃ c rest, body = c :: rest ∧ c ≠ '-' ∧ c ≠ '+' := by
  have apart {c : Char} (digit : c.isDigit) : c ≠ '-' ∧ c ≠ '+' :=
    ⟨Scan.ne_of_isDigit digit rfl, Scan.ne_of_isDigit digit rfl⟩
  obtain ⟨digits, ⟨rfl, _⟩ | ⟨_, sep, other, grouped, marks, rfl, rfl⟩⟩ := marked
  · obtain ⟨c, rest, rfl⟩ := List.exists_cons_of_ne_nil digits.1
    exact ⟨c, rest, rfl, apart (digits.2 c List.mem_cons_self)⟩
  · cases grouped with
    | nil => exact absurd rfl digits.1
    | cons c grouped =>
        refine ⟨c, grouped ++ sep :: frac, rfl, ?_⟩
        by_cases mark : c = other
        · rcases marks with ⟨_, rfl⟩ | ⟨_, rfl⟩ <;> subst mark <;> decide
        · exact apart (digits.2 c (List.mem_filter.mpr ⟨List.mem_cons_self, decide_eq_true mark⟩))

theorem unsignedText_signed (written : trimSpace (raw.filter (· ∉ thousandSpaces)) = sign ++ body)
    (signs : Signed neg sign) (marked : Marked body whole frac) :
    unsignedText raw = (neg, body) := by
  obtain ⟨c, rest, rfl, minus, plus⟩ := marked.head
  unfold unsignedText
  rw [written]
  rcases signs with ⟨rfl, rfl | rfl⟩ | ⟨rfl, rfl | rfl⟩
  · simp [minus, plus]
  · simp
  · simp [plus]
  · simp

theorem exists_signed (raw : Text) : ∃ sign, Signed (unsignedText raw).1 sign ∧
    trimSpace (raw.filter (· ∉ thousandSpaces)) = sign ++ (unsignedText raw).2 := by
  unfold unsignedText
  generalize trimSpace (raw.filter (· ∉ thousandSpaces)) = number
  have after (c : Char) (s : Text) (same : s.head? = some c) : s = c :: s.tail :=
    List.eq_cons_of_mem_head? same
  by_cases minus : number.head? = some '-'
  · by_cases plus : number.tail.head? = some '+'
    · refine ⟨['-', '+'], .inr ⟨by simp [minus], .inr rfl⟩, ?_⟩
      simp only [minus, if_pos, plus]
      exact (after _ _ minus).trans (congrArg _ (after _ _ plus))
    · refine ⟨['-'], .inr ⟨by simp [minus], .inl rfl⟩, ?_⟩
      simp only [minus, if_pos, plus, if_false]
      exact after _ _ minus
  · by_cases plus : number.head? = some '+'
    · refine ⟨['+'], .inl ⟨by simp [minus], .inr rfl⟩, ?_⟩
      simp only [if_neg minus, if_pos plus]
      exact after _ _ plus
    · refine ⟨[], .inl ⟨by simp [minus], .inl rfl⟩, ?_⟩
      simp only [if_neg minus, if_neg plus]
      rfl

/-! ## What is spelled is read -/

theorem decimalByPosition_marked (marked : Marked body whole frac) :
    decimalByPosition body = whole ++ if frac = [] then [] else '.' :: frac := by
  obtain ⟨digits, ⟨rfl, rfl⟩ | ⟨fracDigits, sep, other, grouped, marks, rfl, rfl⟩⟩ := marked
  · rw [if_pos rfl, List.append_nil]
    exact decimalByPosition_plain fun c member => isMark_of_isDigit (digits.2 c member)
  · rw [if_neg fracDigits.1]
    exact decimalByPosition_cut marks fun c member => isMark_of_isDigit (fracDigits.2 c member)

/-- A number is read where its fraction is short enough and its whole part fits. -/
theorem parse_marked (known : Money.exponent currency = some exp) (marked : Marked body whole frac) :
    reading currency neg (decimalByPosition body) =
      if frac.length ≤ exp ∧ value whole < 2 ^ 63 then
        some ⟨currency, negIf neg (.ofInt (value (whole ++ frac) * 10 ^ (exp - frac.length)))⟩
      else none := by
  rw [decimalByPosition_marked marked]
  obtain ⟨digits, ⟨_, rfl⟩ | ⟨fracDigits, _⟩⟩ := marked
  · rw [if_pos rfl, List.append_nil, reading, if_pos (plainDecimal_of_digits digits),
      parse_digits digits.1 digits.2, known, Option.bind_some]
    simp
  · rw [if_neg fracDigits.1, reading, if_pos (plainDecimal_of_point digits fracDigits),
      parse_point digits.1 digits.2 fracDigits.1 fracDigits.2, known, Option.bind_some]

theorem parseAmount_of_spells (known : Money.exponent currency = some exp)
    (spells : Spells raw neg whole frac) : parseAmount currency raw =
      if frac.length ≤ exp ∧ value whole < 2 ^ 63 then
        some ⟨currency, negIf neg (.ofInt (value (whole ++ frac) * 10 ^ (exp - frac.length)))⟩
      else none := by
  rw [parseAmount_eq, amountUnder]
  rcases spells with ⟨empty, rfl, rfl, rfl⟩ | ⟨sign, body, written, signs, marked⟩
  · have zero : Money.parse currency ['0'] = _ := @parse_digits currency false ['0'] (by simp) (by simp)
    rw [if_pos empty, zero, known, Option.bind_some]
    simp
  · have some_ : ¬ trimSpace (raw.filter (· ∉ thousandSpaces)) = [] := by
      obtain ⟨c, rest, rfl, _⟩ := marked.head
      rw [written]
      simp
    rw [if_neg some_, unsignedText_signed written signs marked, parse_marked known marked]

/-! ## What is read is spelled -/

theorem exists_marked {number : Text} (plain : plainDecimal (decimalByPosition number)) :
    ∃ whole frac, Marked number whole frac := by
  rcases exists_lastMark number with ⟨_, unmarked⟩ | ⟨mark, grouped, frac, of_class, _, rfl, behind⟩
  · rw [decimalByPosition_plain unmarked] at plain
    have point : '.' ∉ number := fun member => nomatch (unmarked '.' member).symm.trans rfl
    exact ⟨number, [], digits_of_plainDecimal plain point, .inl ⟨rfl, rfl⟩⟩
  · have marks : ∃ other, Marks mark other := by
      rcases (Marks.isMark_iff (.inl ⟨rfl, rfl⟩) mark).mp of_class with rfl | rfl
      · exact ⟨'.', .inl ⟨rfl, rfl⟩⟩
      · exact ⟨',', .inr ⟨rfl, rfl⟩⟩
    obtain ⟨other, marks⟩ := marks
    rw [decimalByPosition_cut marks behind] at plain
    obtain ⟨digits, fracDigits⟩ := plainDecimal_point_iff.mp plain
    exact ⟨_, frac, digits, .inr ⟨fracDigits, mark, other, grouped, marks, rfl, rfl⟩⟩

theorem spells_of_parseAmount {m : Money} (read : parseAmount currency raw = some m) :
    ∃ neg whole frac, Spells raw neg whole frac := by
  rw [parseAmount_eq, amountUnder] at read
  split at read
  next empty => exact ⟨false, ['0'], [], .inl ⟨empty, rfl, rfl, rfl⟩⟩
  next =>
    unfold reading at read
    split at read
    case isFalse => cases read
    case isTrue plain =>
      obtain ⟨whole, frac, marked⟩ := exists_marked plain
      obtain ⟨sign, signs, written⟩ := exists_signed raw
      exact ⟨_, whole, frac, .inr ⟨sign, _, written, signs, marked⟩⟩

/-! ## Exactness -/

theorem toInt_negIf_of_fits (fits : Wrapping.Fits (spelledMinor exp neg whole frac)) :
    (negIf neg (.ofInt (value (whole ++ frac) * 10 ^ (exp - frac.length)))).toInt =
      spelledMinor exp neg whole frac := by
  unfold spelledMinor at fits ⊢
  cases neg with
  | false =>
      simp only [Bool.false_eq_true, if_false, one_mul] at fits ⊢
      exact Wrapping.toInt_ofInt_of_fits fits
  | true =>
      simp only [if_true, neg_one_mul] at fits ⊢
      rw [negIf, if_pos rfl, ← Int64.ofInt_neg]
      exact Wrapping.toInt_ofInt_of_fits fits

/-- Amounts are read exactly or refused, just where no product wraps. -/
theorem readExactly_iff (currency : String) (exp : Nat) (raw : Text)
    (known : Money.exponent currency = some exp) :
    ReadExactly currency exp raw ↔ NoOverflow exp raw := by
  constructor
  · rintro ⟨_, refuses⟩ neg whole frac spells room small
    by_contra outside
    have refused := refuses neg whole frac spells (.inr outside)
    rw [parseAmount_of_spells known spells, if_pos ⟨room, small⟩] at refused
    cases refused
  · intro fits
    constructor
    · intro m read
      obtain ⟨neg, whole, frac, spells⟩ := spells_of_parseAmount read
      refine ⟨neg, whole, frac, spells, ?_⟩
      rw [parseAmount_of_spells known spells] at read
      split at read
      case isFalse => cases read
      case isTrue reads =>
        cases read
        rw [toInt_negIf_of_fits (fits neg whole frac spells reads.1 reads.2)]
        exact spelledMinor_eq reads.1
    · intro neg whole frac spells outside
      rw [parseAmount_of_spells known spells, if_neg]
      rintro ⟨room, small⟩
      rcases outside with long | outside
      · exact absurd room (Nat.not_le.mpr long)
      · exact outside (fits neg whole frac spells room small)

/-! ## Short cells -/

theorem length_trimSpace (s : Text) : (trimSpace s).length ≤ s.length := by
  have left := (List.dropWhile_suffix Scan.isSpace (l := s)).length_le
  have right := (List.dropWhile_suffix Scan.isSpace (l := (s.dropWhile Scan.isSpace).reverse)).length_le
  simp only [trimSpace, List.length_reverse] at right ⊢
  exact right.trans left

theorem Marked.length_le (marked : Marked body whole frac) :
    whole.length + frac.length ≤ body.length ∧ ∀ c ∈ whole ++ frac, c.isDigit := by
  obtain ⟨digits, ⟨rfl, rfl⟩ | ⟨fracDigits, sep, other, grouped, marks, rfl, rfl⟩⟩ := marked
  · exact ⟨Nat.le_refl _, fun c member => digits.2 c (by simpa using member)⟩
  · constructor
    · have kept := List.length_filter_le (· ≠ other) grouped
      simp only [List.length_append, List.length_cons]
      omega
    · intro c member
      rcases List.mem_append.mp member with member | member
      · exact digits.2 c member
      · exact fracDigits.2 c member

theorem Spells.length_le (spells : Spells raw neg whole frac) :
    whole.length + frac.length ≤ max 1 raw.length ∧ ∀ c ∈ whole ++ frac, c.isDigit := by
  rcases spells with ⟨_, _, rfl, rfl⟩ | ⟨sign, body, written, _, marked⟩
  · simp
  · have trimmed := length_trimSpace (raw.filter (· ∉ thousandSpaces))
    have kept := List.length_filter_le (· ∉ thousandSpaces) raw
    have inside := marked.length_le
    rw [written, List.length_append] at trimmed
    exact ⟨by omega, inside.2⟩

/-- No product of a cell this short wraps. -/
theorem noOverflow_of_short (short : raw.length + exp ≤ 17) : NoOverflow exp raw := by
  intro neg whole frac spells room _
  obtain ⟨length, digits⟩ := spells.length_le
  have bound : value (whole ++ frac) * 10 ^ (exp - frac.length) < 10 ^ 18 := by
    calc value (whole ++ frac) * 10 ^ (exp - frac.length)
        < 10 ^ (whole ++ frac).length * 10 ^ (exp - frac.length) :=
          Nat.mul_lt_mul_of_pos_right (value_lt _ digits) (by positivity)
      _ = 10 ^ (whole.length + exp) := by
          rw [← pow_add, List.length_append]
          congr 1
          omega
      _ ≤ 10 ^ 18 := Nat.pow_le_pow_right (by decide) (by omega)
  have magnitude : (value (whole ++ frac) : ℤ) * 10 ^ (exp - frac.length) =
      ((value (whole ++ frac) * 10 ^ (exp - frac.length) : ℕ) : ℤ) := by
    push_cast
    rfl
  unfold spelledMinor Wrapping.Fits
  rw [magnitude]
  cases neg with
  | false => simp only [Bool.false_eq_true, if_false]; omega
  | true => simp only [if_true]; omega

theorem readExactly_sample : ReadExactly "BYN" 2 ['1', ' ', '0', '0', '0', ',', '5'] :=
  (readExactly_iff "BYN" 2 _ (by decide)).mpr (noOverflow_of_short (by decide))

/-- Eight hundredths above the range, a cell is read as the least amount there is. -/
theorem wrapped_amount_is_read : ¬ ReadExactly "BYN" 2 "92233720368547758,08".toList := by
  rintro ⟨_, refuses⟩
  have spells : Spells "92233720368547758,08".toList false "92233720368547758".toList ['0', '8'] := by
    refine .inr ⟨[], "92233720368547758,08".toList, by decide +kernel, .inl ⟨rfl, .inl rfl⟩, ?_⟩
    have wholeDigits : "92233720368547758".toList.all Char.isDigit := by decide +kernel
    have fracDigits : ['0', '8'].all Char.isDigit := by decide
    refine ⟨⟨by decide +kernel, List.all_eq_true.mp wholeDigits⟩,
      .inr ⟨⟨by simp, List.all_eq_true.mp fracDigits⟩, ',', '.', ?_⟩⟩
    exact ⟨"92233720368547758".toList, .inl ⟨rfl, rfl⟩, by decide +kernel, by decide +kernel⟩
  have refused := refuses _ _ _ spells (.inr (by decide +kernel))
  exact absurd refused (by decide +kernel)

end Vekst.Ingest
