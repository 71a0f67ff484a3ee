import Mathlib.Data.Rat.Defs
import Vekst.Money.Display
import Vekst.Proof.Money.Format

namespace Vekst.Money
open Decimal

/-! ## Reading a figure -/

/-- What a figure reads as once its grouping characters are removed: a minus sign or none, digits,
and nothing or the decimal mark with more digits behind it; beside it the number of those. -/
def readFigure (grouping : Char → Bool) (mark shown : List Char) : Option (Rat × Nat) :=
  let plain := shown.filter (!grouping ·)
  let negative := plain.head? = some minus
  let body := if negative then plain.tail else plain
  let whole := body.takeWhile Char.isDigit
  let rest := body.dropWhile Char.isDigit
  let fraction := rest.drop mark.length
  if whole ≠ [] && (rest = [] || mark.isPrefixOf rest && fraction ≠ [] && fraction.all Char.isDigit)
  then
    let units : Int := if negative then -value (whole ++ fraction) else value (whole ++ fraction)
    some ((units : Rat) / 10 ^ fraction.length, fraction.length)
  else none

/-- A grouped numeral is the digits of its number and grouping characters; neither these nor the
decimal mark can be taken for a digit, for the minus sign or for one another. -/
structure Intl.Groups (intl : Intl) (grouping : Locale → Char → Bool) : Prop where
  digits : ∀ (locale : Locale) (n : Nat),
    (intl.format locale n).filter (!grouping locale ·) = Nat.toDigits 10 n
  apart : ∀ locale c, grouping locale c = true → c.isDigit = false ∧ c ≠ minus
  mark : ∀ locale, ∀ c ∈ decimalSeparator intl locale, c.isDigit = false ∧ grouping locale c = false
  marked : ∀ locale, decimalSeparator intl locale ≠ []

variable {intl : Intl} {grouping : Locale → Char → Bool} {locale : Locale}

theorem Intl.Groups.digit_plain (groups : intl.Groups grouping) {c : Char} (digit : c.isDigit) :
    grouping locale c = false := by
  cases grouped : grouping locale c with
  | false => rfl
  | true => simp [(groups.apart locale c grouped).1] at digit

theorem Intl.Groups.minus_plain (groups : intl.Groups grouping) : grouping locale minus = false := by
  cases grouped : grouping locale minus with
  | false => rfl
  | true => exact absurd rfl (groups.apart locale minus grouped).2

theorem takeWhile_digits {digits rest : List Char} (known : ∀ c ∈ digits, c.isDigit)
    (stops : ∀ c, rest.head? = some c → c.isDigit = false) :
    (digits ++ rest).takeWhile Char.isDigit = digits ∧
      (digits ++ rest).dropWhile Char.isDigit = rest := by
  induction digits with
  | nil =>
      cases rest with
      | nil => simp
      | cons c rest => simp [stops c rfl]
  | cons d digits ih =>
      obtain ⟨taken, dropped⟩ := ih fun c member => known c (List.mem_cons_of_mem d member)
      have digit := known d List.mem_cons_self
      simp [digit, taken, dropped]

/-- The part of a figure behind its whole number. -/
def behindMark (mark fraction : List Char) : List Char := if fraction = [] then [] else mark ++ fraction

theorem Intl.Groups.behindMark_plain (groups : intl.Groups grouping) {fraction : List Char}
    (known : ∀ c ∈ fraction, c.isDigit) :
    (behindMark (decimalSeparator intl locale) fraction).filter (!grouping locale ·) =
      behindMark (decimalSeparator intl locale) fraction := by
  apply List.filter_eq_self.mpr
  intro c member
  unfold behindMark at member
  split at member
  next => cases member
  next =>
    rcases List.mem_append.mp member with mark | digit
    · simp [(groups.mark locale c mark).2]
    · simp [groups.digit_plain (known c digit)]

/-- A sign, digits, and the mark with digits behind it read as the number they write. -/
theorem readFigure_of {grouping : Char → Bool} {negative : Bool}
    {mark whole fraction shown : List Char}
    (plain : shown.filter (!grouping ·) =
      (if negative then [minus] else []) ++ (whole ++ behindMark mark fraction))
    (some_ : whole ≠ []) (wholeDigits : ∀ c ∈ whole, c.isDigit)
    (marks : ∀ c ∈ mark, c.isDigit = false) (markSome : mark ≠ [])
    (fractionDigits : ∀ c ∈ fraction, c.isDigit) :
    readFigure grouping mark shown = some
      (((if negative then -value (whole ++ fraction) else value (whole ++ fraction) : Int) : Rat) /
        10 ^ fraction.length, fraction.length) := by
  have stops : ∀ c, (behindMark mark fraction).head? = some c → c.isDigit = false := by
    intro c first
    unfold behindMark at first
    split at first
    next => cases first
    next =>
      cases mark with
      | nil => exact absurd rfl markSome
      | cons m mark =>
          obtain rfl := Option.some.inj first
          exact marks m List.mem_cons_self
  obtain ⟨taken, dropped⟩ := takeWhile_digits wholeDigits stops
  have signed_ : ((if negative then [minus] else []) ++ (whole ++ behindMark mark fraction)).head? =
      some minus ↔ negative = true := by
    cases negative with
    | true => simp
    | false =>
        cases whole with
        | nil => exact absurd rfl some_
        | cons c whole =>
            have digit := wholeDigits c List.mem_cons_self
            simp only [Bool.false_eq_true, if_false, List.nil_append, List.cons_append,
              List.head?_cons, Option.some.injEq, iff_false]
            rintro rfl
            exact absurd digit (by decide)
  have body : (if negative = true then
      ((if negative then [minus] else []) ++ (whole ++ behindMark mark fraction)).tail else
      (if negative then [minus] else []) ++ (whole ++ behindMark mark fraction)) =
        whole ++ behindMark mark fraction := by
    cases negative <;> rfl
  have behind : (behindMark mark fraction).drop mark.length = fraction := by
    unfold behindMark
    split
    next none_ => rw [none_, List.drop_nil]
    next => exact List.drop_left
  have reads : behindMark mark fraction = [] ∨ (mark.isPrefixOf (behindMark mark fraction) = true ∧
      fraction ≠ []) ∧ fraction.all Char.isDigit = true := by
    unfold behindMark
    split
    next => exact .inl rfl
    next more =>
      refine .inr ⟨⟨?_, more⟩, List.all_eq_true.mpr fractionDigits⟩
      rw [List.isPrefixOf_iff_prefix]
      exact List.prefix_append mark fraction
  unfold readFigure
  simp only [plain, signed_, body, taken, dropped, behind]
  rw [if_pos]
  simp only [Bool.and_eq_true, Bool.or_eq_true, decide_eq_true_eq]
  exact ⟨some_, reads⟩

/-! ## The client's figures -/

theorem leftpad_digits {digits : List Char} (known : ∀ c ∈ digits, c.isDigit) (n : Nat) :
    ∀ c ∈ digits.leftpad n '0', c.isDigit := by
  intro c member
  rcases List.mem_append.mp member with zero | old
  · rw [List.eq_of_mem_replicate zero]
    rfl
  · exact known c old

theorem value_leftpad (digits : List Char) (n : Nat) : value (digits.leftpad n '0') = value digits := by
  rw [List.leftpad, value_append, value_zeros, Nat.zero_mul, Nat.zero_add]

theorem bigInt_digits {digits : List Char} (some_ : digits ≠ []) (known : ∀ c ∈ digits, c.isDigit) :
    bigInt digits = some (value digits : Int) := by
  have head : ∀ c, c.isDigit = false → digits.head? ≠ some c := by
    intro c other first
    have digit := known c (List.mem_of_mem_head? first)
    rw [other] at digit
    cases digit
  have unsigned := head '-' (by decide)
  have unsigned' := head '+' (by decide)
  have all : digits.all Char.isDigit = true := List.all_eq_true.mpr known
  simp [bigInt, unsigned, unsigned', some_, all]

/-- The value of a text cut in two is what the parts write with the first one written anew. -/
theorem value_rejoined (whole fraction : List Char) :
    value (Nat.toDigits 10 (value whole) ++ fraction) = value (whole ++ fraction) := by
  rw [value_append, value_append]
  congr 2
  exact Nat.ofDigitChars_toDigits (by decide) (by decide)

theorem signed_negative {negative : Bool} {digits : List Char} (known : ∀ c ∈ digits, c.isDigit) :
    ((signed negative digits).head? = some '-' ↔ negative = true) ∧
      (if negative = true then (signed negative digits).drop 1 else signed negative digits) =
        digits := by
  cases negative with
  | true => exact ⟨by simp [signed], rfl⟩
  | false =>
      refine ⟨⟨fun first => ?_, fun absurd_ => absurd absurd_ Bool.false_ne_true⟩, rfl⟩
      have digit := known '-' (List.mem_of_mem_head? first)
      exact absurd digit (by decide)

/-- Whatever an integer's length, its sign and its exponent, its figure reads as the integer over
the power of ten, with as many digits behind the mark as the exponent says. -/
theorem figure_exact (groups : intl.Groups grouping) (negative : Bool) {digits : List Char}
    (known : ∀ c ∈ digits, c.isDigit) (exponent : Nat) (locale : Locale) :
    ∃ shown, formatMinorUnits intl (signed negative digits) exponent locale = some shown ∧
      readFigure (grouping locale) (decimalSeparator intl locale) shown =
        some (((if negative then -value digits else value digits : Int) : Rat) / 10 ^ exponent,
          exponent) := by
  obtain ⟨sign, unsigned⟩ := @signed_negative negative digits known
  obtain ⟨padded, pads⟩ : ∃ padded, padded = digits.leftpad (exponent + 1) '0' := ⟨_, rfl⟩
  have long : exponent < padded.length := by
    rw [pads, List.leftpad, List.length_append, List.length_replicate]
    omega
  have paddedDigits : ∀ c ∈ padded, c.isDigit := pads ▸ leftpad_digits known (exponent + 1)
  obtain ⟨whole, takes⟩ : ∃ whole, whole = padded.take (padded.length - exponent) := ⟨_, rfl⟩
  obtain ⟨fraction, drops⟩ : ∃ fraction, fraction = padded.drop (padded.length - exponent) :=
    ⟨_, rfl⟩
  have wholeSome : whole ≠ [] := by
    rw [takes, ← List.length_pos_iff, List.length_take]
    omega
  have wholeDigits : ∀ c ∈ whole, c.isDigit := fun c member =>
    paddedDigits c (List.mem_of_mem_take (takes ▸ member))
  have fractionDigits : ∀ c ∈ fraction, c.isDigit := fun c member =>
    paddedDigits c (List.mem_of_mem_drop (drops ▸ member))
  have fractionLength : fraction.length = exponent := by
    rw [drops, List.length_drop]
    omega
  -- With no digits behind the mark the second part of the text is not read at all.
  have cut : (if exponent = 0 then [] else fraction) = fraction := by
    split
    next none_ => exact (List.length_eq_zero_iff.mp (fractionLength.trans none_)).symm
    next => rfl
  have formatted : formatMinorUnits intl (signed negative digits) exponent locale = some
      ((if negative then [minus] else []) ++
        (intl.format locale (value whole) ++ behindMark (decimalSeparator intl locale) fraction)) := by
    simp only [formatMinorUnits, sign, unsigned, ← pads, ← takes, ← drops, cut,
      bigInt_digits wholeSome wholeDigits]
    cases negative <;> by_cases none_ : fraction = [] <;> simp [behindMark, none_, minus]
  have plain : ((if negative then [minus] else []) ++ (intl.format locale (value whole) ++
      behindMark (decimalSeparator intl locale) fraction)).filter (!grouping locale ·) =
        (if negative then [minus] else []) ++ (Nat.toDigits 10 (value whole) ++
          behindMark (decimalSeparator intl locale) fraction) := by
    rw [List.filter_append, List.filter_append, groups.digits, groups.behindMark_plain fractionDigits]
    congr 1
    cases negative with
    | false => rfl
    | true => simp [groups.minus_plain]
  have digit := digits_toDigits (value whole)
  have numeral : Nat.toDigits 10 (value whole) ≠ [] := Nat.toDigits_ne_nil
  have read := readFigure_of plain numeral digit (fun c member => (groups.mark locale c member).1)
    (groups.marked locale) fractionDigits
  have whole_ : value (whole ++ fraction) = value digits := by
    rw [takes, drops, List.take_append_drop, pads, value_leftpad]
  rw [value_rejoined, whole_, fractionLength] at read
  exact ⟨_, formatted, read⟩

/-! ## Thousands -/

/-- The group separator of a locale: a comma, or U+00A0. -/
def thousandsSeparator : Locale → Char
  | .en => ','
  | .ru => '\u00a0'

/-- A separator before every third digit from the right. -/
def groupThousands (separator : Char) (digits : List Char) : List Char :=
  (digits.reverse.zipIdx.flatMap fun digit =>
    if digit.2 % 3 = 0 && digit.2 ≠ 0 then [separator, digit.1] else [digit.1]).reverse

def sampleIntl : Intl where
  format locale n :=
    let grouped := groupThousands (thousandsSeparator locale) (Nat.toDigits 10 n.natAbs)
    if n < 0 then '-' :: grouped else grouped
  decimal
    | .en => some ['.']
    | .ru => some [',']

def sampleGrouping (locale : Locale) (c : Char) : Bool := c = thousandsSeparator locale

theorem filter_groupThousands {separator : Char} {digits : List Char}
    (absent : separator ∉ digits) :
    (groupThousands separator digits).filter (· ≠ separator) = digits := by
  have each : ∀ digit ∈ digits.reverse.zipIdx,
      (if digit.2 % 3 = 0 && digit.2 ≠ 0 then [separator, digit.1] else [digit.1]).filter
        (· ≠ separator) = [digit.1] := by
    intro digit member
    have known : digit.1 ∈ digits := List.mem_reverse.mp (List.fst_mem_of_mem_zipIdx member)
    have other : digit.1 ≠ separator := fun same => absent (same ▸ known)
    split <;> simp [other]
  have single : digits.reverse.zipIdx.flatMap (fun digit => [digit.1]) = digits.reverse := by
    rw [← List.map_eq_flatMap, List.zipIdx_map_fst]
  rw [groupThousands, List.filter_reverse, List.filter_flatMap, List.flatMap_congr each, single,
    List.reverse_reverse]

theorem sampleIntl_groups : sampleIntl.Groups sampleGrouping where
  digits locale n := by
    have absent : thousandsSeparator locale ∉ Nat.toDigits 10 n := by
      intro member
      have digit := digits_toDigits n _ member
      cases locale <;> exact absurd digit (by decide)
    have filtered := filter_groupThousands absent
    have unsigned : ¬ (n : Int) < 0 := by omega
    simpa [sampleIntl, sampleGrouping, unsigned] using filtered
  apart locale c same := by
    obtain rfl : c = thousandsSeparator locale := by simpa [sampleGrouping] using same
    cases locale <;> decide
  mark locale c member := by
    cases locale with
    | en =>
        obtain rfl := List.mem_singleton.mp member
        decide
    | ru =>
        obtain rfl := List.mem_singleton.mp member
        decide
  marked locale := by cases locale <;> decide

theorem figure_exact_sample :
    formatMinorUnits sampleIntl ['-', '1', '2', '3', '4', '5', '6', '7'] 2 .ru =
        some ['−', '1', '2', '\u00a0', '3', '4', '5', ',', '6', '7'] ∧
      readFigure (sampleGrouping .ru) [','] ['−', '1', '2', '\u00a0', '3', '4', '5', ',', '6', '7'] =
        some (((-1234567 : Int) : Rat) / 10 ^ 2, 2) := by
  have evaluated : formatMinorUnits sampleIntl ['-', '1', '2', '3', '4', '5', '6', '7'] 2 .ru =
      some ['−', '1', '2', '\u00a0', '3', '4', '5', ',', '6', '7'] := by decide +kernel
  have known : ∀ c ∈ ['1', '2', '3', '4', '5', '6', '7'], c.isDigit := List.all_eq_true.mp (by decide)
  obtain ⟨shown, formatted, read⟩ := figure_exact sampleIntl_groups true known 2 .ru
  obtain rfl := Option.some.inj (evaluated.symm.trans formatted)
  exact ⟨evaluated, read⟩

end Vekst.Money
