import Mathlib.RingTheory.Coprime.Lemmas
import Vekst.Ingest.Validate
import Vekst.Proof.Ingest.MapOrder
import Vekst.Proof.Money.Decimal

namespace Vekst.Ingest
open Regex Money Decimal

/-! ## The last mark of a number -/

def isMark (c : Char) : Bool := c = ',' || c = '.'

def lastMark (s : Text) : Option Char := s.reverse.find? isMark

theorem cutLast_append {mark : Char} {whole frac : Text} (behind : mark ∉ frac) :
    cutLast mark (whole ++ mark :: frac) = some (whole, frac) := by
  have turned : (whole ++ mark :: frac).reverse = frac.reverse ++ mark :: whole.reverse := by simp
  have taken : (whole ++ mark :: frac).reverse.takeWhile (· ≠ mark) = frac.reverse := by
    rw [turned, List.takeWhile_append_of_pos, List.takeWhile_cons_of_neg (by simp),
      List.append_nil]
    intro c member
    exact decide_eq_true fun same => behind (same ▸ List.mem_reverse.mp member)
  have short : (whole ++ mark :: frac).length - frac.length - 1 = whole.length := by
    rw [List.length_append, List.length_cons]
    omega
  unfold cutLast
  simp only [taken, List.reverse_reverse, short, List.take_left]
  rw [if_pos (by simp)]

theorem cutLast_none {mark : Char} {s : Text} (absent : mark ∉ s) : cutLast mark s = none :=
  if_neg absent

theorem exists_cut {mark : Char} {s : Text} (member : mark ∈ s) :
    ∃ whole frac, s = whole ++ mark :: frac ∧ mark ∉ frac := by
  obtain ⟨behind, before, turned, first⟩ := List.eq_append_cons_of_mem (List.mem_reverse.mpr member)
  refine ⟨before.reverse, behind.reverse, ?_, by simpa using first⟩
  rw [← List.reverse_reverse s, turned]
  simp

/-- A text has no mark, or a last one. -/
theorem exists_lastMark (s : Text) : (lastMark s = none ∧ ∀ c ∈ s, isMark c = false) ∨
    ∃ mark whole frac, isMark mark ∧ lastMark s = some mark ∧ s = whole ++ mark :: frac ∧
      ∀ c ∈ frac, isMark c = false := by
  cases last : lastMark s with
  | none =>
      refine .inl ⟨rfl, fun c member => ?_⟩
      simpa using List.find?_eq_none.mp last c (List.mem_reverse.mpr member)
  | some mark =>
      obtain ⟨of_class, behind, before, turned, plain⟩ := List.find?_eq_some_iff_append.mp last
      refine .inr ⟨mark, before.reverse, behind.reverse, of_class, rfl, ?_, ?_⟩
      · rw [← List.reverse_reverse s, turned]
        simp
      · intro c member
        simpa using plain c (List.mem_reverse.mp member)

/-! ## The two readings -/

/-- A plain decimal as an amount, if it is one. -/
def reading (currency : String) (neg : Bool) (s : Text) : Option Money :=
  if plainDecimal s then Money.parse currency (signed neg s) else none

/-- An amount, by what makes a plain decimal of its number. -/
def amountUnder (marks : Text → Text) (currency : String) (raw : Text) : Option Money :=
  if trimSpace (raw.filter (· ∉ thousandSpaces)) = [] then Money.parse currency ['0']
  else reading currency (unsignedText raw).1 (marks (unsignedText raw).2)

theorem parseAmount_eq : parseAmount = amountUnder decimalByPosition := by
  funext currency raw
  unfold parseAmount decimalFromLocale amountUnder
  split
  · rfl
  · simp only [reading, signed]
    split <;> rfl

/-- The two marks, one of them the decimal one. -/
def Marks (sep other : Char) : Prop := (sep = ',' ∧ other = '.') ∨ (sep = '.' ∧ other = ',')

variable {sep other : Char} {whole frac s : Text}

theorem Marks.isMark_iff (marks : Marks sep other) (c : Char) :
    isMark c ↔ c = sep ∨ c = other := by
  rcases marks with ⟨rfl, rfl⟩ | ⟨rfl, rfl⟩
  · simp [isMark]
  · simp [isMark, or_comm]

theorem Marks.ne (marks : Marks sep other) : sep ≠ other := by
  rcases marks with ⟨rfl, rfl⟩ | ⟨rfl, rfl⟩ <;> decide

theorem Marks.symm (marks : Marks sep other) : Marks other sep :=
  (Or.symm marks).imp And.symm And.symm

theorem filter_absent {c : Char} (absent : c ∉ s) : s.filter (· ≠ c) = s := by
  apply List.filter_eq_self.mpr
  intro d member
  exact decide_eq_true fun same => absent (same ▸ member)

theorem Marks.not_mem (marks : Marks sep other) (plain : ∀ c ∈ s, isMark c = false) :
    sep ∉ s ∧ other ∉ s := by
  constructor
  · intro member
    have mark := (marks.isMark_iff sep).mpr (.inl rfl)
    rw [plain sep member] at mark
    cases mark
  · intro member
    have mark := (marks.isMark_iff other).mpr (.inr rfl)
    rw [plain other member] at mark
    cases mark

/-- By position, the last mark is the decimal one. -/
theorem decimalByPosition_cut (marks : Marks sep other) (behind : ∀ c ∈ frac, isMark c = false) :
    decimalByPosition (whole ++ sep :: frac) = whole.filter (· ≠ other) ++ '.' :: frac := by
  have last : cutLast sep (whole ++ sep :: frac) = some (whole, frac) :=
    cutLast_append (marks.not_mem behind).1
  have apart := marks.ne
  have otherBehind := (marks.not_mem behind).2
  by_cases grouped : other ∈ whole
  · obtain ⟨before, after, rfl, rest⟩ := exists_cut grouped
    have earlier : cutLast other (before ++ other :: after ++ sep :: frac) =
        some (before, after ++ sep :: frac) := by
      rw [List.append_assoc, List.cons_append]
      exact cutLast_append (by simp [rest, otherBehind, apart.symm])
    rcases marks with ⟨rfl, rfl⟩ | ⟨rfl, rfl⟩
    · simp only [decimalByPosition, last, earlier]
      rw [if_pos (by simp)]
    · simp only [decimalByPosition, last, earlier]
      rw [if_neg (by simp)]
  · have missing : cutLast other (whole ++ sep :: frac) = none :=
      cutLast_none (by simp [grouped, otherBehind, apart.symm])
    rw [filter_absent grouped]
    rcases marks with ⟨rfl, rfl⟩ | ⟨rfl, rfl⟩
    · simp only [decimalByPosition, last, missing]
    · simp only [decimalByPosition, missing]

theorem decimalByPosition_plain (plain : ∀ c ∈ s, isMark c = false) : decimalByPosition s = s := by
  have absent := Marks.not_mem (.inl ⟨rfl, rfl⟩) plain
  simp only [decimalByPosition, cutLast_none absent.1]

def Digits (s : Text) : Prop := s ≠ [] ∧ ∀ c ∈ s, c.isDigit

theorem plainDecimal_of_digits (digits : Digits s) : plainDecimal s := by
  have all : s.takeWhile Char.isDigit = s := List.takeWhile_eq_self_iff.mpr digits.2
  simp [plainDecimal, all, digits.1]

theorem plainDecimal_of_point (digits : Digits whole) (fracDigits : Digits frac) :
    plainDecimal (whole ++ '.' :: frac) := by
  have all : (whole ++ '.' :: frac).takeWhile Char.isDigit = whole := by
    rw [List.takeWhile_append_of_pos digits.2, List.takeWhile_cons_of_neg (by decide),
      List.append_nil]
  simp only [plainDecimal, all, digits.1, List.drop_left, fracDigits.1, ne_eq, not_false_eq_true,
    decide_true, Bool.true_and, Bool.and_self]
  exact List.all_eq_true.mpr fracDigits.2

theorem plainDecimal_cases (plain : plainDecimal s) :
    Digits s ∨ ∃ whole frac, s = whole ++ '.' :: frac ∧ Digits whole ∧ Digits frac := by
  have split_ : s.takeWhile Char.isDigit ++ s.dropWhile Char.isDigit = s :=
    List.takeWhile_append_dropWhile
  have known : ∀ c ∈ s.takeWhile Char.isDigit, c.isDigit := fun c => List.mem_takeWhile_imp
  simp only [plainDecimal, drop_takeWhile, Bool.and_eq_true, decide_eq_true_eq] at plain
  obtain ⟨some_, rest⟩ := plain
  cases behind : s.dropWhile Char.isDigit with
  | nil =>
      rw [behind, List.append_nil] at split_
      rw [split_] at some_ known
      exact .inl ⟨some_, known⟩
  | cons c frac =>
      rw [behind] at rest split_
      simp only [Bool.and_eq_true, decide_eq_true_eq] at rest
      obtain ⟨⟨rfl, someFrac⟩, fracKnown⟩ := rest
      exact .inr ⟨_, frac, split_.symm, ⟨some_, known⟩, someFrac, List.all_eq_true.mp fracKnown⟩

theorem Digits.not_mem {c : Char} (digits : Digits s) (sign : c.isDigit = false) : c ∉ s := by
  intro member
  rw [digits.2 c member] at sign
  cases sign

theorem plainDecimal_point_iff :
    plainDecimal (whole ++ '.' :: frac) ↔ Digits whole ∧ Digits frac := by
  constructor
  · intro plain
    rcases plainDecimal_cases plain with digits | ⟨whole', frac', same, digits, fracDigits⟩
    · exact absurd (by simp) (digits.not_mem (c := '.') rfl)
    · obtain ⟨rfl, _, rfl⟩ := (List.append_cons_inj_of_notMem (digits.not_mem (c := '.') rfl)
        (fracDigits.not_mem (c := '.') rfl)).mp same.symm
      exact ⟨digits, fracDigits⟩
  · rintro ⟨digits, fracDigits⟩
    exact plainDecimal_of_point digits fracDigits

theorem digits_of_plainDecimal (plain : plainDecimal s) (point : '.' ∉ s) : Digits s := by
  rcases plainDecimal_cases plain with digits | ⟨whole, frac, rfl, _⟩
  · exact digits
  · exact absurd (by simp) point

/-! ## Cells -/

variable {currency : String} {neg : Bool}

/-- The separators a profile may set. -/
inductive Separator where
  | comma
  | point
deriving DecidableEq, Repr

namespace Separator

def text : Separator → String
  | comma => ","
  | point => "."

def mark : Separator → Char
  | comma => ','
  | point => '.'

def grouping : Separator → Char
  | comma => '.'
  | point => ','

theorem marks (sep : Separator) : Marks sep.mark sep.grouping := by
  cases sep
  · exact .inl ⟨rfl, rfl⟩
  · exact .inr ⟨rfl, rfl⟩

end Separator

/-! ## Files -/

namespace Priorbank

end Priorbank

end Vekst.Ingest
