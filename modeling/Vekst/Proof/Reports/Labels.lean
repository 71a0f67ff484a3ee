import Vekst.Proof.Reports.Periods

namespace Vekst.Reports
open Calendar Decimal

/-! ## The texts of months and of columns -/

/-- A numeral of exactly `width` digits. -/
structure Digits (width : Nat) (text : List Char) : Prop where
  length : text.length = width
  known : ∀ c ∈ text, c.isDigit

/-- `YYYY-MM`: four digits, a hyphen and two digits that name the month. -/
def ReadsMonth (s : String) (m : Month) : Prop :=
  ∃ year number, s.toList = year ++ '-' :: number ∧ Digits 4 year ∧ Digits 2 number ∧
    m.year = Decimal.value year ∧ m.number = Decimal.value number

def WellFormed (month : String) : Prop := ∃ m, ReadsMonth month m

/-- `YYYY-Qn`. -/
def ReadsQuarter (s : String) (year : Int) (quarter : Nat) : Prop :=
  ∃ digits last, s.toList = digits ++ '-' :: 'Q' :: last ∧ Digits 4 digits ∧ Digits 1 last ∧
    year = Decimal.value digits ∧ quarter = Decimal.value last

/-- `YYYY`. -/
def ReadsYear (s : String) (year : Int) : Prop := Digits 4 s.toList ∧ year = Decimal.value s.toList

/-- The texts that are written the way the labels of a granularity are. -/
def Exact (g : Granularity) (s : String) : Prop :=
  if g = .monthly then WellFormed s
  else if g = .quarterly then ∃ year quarter, ReadsQuarter s year quarter ∧ 1 ≤ quarter ∧ quarter ≤ 4
  else if g = .yearly then ∃ year, ReadsYear s year
  else False

/-- The texts of the right length that open the way a label does: white space and a sign may stand
before a number, a number may be short of digits, and anything may follow the last one. -/
def Opening (g : Granularity) (s : String) : Prop :=
  if g = .monthly then
    s.utf8ByteSize = 7 ∧ ∃ year number after rest, Scan.Opens 4 s.toList year ('-' :: after) ∧
      Scan.Opens 2 after number rest ∧ 1 ≤ number ∧ number ≤ 12
  else if g = .quarterly then
    s.utf8ByteSize = 7 ∧ ∃ year quarter after rest,
      Scan.Opens 4 s.toList year ('-' :: 'Q' :: after) ∧
      Scan.Opens 1 after quarter rest ∧ 1 ≤ quarter ∧ quarter ≤ 4
  else if g = .yearly then
    s.utf8ByteSize = 4 ∧ ∃ year rest, Scan.Opens 4 s.toList year rest
  else False

/-- The malformed labels that a scan lets through. -/
def Loose (g : Granularity) (s : String) : Prop := Opening g s ∧ ¬ Exact g s

theorem digits_padded {width n : Nat} (positive : 0 < width) (small : n < 10 ^ width) :
    Digits width (padded width n) :=
  ⟨length_padded positive small, fun _ => isDigit_of_mem_padded⟩

theorem Digits.value_lt {width : Nat} {text : List Char} (digits : Digits width text) :
    Decimal.value text < 10 ^ width := by
  have bound := Decimal.value_lt text digits.known
  rwa [digits.length] at bound

/-- A numeral of a width is the padded writing of its value. -/
theorem Digits.padded_value {width : Nat} {text : List Char} (digits : Digits width text)
    (positive : 0 < width) : padded width (Decimal.value text) = text := by
  have written := digits_padded positive digits.value_lt
  have same : ∀ {left right : List Char}, Digits width left → Digits width right →
      Decimal.value left = Decimal.value right → ¬ left < right := by
    intro left right leftDigits rightDigits equal less
    have lengths := leftDigits.length.trans rightDigits.length.symm
    have compared := (lt_iff_value_lt leftDigits.known rightDigits.known lengths).mp less
    omega
  have equal := value_padded width (Decimal.value text)
  exact le_antisymm (not_lt.mp (same digits written equal.symm))
    (not_lt.mp (same written digits equal))

theorem readsMonth_iff {s : String} {m : Month} :
    ReadsMonth s m ↔ FourDigit m ∧ s = monthText m := by
  constructor
  · rintro ⟨year, number, text, yearDigits, numberDigits, sameYear, sameNumber⟩
    have bound := yearDigits.value_lt
    have fits : FourDigit m := ⟨by omega, by omega⟩
    refine ⟨fits, String.toList_inj.mp ?_⟩
    have yearNat : m.year.toNat = Decimal.value year := by omega
    rw [toList_monthText fits, text, yearNat, sameNumber, yearDigits.padded_value (by decide),
      numberDigits.padded_value (by decide)]
  · rintro ⟨fits, rfl⟩
    refine ⟨_, _, toList_monthText fits, digits_padded (by decide) (year_small fits),
      digits_padded (by decide) (number_small m), ?_, (value_padded _ _).symm⟩
    rw [value_padded, Int.toNat_of_nonneg fits.1]

theorem wellFormed_iff {month : String} : WellFormed month ↔ ∃ m, FourDigit m ∧ month = monthText m :=
  exists_congr fun _ => readsMonth_iff

/-! ## What the scans accept -/

theorem scanMonth_eq_some_iff {text : List Char} {year number : Int} :
    scanMonth text = some (year, number) ↔ ∃ after rest,
      Scan.Opens 4 text year ('-' :: after) ∧ Scan.Opens 2 after number rest := by
  simp only [scanMonth, Option.bind_eq_bind, Option.bind_eq_some_iff, Scan.literal_eq_some_iff,
    Option.pure_def, Option.some.injEq, Prod.exists, Prod.mk.injEq, Scan.int_eq_some_iff]
  constructor
  · rintro ⟨y, _, first, after, rfl, n, rest, second, rfl, rfl⟩
    exact ⟨after, rest, first, second⟩
  · rintro ⟨after, rest, first, second⟩
    exact ⟨year, _, first, after, rfl, number, rest, second, rfl, rfl⟩

theorem scanQuarter_eq_some_iff {text : List Char} {year quarter : Int} :
    scanQuarter text = some (year, quarter) ↔ ∃ after rest,
      Scan.Opens 4 text year ('-' :: 'Q' :: after) ∧ Scan.Opens 1 after quarter rest := by
  simp only [scanQuarter, Option.bind_eq_bind, Option.bind_eq_some_iff, Scan.literal_eq_some_iff,
    Option.pure_def, Option.some.injEq, Prod.exists, Prod.mk.injEq, Scan.int_eq_some_iff]
  constructor
  · rintro ⟨y, _, first, _, rfl, after, rfl, q, rest, second, rfl, rfl⟩
    exact ⟨after, rest, first, second⟩
  · rintro ⟨after, rest, first, second⟩
    exact ⟨year, _, first, _, rfl, after, rfl, quarter, rest, second, rfl, rfl⟩

theorem parseMonth_accepts_iff {s : String} :
    (∃ m, parseMonth s = .ok m) ↔ Opening .monthly s := by
  simp only [parseMonth, Opening, if_true]
  by_cases width : s.utf8ByteSize = 7
  · simp only [width, ne_eq, not_true_eq_false, if_false, true_and]
    cases scanned : scanMonth s.toList with
    | none =>
        constructor
        · rintro ⟨m, absent⟩
          cases absent
        · rintro ⟨year, number, after, rest, first, second, -⟩
          have read := scanMonth_eq_some_iff.mpr ⟨after, rest, first, second⟩
          rw [scanned] at read
          cases read
    | some found =>
        obtain ⟨year, number⟩ := found
        constructor
        · rintro ⟨m, accepted⟩
          simp only at accepted
          split_ifs at accepted with valid
          obtain ⟨after, rest, first, second⟩ := scanMonth_eq_some_iff.mp scanned
          exact ⟨year, number, after, rest, first, second, valid⟩
        · rintro ⟨year', number', after, rest, first, second, valid⟩
          have read := scanMonth_eq_some_iff.mpr ⟨after, rest, first, second⟩
          rw [scanned] at read
          obtain ⟨rfl, rfl⟩ := Prod.mk.inj (Option.some.inj read)
          exact ⟨_, dif_pos valid⟩
  · simp [width]

theorem periodMonths_accepts_iff {s : String} {g : Granularity} :
    (∃ range, periodMonths s g = .ok range) ↔ Opening g s := by
  by_cases monthly : g = .monthly
  · subst monthly
    rw [← parseMonth_accepts_iff]
    simp only [periodMonths, if_true]
    cases parseMonth s <;> simp [Except.map]
  by_cases quarterly : g = .quarterly
  · subst quarterly
    simp only [periodMonths, Opening, monthly, if_false, if_true]
    cases scanned : scanQuarter s.toList with
    | none =>
        constructor
        · rintro ⟨range, absent⟩
          cases absent
        · rintro ⟨-, year, quarter, after, rest, first, second, -⟩
          have read := scanQuarter_eq_some_iff.mpr ⟨after, rest, first, second⟩
          rw [scanned] at read
          cases read
    | some found =>
        obtain ⟨year, quarter⟩ := found
        constructor
        · rintro ⟨range, accepted⟩
          simp only at accepted
          split_ifs at accepted with valid
          obtain ⟨after, rest, first, second⟩ := scanQuarter_eq_some_iff.mp scanned
          exact ⟨valid.2.2, year, quarter, after, rest, first, second, valid.1, valid.2.1⟩
        · rintro ⟨width, year', quarter', after, rest, first, second, low, high⟩
          have read := scanQuarter_eq_some_iff.mpr ⟨after, rest, first, second⟩
          rw [scanned] at read
          obtain ⟨rfl, rfl⟩ := Prod.mk.inj (Option.some.inj read)
          exact ⟨_, dif_pos ⟨low, high, width⟩⟩
  by_cases yearly : g = .yearly
  · subst yearly
    simp only [periodMonths, Opening, monthly, quarterly, if_false, if_true,
      ← Scan.int_eq_some_iff]
    cases scanned : Scan.int 4 s.toList with
    | none => simp
    | some found =>
        obtain ⟨year, rest⟩ := found
        by_cases width : s.utf8ByteSize = 4 <;> simp [width]
  · simp [periodMonths, Opening, monthly, quarterly, yearly]

/-! ## Labels and the texts that are written like them -/

theorem column_quarterly {m : Month} :
    Granularity.column .quarterly m = .ok (quarterText m.year ((m.number - 1) / 3 + 1)) := rfl

theorem column_yearly {m : Month} : Granularity.column .yearly m = .ok (yearText m.year) := rfl

theorem exact_iff_column {g : Granularity} {s : String} :
    Exact g s ↔ ∃ m, FourDigit m ∧ g.column m = .ok s := by
  by_cases monthly : g = .monthly
  · subst monthly
    simp only [Exact, if_true, wellFormed_iff, Granularity.column, Except.ok.injEq, @eq_comm _ s]
  by_cases quarterly : g = .quarterly
  · subst quarterly
    simp only [Exact, monthly, if_false, if_true, column_quarterly, Except.ok.injEq]
    constructor
    · rintro ⟨year, quarter, ⟨digits, last, text, yearDigits, lastDigits, rfl, rfl⟩, low, high⟩
      have bound := yearDigits.value_lt
      refine ⟨⟨Decimal.value digits, (Decimal.value last - 1) * 3 + 1, by omega⟩, ⟨by simp, ?_⟩,
        String.toList_inj.mp ?_⟩
      · simp only
        omega
      · have quarter : ((Decimal.value last - 1) * 3 + 1 - 1) / 3 + 1 = Decimal.value last := by omega
        rw [toList_quarterText ⟨by simp, by simp only; omega⟩]
        simp only [Int.toNat_natCast, quarter]
        rw [text, yearDigits.padded_value (by decide), lastDigits.padded_value (by decide)]
    · rintro ⟨m, fits, rfl⟩
      have valid := m.valid
      refine ⟨m.year, (m.number - 1) / 3 + 1, ⟨_, _, toList_quarterText fits,
        digits_padded (by decide) (year_small fits), digits_padded (by decide) (by omega), ?_, ?_⟩,
        by omega, by omega⟩
      · rw [value_padded, Int.toNat_of_nonneg fits.1]
      · rw [value_padded]
  by_cases yearly : g = .yearly
  · subst yearly
    simp only [Exact, monthly, quarterly, if_false, if_true, column_yearly, Except.ok.injEq]
    constructor
    · rintro ⟨year, digits, rfl⟩
      have bound := digits.value_lt
      have fits : FourDigit ⟨Decimal.value s.toList, 1, by decide⟩ := ⟨by simp, by simp only; omega⟩
      refine ⟨_, fits, String.toList_inj.mp ?_⟩
      rw [toList_yearText fits]
      exact digits.padded_value (by decide)
    · rintro ⟨m, fits, rfl⟩
      refine ⟨m.year, ?_, ?_⟩
      · rw [toList_yearText fits]
        exact digits_padded (by decide) (year_small fits)
      · rw [toList_yearText fits, value_padded, Int.toNat_of_nonneg fits.1]
  · simp [Exact, Granularity.column, monthly, quarterly, yearly]

theorem exact_iff_label {g : Granularity} {s : String} :
    Exact g s ↔ ∃ month, WellFormed month ∧ g.label month = .ok s := by
  rw [exact_iff_column]
  constructor
  · rintro ⟨m, fits, labelled⟩
    exact ⟨monthText m, wellFormed_iff.mpr ⟨m, fits, rfl⟩, (label_monthText fits).trans labelled⟩
  · rintro ⟨month, wellFormed, labelled⟩
    obtain ⟨m, fits, rfl⟩ := wellFormed_iff.mp wellFormed
    exact ⟨m, fits, (label_monthText fits).symm.trans labelled⟩

theorem Exact.opening {g : Granularity} {s : String} (exact_ : Exact g s) : Opening g s := by
  obtain ⟨m, fits, labelled⟩ := exact_iff_column.mp exact_
  exact periodMonths_accepts_iff.mp ⟨_, periodMonths_column fits labelled⟩

/-- What the scans accept and what is written like a label differ by the loose texts. -/
theorem opening_iff_exact {g : Granularity} {s : String} :
    (Opening g s ↔ Exact g s) ↔ ¬ Loose g s := by
  constructor
  · rintro same ⟨opening, inexact⟩
    exact inexact (same.mp opening)
  · intro tight
    exact ⟨fun opening => by_contra fun inexact => tight ⟨opening, inexact⟩, Exact.opening⟩

/-! ## Exactness -/

/-- `parseMonth` reads `YYYY-MM` and refuses anything else. -/
def ParsesExactly (s : String) : Prop := ∀ m, parseMonth s = .ok m ↔ ReadsMonth s m

/-- `periodMonths` undoes `Label`: it takes the labels, and the months it returns are the first and
the last of those with that label. -/
def UndoesLabel (g : Granularity) (s : String) : Prop :=
  ((∃ range, periodMonths s g = .ok range) ↔ ∃ month, WellFormed month ∧ g.label month = .ok s) ∧
  ∀ first last, periodMonths s g = .ok (first, last) → ∀ month, WellFormed month →
    (first ≤ month ∧ month ≤ last ↔ g.label month = .ok s)

theorem between_span_iff {g : Granularity} {m : Month} {s month : String} (fits : FourDigit m)
    (labelled : g.column m = .ok s) (wellFormed : WellFormed month) :
    monthText (g.span m).1 ≤ month ∧ month ≤ monthText (g.span m).2 ↔ g.label month = .ok s := by
  obtain ⟨other, otherFits, rfl⟩ := wellFormed_iff.mp wellFormed
  obtain ⟨lowFits, highFits⟩ := @span_fits g m fits
  rw [label_monthText otherFits, column_eq_iff fits otherFits labelled, ← not_lt, ← not_lt,
    monthText_lt_iff otherFits lowFits, monthText_lt_iff highFits otherFits, not_lt, not_lt]

/-- Every text is parsed exactly but the malformed ones that a scan lets through. -/
theorem parsed_exactly_iff (s : String) :
    (ParsesExactly s ↔ ¬ Loose .monthly s) ∧ ∀ g, UndoesLabel g s ↔ ¬ Loose g s := by
  constructor
  · rw [← opening_iff_exact, ← parseMonth_accepts_iff]
    have exact_ : Exact .monthly s ↔ ∃ m, ReadsMonth s m := Iff.rfl
    rw [exact_]
    constructor
    · intro parses
      exact exists_congr parses
    · intro accepts m
      constructor
      · intro parsed
        obtain ⟨other, reads⟩ := accepts.mp ⟨m, parsed⟩
        obtain ⟨fits, rfl⟩ := readsMonth_iff.mp reads
        rw [parseMonth_monthText fits] at parsed
        exact Except.ok.inj parsed ▸ reads
      · intro reads
        obtain ⟨fits, rfl⟩ := readsMonth_iff.mp reads
        exact parseMonth_monthText fits
  · intro g
    rw [← opening_iff_exact, UndoesLabel, periodMonths_accepts_iff, ← exact_iff_label]
    refine and_iff_left_of_imp ?_
    intro same first last returned month wellFormed
    obtain ⟨m, fits, labelled⟩ := exact_iff_column.mp
      (same.mp (periodMonths_accepts_iff.mp ⟨_, returned⟩))
    rw [periodMonths_column fits labelled] at returned
    obtain ⟨rfl, rfl⟩ := Prod.mk.inj (Except.ok.inj returned)
    exact between_span_iff fits labelled wellFormed

/-- A month of one digit with something after it is read as January. -/
theorem malformed_month_parsed :
    parseMonth "2026-1x" = .ok ⟨2026, 1, by decide⟩ ∧ ¬ ParsesExactly "2026-1x" ∧
      ¬ UndoesLabel .yearly "20ab" := by
  have parsed : parseMonth "2026-1x" = .ok ⟨2026, 1, by decide⟩ := by decide +kernel
  refine ⟨parsed, ?_, ?_⟩
  · intro parses
    obtain ⟨fits, same⟩ := readsMonth_iff.mp ((parses _).mp parsed)
    revert same
    decide +kernel
  · intro undoes
    have accepted : periodMonths "20ab" .yearly = .ok ("0020-01", "0020-12") := by decide +kernel
    obtain ⟨month, wellFormed, labelled⟩ := undoes.1.mp ⟨_, accepted⟩
    have exact_ := exact_iff_label.mpr ⟨month, wellFormed, labelled⟩
    obtain ⟨year, digits, -⟩ : ∃ year, ReadsYear "20ab" year := exact_
    have letter := digits.known 'a' (by decide)
    cases letter

end Vekst.Reports
