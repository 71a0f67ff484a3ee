import Vekst.Relational.Grouping
import Vekst.Reports.Selection

namespace Vekst.Reports
open Calendar Decimal

/-- Years 0000 to 9999: the months whose texts are as wide as the format says. -/
def FourDigit (m : Month) : Prop := 0 ≤ m.year ∧ m.year < 10000

theorem FourDigit.between {a b m : Month} (aFits : FourDigit a) (bFits : FourDigit b)
    (lower : a ≤ m) (upper : m ≤ b) : FourDigit m := by
  have aValid := a.valid
  have bValid := b.valid
  have mValid := m.valid
  simp only [FourDigit, Month.le_iff, Month.index] at *
  omega

/-! ## Texts of months -/

theorem number_small (m : Month) : m.number < 10 ^ 2 := by
  have valid := m.valid
  omega

theorem year_small {m : Month} (fits : FourDigit m) : m.year.toNat < 10 ^ 4 := by
  obtain ⟨nonneg, small⟩ := fits
  omega

theorem toList_monthText {m : Month} (fits : FourDigit m) :
    (monthText m).toList = padded 4 m.year.toNat ++ '-' :: padded 2 m.number := by
  simp [monthText, paddedInt_of_nonneg 4 fits.1]

theorem utf8Size_monthText {c : Char} {year number : Nat}
    (member : c ∈ padded 4 year ++ '-' :: padded 2 number) : c.utf8Size = 1 := by
  rcases List.mem_append.mp member with digit | tail
  · exact Scan.utf8Size_of_isDigit (isDigit_of_mem_padded digit)
  · rcases List.mem_cons.mp tail with rfl | digit
    · rfl
    · exact Scan.utf8Size_of_isDigit (isDigit_of_mem_padded digit)

theorem utf8ByteSize_monthText {m : Month} (nonneg : 0 ≤ m.year) :
    (monthText m).utf8ByteSize = (padded 4 m.year.toNat).length + 3 := by
  rw [monthText, paddedInt_of_nonneg 4 nonneg, Scan.utf8ByteSize_ofList_of_ascii fun _ => utf8Size_monthText]
  simp [length_padded (by decide : 0 < 2) (number_small m)]

theorem scanMonth_monthText {m : Month} (fits : FourDigit m) :
    scanMonth (monthText m).toList = some (m.year, (m.number : Int)) := by
  have second := Scan.int_padded [] (by decide : 0 < 2) (number_small m)
  rw [List.append_nil] at second
  have year : (m.year.toNat : Int) = m.year := Int.toNat_of_nonneg fits.1
  simp [scanMonth, toList_monthText fits, Scan.int_padded _ (by decide : 0 < 4) (year_small fits),
    second, year]

theorem parseMonth_monthText {m : Month} (fits : FourDigit m) :
    parseMonth (monthText m) = .ok m := by
  have width : (monthText m).utf8ByteSize = 7 := by
    rw [utf8ByteSize_monthText fits.1, length_padded (by decide) (year_small fits)]
  have valid : (1 : Int) ≤ m.number ∧ (m.number : Int) ≤ 12 := by
    have known := m.valid
    omega
  simp [parseMonth, width, scanMonth_monthText fits, valid]

/-- A month text wide enough to be accepted is of a four-digit year. -/
theorem fourDigit_of_parseMonth {m other : Month} (nonneg : 0 ≤ m.year)
    (parsed : parseMonth (monthText m) = .ok other) : FourDigit m := by
  refine ⟨nonneg, ?_⟩
  by_contra large
  have wide := lt_length_padded (by decide : 0 < 4) (by omega : 10 ^ 4 ≤ m.year.toNat)
  have width : (monthText m).utf8ByteSize ≠ 7 := by
    rw [utf8ByteSize_monthText nonneg]
    omega
  simp [parseMonth, width] at parsed

theorem monthText_lt_iff {a b : Month} (aFits : FourDigit a) (bFits : FourDigit b) :
    monthText a < monthText b ↔ a < b := by
  have aValid := a.valid
  have bValid := b.valid
  have aYear := Int.toNat_of_nonneg aFits.1
  have bYear := Int.toNat_of_nonneg bFits.1
  have sameWidth : (padded 4 a.year.toNat).length = (padded 4 b.year.toNat).length := by
    rw [length_padded (by decide) (year_small aFits), length_padded (by decide) (year_small bFits)]
  rw [String.lt_iff_toList_lt, toList_monthText aFits, toList_monthText bFits,
    append_lt_append_iff sameWidth, List.cons_lt_cons_iff,
    padded_lt_iff (by decide) (year_small aFits) (year_small bFits),
    padded_lt_iff (by decide) (number_small a) (number_small b), (padded_injective 4).eq_iff,
    Month.lt_iff, Month.index, Month.index]
  simp only [lt_irrefl, true_and, false_or]
  omega

theorem monthText_injective {a b : Month} (aFits : FourDigit a) (bFits : FourDigit b)
    (same : monthText a = monthText b) : a = b := by
  have parsed := parseMonth_monthText aFits
  rw [same, parseMonth_monthText bFits] at parsed
  exact (Except.ok.inj parsed).symm

/-! ## Columns and the months they span -/

/-- The first and the last month of the column a month belongs to. -/
def Granularity.span (g : Granularity) (m : Month) : Month × Month :=
  if g = .monthly then (m, m)
  else if g = .quarterly then
    (⟨m.year, (m.number - 1) / 3 * 3 + 1, by have := m.valid; omega⟩,
      ⟨m.year, (m.number - 1) / 3 * 3 + 3, by have := m.valid; omega⟩)
  else (⟨m.year, 1, Month.january_valid⟩, ⟨m.year, 12, Month.december_valid⟩)

theorem span_fits {g : Granularity} {m : Month} (fits : FourDigit m) :
    FourDigit (g.span m).1 ∧ FourDigit (g.span m).2 := by
  unfold Granularity.span
  split_ifs <;> exact ⟨fits, fits⟩

theorem span_le {g : Granularity} (m : Month) : (g.span m).1 ≤ m ∧ m ≤ (g.span m).2 := by
  have valid := m.valid
  unfold Granularity.span
  split_ifs <;> simp only [Month.le_iff, Month.index] <;> omega

theorem quarter_digit (m : Month) :
    Nat.toDigits 10 ((m.number - 1) / 3 + 1) = padded 1 ((m.number - 1) / 3 + 1) := by
  have valid := m.valid
  have digit : (m.number - 1) / 3 + 1 < 10 := by omega
  simp [padded, Nat.toDigits_of_lt_base digit, List.leftpad]

theorem toList_quarterText {m : Month} (fits : FourDigit m) :
    (quarterText m.year ((m.number - 1) / 3 + 1)).toList =
      padded 4 m.year.toNat ++ '-' :: 'Q' :: padded 1 ((m.number - 1) / 3 + 1) := by
  simp [quarterText, paddedInt_of_nonneg 4 fits.1, quarter_digit]

theorem toList_yearText {m : Month} (fits : FourDigit m) :
    (yearText m.year).toList = padded 4 m.year.toNat := by
  simp [yearText, paddedInt_of_nonneg 4 fits.1]

theorem label_monthText {g : Granularity} {m : Month} (fits : FourDigit m) :
    g.label (monthText m) = g.column m := by
  simp [Granularity.label, parseMonth_monthText fits, bind, Except.bind]

theorem quarterText_injective {a b : Month} (aFits : FourDigit a) (bFits : FourDigit b)
    (same : quarterText a.year ((a.number - 1) / 3 + 1) =
      quarterText b.year ((b.number - 1) / 3 + 1)) :
    a.year = b.year ∧ (a.number - 1) / 3 = (b.number - 1) / 3 := by
  have lists := congrArg String.toList same
  rw [toList_quarterText aFits, toList_quarterText bFits] at lists
  have width : (padded 4 a.year.toNat).length = (padded 4 b.year.toNat).length := by
    rw [length_padded (by decide) (year_small aFits), length_padded (by decide) (year_small bFits)]
  obtain ⟨years, tails⟩ := List.append_inj lists width
  simp only [List.cons.injEq, true_and] at tails
  have year := padded_injective 4 years
  have quarter := padded_injective 1 tails
  have aYear := Int.toNat_of_nonneg aFits.1
  have bYear := Int.toNat_of_nonneg bFits.1
  omega

theorem yearText_injective {a b : Month} (aFits : FourDigit a) (bFits : FourDigit b)
    (same : yearText a.year = yearText b.year) : a.year = b.year := by
  have lists := congrArg String.toList same
  rw [toList_yearText aFits, toList_yearText bFits] at lists
  have year := padded_injective 4 lists
  have aYear := Int.toNat_of_nonneg aFits.1
  have bYear := Int.toNat_of_nonneg bFits.1
  omega

/-- A month is labelled with a column exactly when it lies in the column's span. -/
theorem column_eq_iff {g : Granularity} {m other : Month} {period : String} (fits : FourDigit m)
    (otherFits : FourDigit other) (labelled : g.column m = .ok period) :
    g.column other = .ok period ↔ (g.span m).1 ≤ other ∧ other ≤ (g.span m).2 := by
  have valid := m.valid
  have otherValid := other.valid
  unfold Granularity.column at labelled ⊢
  unfold Granularity.span
  split_ifs at labelled ⊢ with monthly quarterly yearly
  · obtain rfl := Except.ok.inj labelled
    constructor
    · intro same
      obtain rfl := monthText_injective otherFits fits (Except.ok.inj same)
      exact ⟨le_rfl, le_rfl⟩
    · rintro ⟨lower, upper⟩
      rw [le_antisymm upper lower]
  · obtain rfl := Except.ok.inj labelled
    simp only [Except.ok.injEq, Month.le_iff, Month.index]
    constructor
    · intro same
      have equal := quarterText_injective otherFits fits same
      omega
    · intro within
      have year : other.year = m.year := by omega
      have quarter : (other.number - 1) / 3 = (m.number - 1) / 3 := by omega
      rw [year, quarter]
  · obtain rfl := Except.ok.inj labelled
    simp only [Except.ok.injEq, Month.le_iff, Month.index]
    constructor
    · intro same
      have equal := yearText_injective otherFits fits same
      omega
    · intro within
      have year : other.year = m.year := by omega
      rw [year]

theorem utf8ByteSize_quarterText {m : Month} (fits : FourDigit m) :
    (quarterText m.year ((m.number - 1) / 3 + 1)).utf8ByteSize = 7 := by
  have valid := m.valid
  have text : quarterText m.year ((m.number - 1) / 3 + 1) = String.ofList
      (padded 4 m.year.toNat ++ '-' :: 'Q' :: padded 1 ((m.number - 1) / 3 + 1)) := by
    rw [← toList_quarterText fits, String.ofList_toList]
  rw [text, Scan.utf8ByteSize_ofList_of_ascii]
  · simp [length_padded (by decide : 0 < 4) (year_small fits),
      length_padded (by decide : 0 < 1) (by omega : (m.number - 1) / 3 + 1 < 10 ^ 1)]
  · intro c member
    rcases List.mem_append.mp member with digit | tail
    · exact Scan.utf8Size_of_isDigit (isDigit_of_mem_padded digit)
    · rcases List.mem_cons.mp tail with rfl | tail
      · rfl
      · rcases List.mem_cons.mp tail with rfl | digit
        · rfl
        · exact Scan.utf8Size_of_isDigit (isDigit_of_mem_padded digit)

theorem utf8ByteSize_yearText {m : Month} (fits : FourDigit m) :
    (yearText m.year).utf8ByteSize = 4 := by
  have text : yearText m.year = String.ofList (padded 4 m.year.toNat) := by
    rw [← toList_yearText fits, String.ofList_toList]
  rw [text, Scan.utf8ByteSize_ofList_of_ascii fun c digit =>
    Scan.utf8Size_of_isDigit (isDigit_of_mem_padded digit)]
  exact length_padded (by decide) (year_small fits)

theorem scanQuarter_quarterText {m : Month} (fits : FourDigit m) :
    scanQuarter (quarterText m.year ((m.number - 1) / 3 + 1)).toList =
      some (m.year, (((m.number - 1) / 3 + 1 : Nat) : Int)) := by
  have valid := m.valid
  have second := Scan.int_padded [] (by decide : 0 < 1)
    (by omega : (m.number - 1) / 3 + 1 < 10 ^ 1)
  rw [List.append_nil] at second
  have year : (m.year.toNat : Int) = m.year := Int.toNat_of_nonneg fits.1
  simp only [scanQuarter, toList_quarterText fits, Option.bind_eq_bind,
    Scan.int_padded _ (by decide : 0 < 4) (year_small fits), Option.bind_some, Scan.literal_cons,
    second, year]
  rfl

/-- `periodMonths` inverts `Label`: it finds the span of the column. -/
theorem periodMonths_column {g : Granularity} {m : Month} {period : String} (fits : FourDigit m)
    (labelled : g.column m = .ok period) :
    periodMonths period g = .ok (monthText (g.span m).1, monthText (g.span m).2) := by
  have valid := m.valid
  unfold Granularity.column at labelled
  unfold periodMonths Granularity.span
  split_ifs at labelled ⊢ with monthly quarterly yearly width
  · obtain rfl := Except.ok.inj labelled
    simp [parseMonth_monthText fits, Except.map]
  · obtain rfl := Except.ok.inj labelled
    have within : (1 : Int) ≤ ((m.number - 1) / 3 + 1 : Nat) ∧
        (((m.number - 1) / 3 + 1 : Nat) : Int) ≤ 4 ∧
        (quarterText m.year ((m.number - 1) / 3 + 1)).utf8ByteSize = 7 :=
      ⟨by omega, by omega, utf8ByteSize_quarterText fits⟩
    rw [scanQuarter_quarterText fits]
    simp only [within, and_self, dite_true, Except.ok.injEq, Prod.mk.injEq]
    constructor
    · congr 2
    · congr 2
      simp only [Int.toNat_natCast]
      omega
  · obtain rfl := Except.ok.inj labelled
    have scanned := Scan.int_padded [] (by decide : 0 < 4) (year_small fits)
    rw [List.append_nil] at scanned
    have year : (m.year.toNat : Int) = m.year := Int.toNat_of_nonneg fits.1
    rw [toList_yearText fits, scanned]
    simp [year]
  · obtain rfl := Except.ok.inj labelled
    exact absurd (utf8ByteSize_yearText fits) width

/-! ## The columns of a request -/

theorem mem_monthsFrom {fuel : Nat} {m : Month} {toMonth : String} {out : List String}
    (found : monthsFrom fuel m toMonth = some out) {text : String} (member : text ∈ out) :
    ∃ other, m ≤ other ∧ text = monthText other ∧ ¬ toMonth < text := by
  induction fuel generalizing m out with
  | zero => cases found
  | succ fuel ih =>
      unfold monthsFrom at found
      split_ifs at found with past
      · obtain rfl := Option.some.inj found
        cases member
      · obtain ⟨rest, later, rfl⟩ := Option.map_eq_some_iff.mp found
        rcases List.mem_cons.mp member with rfl | tail
        · exact ⟨m, le_rfl, rfl, past⟩
        · obtain ⟨other, after, same, within⟩ := ih later tail
          refine ⟨other, ?_, same, within⟩
          have step := m.index_next
          simp only [Month.le_iff] at after ⊢
          omega

theorem mem_months {first last : Month} (firstFits : FourDigit first) (lastFits : FourDigit last)
    {out : List String} (found : months (monthText first) (monthText last) = .ok out)
    {text : String} (member : text ∈ out) :
    ∃ m, first ≤ m ∧ text = monthText m ∧ ¬ monthText last < text := by
  simp only [months, parseMonth_monthText firstFits, parseMonth_monthText lastFits, bind,
    Except.bind] at found
  split_ifs at found
  split at found
  next => cases found
  next listed known =>
    obtain rfl := Except.ok.inj found
    exact mem_monthsFrom known ((List.mem_insertionSort _).mp member)

theorem nodup_foldl_addLabel (labels out : List String) (nodup : out.Nodup) :
    (labels.foldl addLabel out).Nodup := by
  induction labels generalizing out with
  | nil => exact nodup
  | cons label labels ih =>
      apply ih
      unfold addLabel
      split_ifs with seen
      · exact nodup
      · rw [← List.concat_eq_append]
        exact List.Nodup.concat seen nodup

theorem mem_foldl_addLabel {labels out : List String} {label : String} :
    label ∈ labels.foldl addLabel out ↔ label ∈ labels ∨ label ∈ out := by
  induction labels generalizing out with
  | nil => simp
  | cons head labels ih =>
      rw [List.foldl_cons, ih]
      unfold addLabel
      split_ifs with seen
      · constructor
        · rintro (later | earlier)
          · exact .inl (List.mem_cons_of_mem _ later)
          · exact .inr earlier
        · rintro (known | earlier)
          · rcases List.mem_cons.mp known with rfl | later
            · exact .inr seen
            · exact .inl later
          · exact .inr earlier
      · simp only [List.mem_append, List.mem_cons, List.not_mem_nil, or_false]
        tauto

theorem periods_ok {fromMonth toMonth : String} {g : Granularity} {out : List String}
    (success : periods fromMonth toMonth g = .ok out) :
    ∃ listed labels, months fromMonth toMonth = .ok listed ∧ listed.mapM g.label = .ok labels ∧
      out = labels.foldl addLabel [] := by
  unfold periods at success
  cases listing : months fromMonth toMonth with
  | error e => simp [listing, bind, Except.bind] at success
  | ok listed =>
      cases labelling : listed.mapM g.label with
      | error e => simp [listing, labelling, bind, Except.bind] at success
      | ok labels =>
          simp only [listing, labelling, bind, Except.bind, pure, Except.pure,
            Except.ok.injEq] at success
          exact ⟨listed, labels, rfl, labelling, success.symm⟩

theorem nodup_periods {fromMonth toMonth : String} {g : Granularity} {out : List String}
    (success : periods fromMonth toMonth g = .ok out) : out.Nodup := by
  obtain ⟨listed, labels, -, -, rfl⟩ := periods_ok success
  exact nodup_foldl_addLabel labels [] List.nodup_nil

/-- Every column of a request is the column of one of its months. -/
theorem month_of_period {first last : Month} (firstFits : FourDigit first)
    (lastFits : FourDigit last) {g : Granularity} {out : List String}
    (success : periods (monthText first) (monthText last) g = .ok out) {period : String}
    (member : period ∈ out) :
    ∃ m, FourDigit m ∧ first ≤ m ∧ m ≤ last ∧ g.column m = .ok period := by
  obtain ⟨listed, labels, listing, labelling, rfl⟩ := periods_ok success
  have labelled : period ∈ labels := by simpa using mem_foldl_addLabel.mp member
  obtain ⟨text, known, label⟩ := Relational.mem_of_mapM labelling labelled
  obtain ⟨m, after, rfl, within⟩ := mem_months firstFits lastFits listing known
  have nonneg : 0 ≤ m.year := by
    have valid := m.valid
    have firstValid := first.valid
    have year := firstFits.1
    simp only [Month.le_iff, Month.index] at after
    omega
  have fits : FourDigit m := by
    cases parsed : parseMonth (monthText m) with
    | error e => simp [Granularity.label, parsed, bind, Except.bind] at label
    | ok other => exact fourDigit_of_parseMonth nonneg parsed
  refine ⟨m, fits, after, ?_, ?_⟩
  · rw [monthText_lt_iff lastFits fits] at within
    exact not_lt.mp within
  · rwa [label_monthText fits] at label

/-! ## The dates of a cell -/

theorem monthRange_monthText {first last : Month} (firstFits : FourDigit first)
    (lastFits : FourDigit last) (ordered : first ≤ last) :
    monthRange (monthText first) (monthText last) = .ok (first.firstDay, last.lastDay) := by
  have notAfter : ¬ monthText last < monthText first := by
    rw [monthText_lt_iff lastFits firstFits]
    exact not_lt.mpr ordered
  simp [monthRange, parseMonth_monthText firstFits, parseMonth_monthText lastFits, notAfter, bind,
    Except.bind, Date.pred_firstDay_next]

theorem clip_low {a b : Month} (aFits : FourDigit a) (bFits : FourDigit b) :
    (if monthText a < monthText b then monthText b else monthText a) = monthText (max a b) := by
  simp only [monthText_lt_iff aFits bFits]
  split_ifs with less
  · rw [max_eq_right less.le]
  · rw [max_eq_left (not_lt.mp less)]

theorem clip_high {a b : Month} (aFits : FourDigit a) (bFits : FourDigit b) :
    (if monthText b < monthText a then monthText b else monthText a) = monthText (min a b) := by
  simp only [monthText_lt_iff bFits aFits]
  split_ifs with less
  · rw [min_eq_right less.le]
  · rw [min_eq_left (not_lt.mp less)]

/-- The selection of a cell runs over the months of its column inside the request. -/
theorem selectionFor_eq {req : Request} {first last m : Month} (firstFits : FourDigit first)
    (lastFits : FourDigit last) (fromText : req.fromMonth = monthText first)
    (toText : req.toMonth = monthText last) (lower : first ≤ m) (upper : m ≤ last)
    {period : String} (labelled : req.granularity.column m = .ok period) {line : LineRef}
    (ownRows : ∀ code, line = .sectionLine code → operands code = []) :
    selectionFor req period line = .ok ⟨req.entityID, req.basis,
      (max (req.granularity.span m).1 first).firstDay,
      (min (req.granularity.span m).2 last).lastDay, line⟩ := by
  have fits := firstFits.between lastFits lower upper
  obtain ⟨lowFits, highFits⟩ := @span_fits req.granularity m fits
  obtain ⟨below, above⟩ := @span_le req.granularity m
  have spanned := periodMonths_column fits labelled
  set low := (req.granularity.span m).1
  set high := (req.granularity.span m).2
  have startFits : FourDigit (max low first) := by
    rcases max_choice low first with same | same <;> rw [same] <;> assumption
  have stopFits : FourDigit (min high last) := by
    rcases min_choice high last with same | same <;> rw [same] <;> assumption
  have ordered : max low first ≤ min high last :=
    (max_le below lower).trans (le_min above upper)
  have notAfter : ¬ monthText (min high last) < monthText (max low first) := by
    rw [monthText_lt_iff stopFits startFits]
    exact not_lt.mpr ordered
  cases line with
  | sectionLine code =>
      have none : operands code = [] := ownRows code rfl
      simp only [selectionFor, none, ne_eq, not_true_eq_false, if_false, spanned, fromText,
        toText, clip_low lowFits firstFits, clip_high highFits lastFits, notAfter,
        monthRange_monthText startFits stopFits ordered, bind, Except.bind, pure, Except.pure]
  | bucketLine bucket =>
      simp only [selectionFor, spanned, fromText, toText, clip_low lowFits firstFits,
        clip_high highFits lastFits, notAfter, if_false,
        monthRange_monthText startFits stopFits ordered, bind, Except.bind, pure, Except.pure]

/-- The selection of a cell holds exactly the dates of its column inside the request. -/
theorem selectionFor_ok {req : Request} {first last m : Month} (firstFits : FourDigit first)
    (lastFits : FourDigit last) (fromText : req.fromMonth = monthText first)
    (toText : req.toMonth = monthText last) (lower : first ≤ m) (upper : m ≤ last)
    {period : String} (labelled : req.granularity.column m = .ok period) {line : LineRef}
    (ownRows : ∀ code, line = .sectionLine code → operands code = []) :
    ∃ fromDate toDate, selectionFor req period line =
        .ok ⟨req.entityID, req.basis, fromDate, toDate, line⟩ ∧
      ∀ d : Date, fromDate ≤ d ∧ d ≤ toDate ↔
        (first ≤ d.toMonth ∧ d.toMonth ≤ last) ∧ req.granularity.column d.toMonth = .ok period := by
  have fits := firstFits.between lastFits lower upper
  refine ⟨_, _, selectionFor_eq firstFits lastFits fromText toText lower upper labelled ownRows, ?_⟩
  intro d
  rw [Date.between_iff, max_le_iff, le_min_iff]
  constructor
  · rintro ⟨⟨afterLow, afterFirst⟩, beforeHigh, beforeLast⟩
    have dFits := firstFits.between lastFits afterFirst beforeLast
    exact ⟨⟨afterFirst, beforeLast⟩,
      (column_eq_iff fits dFits labelled).mpr ⟨afterLow, beforeHigh⟩⟩
  · rintro ⟨⟨afterFirst, beforeLast⟩, same⟩
    have dFits := firstFits.between lastFits afterFirst beforeLast
    obtain ⟨afterLow, beforeHigh⟩ := (column_eq_iff fits dFits labelled).mp same
    exact ⟨⟨afterLow, afterFirst⟩, beforeHigh, beforeLast⟩

end Vekst.Reports
