import Vekst.Proof.Reports.Columns

namespace Vekst.Reports
open Calendar

/-- `Months` gives the months of a closed range in order, and `Periods` folds each of them onto one
of its labels, whatever the granularity. -/
def Enumerated (first last : Month) : Prop :=
  ∃ ms : List Month, months (monthText first) (monthText last) = .ok (ms.map monthText) ∧
    ms.Pairwise (· < ·) ∧ (∀ m, m ∈ ms ↔ first ≤ m ∧ m ≤ last) ∧
    ∀ g ∈ [Granularity.monthly, .quarterly, .yearly], ∃ labels,
      periods (monthText first) (monthText last) g = .ok labels ∧ labels.Nodup ∧
      ∀ m ∈ ms, ∃! label, label ∈ labels ∧ g.label (monthText m) = .ok label

variable {first last m : Month}

theorem mem_iff_of_tiles {stop : Month} {ms : List Month} (tiles : Tiles first (ms.map single) stop) :
    m ∈ ms ↔ first ≤ m ∧ m < stop := by
  constructor
  · intro member
    obtain ⟨lower, -, upper⟩ := tiles.within (List.mem_map_of_mem member)
    exact ⟨lower, upper⟩
  · rintro ⟨lower, upper⟩
    obtain ⟨span, member, low, high⟩ := tiles.covers lower upper
    obtain ⟨other, known, rfl⟩ := List.mem_map.mp member
    rwa [le_antisymm high low]

/-! ## The loop, up to a month whose next is of a four-digit year -/

/-- The loop counts up to the last month, after which the next text is later. -/
theorem exists_monthsFrom (lastFits : FourDigit last) (nextFits : FourDigit last.next) {fuel n : Nat}
    (ample : n < fuel) (nonneg : 0 ≤ m.year) (left : m.index + n = last.next.index) :
    ∃ ms : List Month, monthsFrom fuel m (monthText last) = some (ms.map monthText) ∧
      Tiles m (ms.map single) last.next := by
  induction n generalizing m fuel with
  | zero =>
      obtain ⟨fuel, rfl⟩ := Nat.exists_eq_succ_of_ne_zero (Nat.ne_of_gt ample)
      obtain rfl : m = last.next := Month.index_injective (by omega)
      have past := (monthText_lt_iff lastFits nextFits).mpr (Month.lt_next last)
      exact ⟨[], by rw [monthsFrom, if_pos past, List.map_nil], rfl⟩
  | succ n ih =>
      obtain ⟨fuel, rfl⟩ := Nat.exists_eq_succ_of_ne_zero (Nat.ne_of_gt (Nat.zero_lt_of_lt ample))
      have within : m ≤ last := by
        rw [Month.le_iff]
        rw [last.index_next] at left
        omega
      have fits : FourDigit m := by
        have valid := m.valid
        have lastValid := last.valid
        have year := lastFits.2
        simp only [Month.le_iff, Month.index] at within
        exact ⟨nonneg, by omega⟩
      have ahead : ¬ monthText last < monthText m := by
        rw [monthText_lt_iff lastFits fits]
        exact not_lt.mpr within
      have step := m.index_next
      have year : 0 ≤ m.next.year := by
        have valid := m.valid
        have nextValid := m.next.valid
        simp only [Month.index] at step
        omega
      have one : n < fuel := Nat.lt_of_succ_lt_succ ample
      obtain ⟨ms, found, tiles⟩ := ih one year (by omega)
      refine ⟨m :: ms, ?_, rfl, le_rfl, tiles⟩
      rw [monthsFrom, if_neg ahead, found, Option.map_some, List.map_cons]

theorem exists_months (start : 1 ≤ first.year) (lastFits : FourDigit last)
    (nextFits : FourDigit last.next) (ordered : first ≤ last) :
    ∃ ms : List Month, months (monthText first) (monthText last) = .ok (ms.map monthText) ∧
      Tiles first (ms.map single) last.next := by
  have firstFits : FourDigit first := by
    have valid := first.valid
    have lastValid := last.valid
    have year := lastFits.2
    simp only [Month.le_iff, Month.index] at ordered
    exact ⟨by omega, by omega⟩
  have reversed : ¬ monthText last < monthText first := by
    rw [monthText_lt_iff lastFits firstFits]
    exact not_lt.mpr ordered
  have left : first.index + (last.next.index - first.index).toNat = last.next.index := by
    have above := Month.le_iff.mp (ordered.trans (Month.lt_next last).le)
    omega
  have ample : (last.next.index - first.index).toNat < monthsFuel := by
    have valid := first.valid
    have nextValid := last.next.valid
    have year := nextFits.2
    simp only [Month.index, monthsFuel]
    omega
  obtain ⟨ms, found, tiles⟩ := exists_monthsFrom lastFits nextFits ample firstFits.1 left
  have fits : ∀ m ∈ ms, FourDigit m := by
    intro m member
    obtain ⟨lower, upper⟩ := (mem_iff_of_tiles tiles).mp member
    exact firstFits.between lastFits lower (Month.lt_next_iff.mp upper)
  refine ⟨ms, ?_, tiles⟩
  simp only [months, parseMonth_monthText firstFits, parseMonth_monthText lastFits, if_neg reversed,
    found, (pairwise_monthText tiles fits).insertionSort_eq, bind, Except.bind]

/-! ## The labels -/

theorem exists_column {g : Granularity} (known : g ∈ [Granularity.monthly, .quarterly, .yearly])
    (m : Month) : ∃ label, g.column m = .ok label := by
  simp only [List.mem_cons, List.not_mem_nil, or_false] at known
  rcases known with rfl | rfl | rfl <;> exact ⟨_, rfl⟩

theorem exists_periods {ms : List Month} {g : Granularity}
    (known : g ∈ [Granularity.monthly, .quarterly, .yearly]) (fits : ∀ m ∈ ms, FourDigit m)
    (listed : months (monthText first) (monthText last) = .ok (ms.map monthText)) :
    ∃ labels, periods (monthText first) (monthText last) g = .ok labels ∧ labels.Nodup ∧
      ∀ m ∈ ms, ∃! label, label ∈ labels ∧ g.label (monthText m) = .ok label := by
  have each : ∀ text ∈ ms.map monthText, ∃ label, g.label text = .ok label := by
    intro text member
    obtain ⟨m, inside, rfl⟩ := List.mem_map.mp member
    rw [label_monthText (fits m inside)]
    exact exists_column known m
  obtain ⟨labels, labelled⟩ := Relational.exists_mapM each
  have success : periods (monthText first) (monthText last) g = .ok (labels.foldl addLabel []) := by
    simp only [periods, listed, labelled, bind, Except.bind]
    rfl
  refine ⟨_, success, nodup_periods success, fun m inside => ?_⟩
  obtain ⟨label, member, own⟩ := Relational.exists_of_mapM labelled (List.mem_map_of_mem inside)
  refine ⟨label, ⟨mem_foldl_addLabel.mpr (.inl member), own⟩, ?_⟩
  rintro other ⟨-, same⟩
  exact Except.ok.inj (same.symm.trans own)

/-! ## The last representable month -/

/-- The loop lists every month before which no text is late. -/
theorem mem_monthsFrom_of_ahead {fuel : Nat} {stop : String} {out : List String} {late : Month}
    (found : monthsFrom fuel m stop = some out) (before : m ≤ late)
    (ahead : ∀ other, m ≤ other → other ≤ late → ¬ stop < monthText other) :
    monthText late ∈ out := by
  induction fuel generalizing m out with
  | zero => cases found
  | succ fuel ih =>
      rw [monthsFrom, if_neg (ahead m le_rfl before)] at found
      obtain ⟨rest, later, rfl⟩ := Option.map_eq_some_iff.mp found
      rcases before.eq_or_lt with rfl | less
      · exact List.mem_cons_self
      · refine List.mem_cons_of_mem _ (ih later (Month.next_le_iff.mpr less) ?_)
        exact fun other lower upper => ahead other ((Month.lt_next m).le.trans lower) upper

abbrev lastMonth : Month := ⟨9999, 12, Month.december_valid⟩

/-- After December 9999 comes a text that is not later. -/
theorem not_enumerated_lastMonth (start : 1 ≤ first.year) (ordered : first ≤ lastMonth) :
    ¬ Enumerated first lastMonth := by
  rintro ⟨ms, listed, -, exact_, -⟩
  have lastFits : FourDigit lastMonth := ⟨by decide, by decide⟩
  have firstFits : FourDigit first := by
    have valid := first.valid
    simp only [Month.le_iff, Month.index] at ordered
    exact ⟨by omega, by omega⟩
  have fits : ∀ m ∈ ms, FourDigit m := fun m member =>
    firstFits.between lastFits ((exact_ m).mp member).1 ((exact_ m).mp member).2
  simp only [months, parseMonth_monthText firstFits, parseMonth_monthText lastFits, bind,
    Except.bind] at listed
  split_ifs at listed
  split at listed
  next => cases listed
  next out found =>
    have ahead : ∀ other, first ≤ other → other ≤ lastMonth.next →
        ¬ monthText lastMonth < monthText other := by
      intro other lower upper
      rcases upper.eq_or_lt with rfl | less
      · decide +kernel
      · have within := Month.lt_next_iff.mp less
        rw [monthText_lt_iff lastFits (firstFits.between lastFits lower within)]
        exact not_lt.mpr within
    have known := mem_monthsFrom_of_ahead found (ordered.trans (Month.lt_next _).le) ahead
    rw [← List.mem_insertionSort (· ≤ ·), Except.ok.inj listed] at known
    obtain ⟨m, member, same⟩ := List.mem_map.mp known
    have parsed := parseMonth_monthText (fits m member)
    rw [same] at parsed
    exact absurd (fourDigit_of_parseMonth (by decide) parsed).2 (by decide)

/-- A range of well-formed months is enumerated unless it ends with December 9999. -/
theorem enumerated_iff (start : 1 ≤ first.year) (ordered : first ≤ last) (stop : last.year ≤ 9999) :
    Enumerated first last ↔ last ≠ lastMonth := by
  constructor
  · rintro enumerated rfl
    exact not_enumerated_lastMonth start ordered enumerated
  · intro early
    have firstYear : first.year ≤ last.year := by
      have valid := first.valid
      have lastValid := last.valid
      simp only [Month.le_iff, Month.index] at ordered
      omega
    have lastFits : FourDigit last := ⟨by omega, by omega⟩
    have nextFits : FourDigit last.next := by
      have valid := last.valid
      have december : ¬ (last.year = 9999 ∧ last.number = 12) := by
        rintro ⟨year, number⟩
        apply early
        apply Month.index_injective
        rw [Month.index, year, number]
        rfl
      unfold Month.next
      split_ifs with wraps <;> exact ⟨by simp only; omega, by simp only; omega⟩
    obtain ⟨ms, listed, tiles⟩ := exists_months start lastFits nextFits ordered
    have exact_ : ∀ m, m ∈ ms ↔ first ≤ m ∧ m ≤ last := fun m => by
      rw [mem_iff_of_tiles tiles, Month.lt_next_iff]
    have firstFits : FourDigit first := ⟨by omega, by omega⟩
    have fits : ∀ m ∈ ms, FourDigit m := fun m member =>
      firstFits.between lastFits ((exact_ m).mp member).1 ((exact_ m).mp member).2
    exact ⟨ms, listed, pairwise_of_tiles tiles, exact_, fun g known => exists_periods known fits listed⟩

theorem enumerated_sample : Enumerated ⟨2024, 11, by decide⟩ ⟨2025, 2, by decide⟩ :=
  (enumerated_iff (by decide) (by decide) (by decide)).mpr (by decide)

/-- Of the one month of December 9999, `Months` gives those of five-digit years too. -/
theorem last_month_runs_on : ¬ ∀ first last : Month, 1 ≤ first.year → first ≤ last →
    last.year ≤ 9999 → Enumerated first last := by
  intro claimed
  exact not_enumerated_lastMonth (by decide) le_rfl (claimed lastMonth lastMonth (by decide) le_rfl (by decide))

end Vekst.Reports
