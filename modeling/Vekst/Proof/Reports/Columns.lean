import Mathlib.Data.List.Forall2
import Vekst.Proof.Reports.Periods

namespace Vekst.Reports
open Calendar Decimal

/-- Spans of months one after another, from one month to the month before another. -/
def Tiles (first : Month) : List (Month × Month) → Month → Prop
  | [], stop => first = stop
  | (low, high) :: rest, stop => low = first ∧ low ≤ high ∧ Tiles high.next rest stop

theorem Month.lt_next (m : Month) : m < m.next := by
  rw [Month.lt_iff, m.index_next]
  omega

theorem Month.lt_next_iff {a b : Month} : a < b.next ↔ a ≤ b := by
  rw [Month.lt_iff, Month.le_iff, b.index_next]
  omega

theorem Month.next_le_iff {a b : Month} : a.next ≤ b ↔ a < b := by
  rw [Month.lt_iff, Month.le_iff, a.index_next]
  omega

theorem Tiles.start_le {first stop : Month} {spans : List (Month × Month)}
    (tiles : Tiles first spans stop) : first ≤ stop := by
  induction spans generalizing first with
  | nil => exact tiles.le
  | cons span rest ih =>
      obtain ⟨rfl, ordered, later⟩ := tiles
      exact ordered.trans ((Month.lt_next _).le.trans (ih later))

theorem Tiles.within {first stop : Month} {spans : List (Month × Month)}
    (tiles : Tiles first spans stop) {span : Month × Month} (member : span ∈ spans) :
    first ≤ span.1 ∧ span.1 ≤ span.2 ∧ span.2 < stop := by
  induction spans generalizing first with
  | nil => cases member
  | cons head rest ih =>
      obtain ⟨rfl, ordered, later⟩ := tiles
      rcases List.mem_cons.mp member with rfl | tail
      · exact ⟨le_rfl, ordered, (Month.lt_next _).trans_le later.start_le⟩
      · obtain ⟨after, rest⟩ := ih later tail
        exact ⟨ordered.trans ((Month.lt_next _).le.trans after), rest⟩

theorem Tiles.last {first stop : Month} {spans : List (Month × Month)}
    (tiles : Tiles first spans stop) (some_ : spans ≠ []) : ∃ span ∈ spans, span.2.next = stop := by
  induction spans generalizing first with
  | nil => exact absurd rfl some_
  | cons span rest ih =>
      obtain ⟨rfl, -, later⟩ := tiles
      cases rest with
      | nil => exact ⟨span, by simp, later⟩
      | cons next others =>
          obtain ⟨found, member, same⟩ := ih later (by simp)
          exact ⟨found, List.mem_cons_of_mem _ member, same⟩

/-- A span starts where the tiles do or where another one stops. -/
theorem Tiles.start_mem {first stop : Month} {spans : List (Month × Month)}
    (tiles : Tiles first spans stop) {span : Month × Month} (member : span ∈ spans) :
    span.1 ∈ first :: spans.map (·.2.next) := by
  induction spans generalizing first with
  | nil => cases member
  | cons head rest ih =>
      obtain ⟨rfl, -, later⟩ := tiles
      rcases List.mem_cons.mp member with rfl | tail
      · exact List.mem_cons_self
      · exact List.mem_cons_of_mem _ (ih later tail)

theorem Tiles.covers {first stop : Month} {spans : List (Month × Month)}
    (tiles : Tiles first spans stop) {m : Month} (lower : first ≤ m) (upper : m < stop) :
    ∃ span ∈ spans, span.1 ≤ m ∧ m ≤ span.2 := by
  induction spans generalizing first with
  | nil =>
      obtain rfl : first = stop := tiles
      exact absurd (lower.trans_lt upper) (lt_irrefl _)
  | cons span rest ih =>
      obtain ⟨rfl, ordered, later⟩ := tiles
      rcases le_or_gt m span.2 with within | past
      · exact ⟨span, by simp, lower, within⟩
      · obtain ⟨found, member, covered⟩ := ih later (Month.next_le_iff.mpr past)
        exact ⟨found, List.mem_cons_of_mem _ member, covered⟩

theorem Tiles.isChain {first stop : Month} {spans : List (Month × Month)}
    (tiles : Tiles first spans stop) : spans.IsChain fun a b => b.1 = a.2.next := by
  induction spans generalizing first with
  | nil => exact .nil
  | cons span rest ih =>
      obtain ⟨rfl, -, later⟩ := tiles
      cases rest with
      | nil => exact .singleton _
      | cons next others => exact .cons_cons later.1 (ih later)

theorem Tiles.head? {first stop : Month} {spans : List (Month × Month)}
    (tiles : Tiles first spans stop) (some_ : spans ≠ []) :
    spans.head?.map Prod.fst = some first := by
  cases spans with
  | nil => exact absurd rfl some_
  | cons span rest =>
      obtain ⟨rfl, -, -⟩ := tiles
      rfl

theorem Tiles.getLast? {first last : Month} {spans : List (Month × Month)}
    (tiles : Tiles first spans last.next) (some_ : spans ≠ []) :
    spans.getLast?.map Prod.snd = some last := by
  induction spans generalizing first with
  | nil => exact absurd rfl some_
  | cons span rest ih =>
      obtain ⟨rfl, -, later⟩ := tiles
      cases rest with
      | nil =>
          have same : span.2.next = last.next := later
          have indices := congrArg Month.index same
          rw [Month.index_next, Month.index_next] at indices
          have equal : span.2 = last := Month.index_injective (by omega)
          simp [equal]
      | cons next others =>
          rw [List.getLast?_cons_cons]
          exact ih later (by simp)

/-! ## The months of a request -/

def single (m : Month) : Month × Month := (m, m)

theorem pairwise_of_tiles {first stop : Month} {ms : List Month}
    (tiles : Tiles first (ms.map single) stop) : ms.Pairwise (· < ·) := by
  induction ms generalizing first with
  | nil => exact List.Pairwise.nil
  | cons m ms ih =>
      obtain ⟨rfl, -, later⟩ := tiles
      refine List.Pairwise.cons (fun other member => ?_) (ih later)
      exact (Month.lt_next m).trans_le (later.within (List.mem_map_of_mem member)).1

theorem pairwise_monthText {first stop : Month} {ms : List Month}
    (tiles : Tiles first (ms.map single) stop) (fits : ∀ m ∈ ms, FourDigit m) :
    (ms.map monthText).Pairwise (· ≤ ·) := by
  rw [List.pairwise_map]
  refine (pairwise_of_tiles tiles).imp_of_mem fun aMember bMember less => ?_
  exact ((monthText_lt_iff (fits _ aMember) (fits _ bMember)).mpr less).le

/-- The loop of `Months` lists the months up to the last one, if every text it lists is one. -/
theorem monthsFrom_tiles {last m : Month} (lastFits : FourDigit last) (nonneg : 0 ≤ m.year)
    (upper : m ≤ last.next) {fuel : Nat} {out : List String}
    (found : monthsFrom fuel m (monthText last) = some out)
    (each : ∀ text ∈ out, ∃ other, parseMonth text = .ok other) :
    ∃ ms : List Month, out = ms.map monthText ∧ Tiles m (ms.map single) last.next ∧
      ∀ m ∈ ms, FourDigit m := by
  induction fuel generalizing m out with
  | zero => cases found
  | succ fuel ih =>
      unfold monthsFrom at found
      split_ifs at found with past
      · obtain rfl := Option.some.inj found
        refine ⟨[], rfl, ?_, by simp⟩
        rcases upper.lt_or_eq with before | same
        · have fits : FourDigit m := by
            have index := Month.lt_iff.mp before
            have lastYear := lastFits.2
            have valid := m.valid
            have lastValid := last.valid
            rw [last.index_next] at index
            simp only [Month.index] at index
            exact ⟨nonneg, by omega⟩
          rw [monthText_lt_iff lastFits fits, ← Month.next_le_iff] at past
          exact absurd (before.trans_le past) (lt_irrefl _)
        · exact same
      · obtain ⟨rest, later, rfl⟩ := Option.map_eq_some_iff.mp found
        obtain ⟨other, parsed⟩ := each (monthText m) (by simp)
        have fits := fourDigit_of_parseMonth nonneg parsed
        have within : m ≤ last := by
          rw [monthText_lt_iff lastFits fits] at past
          exact not_lt.mp past
        have year : 0 ≤ m.next.year := by
          have index := m.index_next
          have valid := m.valid
          have nextValid := m.next.valid
          simp only [Month.index] at index
          omega
        have step : m.next ≤ last.next := by
          rw [Month.le_iff, m.index_next, last.index_next]
          have ordered := Month.le_iff.mp within
          omega
        obtain ⟨ms, rfl, tiles, all⟩ := ih year step later fun text member => each text (by simp [member])
        refine ⟨m :: ms, rfl, ⟨rfl, le_rfl, tiles⟩, ?_⟩
        intro other member
        rcases List.mem_cons.mp member with rfl | tail
        · exact fits
        · exact all other tail

/-! ## The columns of a request -/

/-- The column of a span: the months of one column inside the request. -/
structure Spans (g : Granularity) (first last : Month) (period : String)
    (span : Month × Month) : Prop where
  column : g.column span.1 = .ok period
  starts : max (g.span span.1).1 first = span.1
  stops : min (g.span span.1).2 last = span.2

theorem max_span_first {g : Granularity} {first m : Month} (lower : first ≤ m)
    (starts : m = first ∨ (g.span m).1 = m) : max (g.span m).1 first = m := by
  rcases starts with rfl | same
  · exact max_eq_right (span_le m).1
  · rw [same]
    exact max_eq_left lower

/-- The months after those of an open column, folded into the columns. -/
theorem foldl_addLabel_spans {g : Granularity} {first last : Month} {ms : List Month}
    {labels done_ : List String} {low prev : Month} {period : String}
    (firstLow : first ≤ low) (lowPrev : low ≤ prev) (prevFits : FourDigit prev)
    (lowFits : FourDigit low) (opened : g.column low = .ok period)
    (starts : low = first ∨ (g.span low).1 = low) (open_ : prev ≤ (g.span low).2)
    (past : ∀ label ∈ done_, ∀ m, FourDigit m → low ≤ m → g.column m ≠ .ok label)
    (tiles : Tiles prev.next (ms.map single) last.next) (fits : ∀ m ∈ ms, FourDigit m)
    (labelled : List.Forall₂ (fun m label => g.column m = .ok label) ms labels) :
    ∃ periods spans, labels.foldl addLabel (done_ ++ [period]) = done_ ++ periods ∧
      Tiles low spans last.next ∧ List.Forall₂ (Spans g first last) periods spans := by
  induction labelled generalizing done_ low prev period with
  | nil =>
      have same : prev = last := by
        have index := congrArg Month.index (show prev.next = last.next from tiles)
        rw [prev.index_next, last.index_next] at index
        exact Month.index_injective (by omega)
      subst same
      refine ⟨[period], [(low, prev)], rfl, ⟨rfl, lowPrev, rfl⟩, ?_⟩
      exact .cons ⟨opened, max_span_first firstLow starts, min_eq_right open_⟩ .nil
  | @cons m label ms labels column rest ih =>
      obtain ⟨rfl, -, later⟩ := tiles
      have mFits := fits prev.next (by simp)
      have restFits : ∀ m ∈ ms, FourDigit m := fun other member => fits other (by simp [member])
      have after : prev < prev.next := Month.lt_next prev
      have belongs := column_eq_iff lowFits mFits opened
      have lowSpan : (g.span low).1 ≤ low := (span_le low).1
      rw [List.foldl_cons]
      by_cases inside : prev.next ≤ (g.span low).2
      · have same := belongs.mpr ⟨lowSpan.trans (lowPrev.trans after.le), inside⟩
        obtain rfl := Except.ok.inj (column.symm.trans same)
        have seen : addLabel (done_ ++ [label]) label = done_ ++ [label] := by simp [addLabel]
        rw [seen]
        exact ih firstLow (lowPrev.trans after.le) mFits lowFits opened starts inside past later restFits
      · have ended : (g.span low).2 = prev := by
          rw [Month.next_le_iff, not_lt] at inside
          exact le_antisymm inside open_
        have other : g.column prev.next ≠ .ok period := fun same => inside (belongs.mp same).2
        have fresh : label ∉ done_ ++ [period] := by
          intro member
          rcases List.mem_append.mp member with old | last
          · exact past label old _ mFits (lowPrev.trans after.le) column
          · obtain rfl := List.mem_singleton.mp last
            exact other column
        -- The column of the next month cannot have begun before it.
        have begins : (g.span prev.next).1 = prev.next := by
          refine le_antisymm (span_le _).1 ?_
          rw [Month.next_le_iff]
          by_contra early
          have before := (column_eq_iff mFits prevFits column).mpr
            ⟨not_lt.mp early, after.le.trans (span_le _).2⟩
          have own := (column_eq_iff lowFits prevFits opened).mpr ⟨lowSpan.trans lowPrev, open_⟩
          obtain rfl := Except.ok.inj (before.symm.trans own)
          exact other column
        have closed : ∀ old ∈ done_ ++ [period], ∀ m, FourDigit m → prev.next ≤ m →
            g.column m ≠ .ok old := by
          intro old member m known beyond same
          rcases List.mem_append.mp member with earlier | last
          · exact past old earlier m known (lowPrev.trans (after.le.trans beyond)) same
          · obtain rfl := List.mem_singleton.mp last
            have bound := ((column_eq_iff lowFits known opened).mp same).2
            rw [ended] at bound
            exact absurd (after.trans_le (beyond.trans bound)) (lt_irrefl _)
        have appended : addLabel (done_ ++ [period]) label = (done_ ++ [period]) ++ [label] := by
          simp only [addLabel, fresh, if_false]
        obtain ⟨periods, spans, folded, tiled, columns⟩ := ih (firstLow.trans (lowPrev.trans after.le))
          le_rfl mFits mFits column (.inr begins) (span_le _).2 closed later restFits
        refine ⟨period :: periods, (low, prev) :: spans, ?_, ⟨rfl, lowPrev, tiled⟩, ?_⟩
        · rw [appended, folded, List.append_assoc]
          rfl
        · have upper : prev ≤ last := by
            rw [← Month.lt_next_iff]
            exact after.trans_le tiled.start_le
          refine .cons ⟨opened, max_span_first firstLow starts, ?_⟩ columns
          rw [ended]
          exact min_eq_left upper

/-- The columns of an accepted request tile its months. -/
theorem periods_tiles {first last : Month} (firstFits : FourDigit first)
    (lastFits : FourDigit last) {g : Granularity} {out : List String}
    (success : periods (monthText first) (monthText last) g = .ok out) :
    first ≤ last ∧ ∃ spans, Tiles first spans last.next ∧
      List.Forall₂ (Spans g first last) out spans := by
  obtain ⟨listed, labels, listing, labelling, rfl⟩ := periods_ok success
  simp only [months, parseMonth_monthText firstFits, parseMonth_monthText lastFits, bind,
    Except.bind] at listing
  split_ifs at listing with reversed
  have ordered : first ≤ last := by
    rw [monthText_lt_iff lastFits firstFits] at reversed
    exact not_lt.mp reversed
  refine ⟨ordered, ?_⟩
  split at listing
  next => cases listing
  next out found =>
    obtain rfl := Except.ok.inj listing
    have each : ∀ text ∈ out, ∃ other, parseMonth text = .ok other := by
      intro text member
      obtain ⟨label, -, labelled⟩ :=
        Relational.exists_of_mapM labelling ((List.mem_insertionSort _).mpr member)
      cases parsed : parseMonth text with
      | error e => simp [Granularity.label, parsed, bind, Except.bind] at labelled
      | ok other => exact ⟨other, rfl⟩
    have upper : first ≤ last.next := ordered.trans (Month.lt_next last).le
    obtain ⟨ms, rfl, tiles, fits⟩ := monthsFrom_tiles lastFits firstFits.1 upper found each
    have sorted := (pairwise_monthText tiles fits).insertionSort_eq
    rw [sorted] at labelling
    have labelled : List.Forall₂ (fun m label => g.column m = .ok label) ms labels := by
      have texts := Relational.mapM_eq_ok_iff.mp labelling
      rw [List.forall₂_map_left_iff] at texts
      refine ((List.forall₂_and_left ms labels).mpr ⟨fits, texts⟩).imp fun m label both => ?_
      rw [← label_monthText both.1]
      exact both.2
    cases labelled with
    | nil =>
        obtain rfl : first = last.next := tiles
        exact absurd ((Month.lt_next last).trans_le ordered) (lt_irrefl _)
    | @cons m label ms labels column rest =>
        obtain ⟨rfl, -, later⟩ := tiles
        have restFits := fun m member => fits m (List.mem_cons_of_mem _ member)
        have none_ : ∀ label ∈ ([] : List String), ∀ other, FourDigit other →
            m ≤ other → g.column other ≠ .ok label := by simp
        obtain ⟨periods, spans, folded, tiled, columns⟩ := foldl_addLabel_spans le_rfl le_rfl
          firstFits firstFits column (.inl rfl) (span_le _).2 none_ later restFits rest
        refine ⟨spans, tiled, ?_⟩
        have merged : (label :: labels).foldl addLabel [] = periods := by
          simpa [addLabel] using folded
        rw [merged]
        exact columns

/-! ## The dates of the columns -/

theorem Spans.belongs {g : Granularity} {first last m : Month} {period : String}
    {span : Month × Month} (spans : Spans g first last period span) (fits : FourDigit span.1)
    (mFits : FourDigit m) (lower : span.1 ≤ m) (upper : m ≤ span.2) :
    g.column m = .ok period := by
  have above : span.2 ≤ (g.span span.1).2 := by
    rw [← spans.stops]
    exact min_le_left _ _
  exact (column_eq_iff fits mFits spans.column).mpr
    ⟨(span_le span.1).1.trans lower, upper.trans above⟩

theorem ownRows_of_selectionFor {req : Request} {period : String} {line : LineRef}
    {selection : Selection} (accepted : selectionFor req period line = .ok selection) :
    ∀ code, line = .sectionLine code → operands code = [] := by
  rintro code rfl
  by_contra computed
  simp [selectionFor, computed, bind, Except.bind] at accepted

/-- What `SelectionFor` builds for the months of a span. -/
def cellSelection (req : Request) (line : LineRef) (span : Month × Month) : Selection :=
  ⟨req.entityID, req.basis, span.1.firstDay, span.2.lastDay, line⟩

theorem selectionFor_spans {req : Request} {first last : Month} (firstFits : FourDigit first)
    (lastFits : FourDigit last) (fromText : req.fromMonth = monthText first)
    (toText : req.toMonth = monthText last) {line : LineRef}
    (ownRows : ∀ code, line = .sectionLine code → operands code = [])
    {period : String} {span : Month × Month} (lower : first ≤ span.1) (upper : span.1 ≤ last)
    (spans : Spans req.granularity first last period span) :
    selectionFor req period line = .ok (cellSelection req line span) := by
  rw [selectionFor_eq firstFits lastFits fromText toText lower upper spans.column ownRows,
    spans.starts, spans.stops]
  rfl

/-- The dates of the columns of a request follow one another from its first day to its last, and
a month's days are in the dates of the column it is labelled with and in no other's. -/
theorem periods_partition {req : Request} {first last : Month} (firstFits : FourDigit first)
    (lastFits : FourDigit last) (fromText : req.fromMonth = monthText first)
    (toText : req.toMonth = monthText last) {line : LineRef} {labels : List String}
    (listed : periods req.fromMonth req.toMonth req.granularity = .ok labels)
    (accepted : ∀ label ∈ labels, ∃ selection, selectionFor req label line = .ok selection) :
    ∃ selections : List Selection,
      List.Forall₂ (fun label selection => selectionFor req label line = .ok selection)
        labels selections ∧
      (∀ selection ∈ selections, selection.fromDate ≤ selection.toDate) ∧
      selections.IsChain (fun earlier later => later.fromDate = earlier.toDate.succ) ∧
      selections.head?.map Selection.fromDate = some first.firstDay ∧
      selections.getLast?.map Selection.toDate = some last.lastDay ∧
      ∀ m, first ≤ m → m ≤ last → ∃ label ∈ labels,
        req.granularity.label (monthText m) = .ok label ∧
        ∀ other ∈ labels, ∀ selection, selectionFor req other line = .ok selection →
          ∀ d : Date, d.toMonth = m →
            (selection.fromDate ≤ d ∧ d ≤ selection.toDate ↔ other = label) := by
  rw [fromText, toText] at listed
  obtain ⟨ordered, spans, tiles, columns⟩ := periods_tiles firstFits lastFits listed
  have some_ : spans ≠ [] := by
    rintro rfl
    obtain rfl : first = last.next := tiles
    exact absurd ((Month.lt_next last).trans_le ordered) (lt_irrefl _)
  have ownRows : ∀ code, line = .sectionLine code → operands code = [] := by
    cases columns with
    | nil => exact absurd rfl some_
    | cons column rest =>
        obtain ⟨selection, selected⟩ := accepted _ List.mem_cons_self
        exact ownRows_of_selectionFor selected
  have within : ∀ span ∈ spans, first ≤ span.1 ∧ span.1 ≤ last := by
    intro span member
    obtain ⟨lower, wide, upper⟩ := tiles.within member
    exact ⟨lower, wide.trans (Month.lt_next_iff.mp upper)⟩
  have selected : List.Forall₂ (fun label span =>
      selectionFor req label line = .ok (cellSelection req line span)) labels spans := by
    refine (((List.forall₂_and_left spans labels).mpr ⟨within, columns.flip⟩).imp ?_).flip
    rintro span label ⟨⟨lower, upper⟩, column⟩
    exact selectionFor_spans firstFits lastFits fromText toText ownRows lower upper column
  refine ⟨spans.map (cellSelection req line), List.forall₂_map_right_iff.mpr selected, ?_, ?_, ?_,
    ?_, ?_⟩
  · intro selection member
    obtain ⟨span, known, rfl⟩ := List.mem_map.mp member
    exact Date.firstDay_le_iff.mpr (tiles.within known).2.1
  · rw [List.isChain_map]
    refine tiles.isChain.imp ?_
    intro earlier later follows
    show later.1.firstDay = earlier.2.lastDay.succ
    rw [follows, Date.succ_lastDay]
  · have starts := congrArg (Option.map Month.firstDay) (tiles.head? some_)
    simpa [Option.map_map, Function.comp_def, cellSelection] using starts
  · have stops := congrArg (Option.map Month.lastDay) (tiles.getLast? some_)
    simpa [Option.map_map, Function.comp_def, cellSelection] using stops
  · intro m lower upper
    have mFits := firstFits.between lastFits lower upper
    obtain ⟨span, member, starts, stops⟩ := tiles.covers lower (Month.lt_next_iff.mpr upper)
    have spanFits := firstFits.between lastFits (within span member).1 (within span member).2
    obtain ⟨label, known, column⟩ := Relational.exists_left_of_forall₂ columns member
    have labelled := column.belongs spanFits mFits starts stops
    refine ⟨label, known, (label_monthText mFits).trans labelled, ?_⟩
    intro other otherKnown selection selects d day
    obtain ⟨own, ownMember, ownColumn⟩ := Relational.exists_right_of_forall₂ columns otherKnown
    obtain ⟨ownLower, ownUpper⟩ := within own ownMember
    obtain ⟨fromDate, toDate, found, dates⟩ := selectionFor_ok firstFits lastFits fromText toText
      ownLower ownUpper ownColumn.column ownRows
    obtain rfl := Except.ok.inj (selects.symm.trans found)
    rw [dates, day]
    constructor
    · rintro ⟨-, same⟩
      exact Except.ok.inj (same.symm.trans labelled)
    · rintro rfl
      exact ⟨⟨lower, upper⟩, labelled⟩

def leapRequest : Request where
  entityID := 1
  fromMonth := "2023-11"
  toMonth := "2024-02"
  granularity := .quarterly
  basis := .ledger

theorem periods_partition_sample :
    ∃ selections : List Selection,
      List.Forall₂ (fun label selection =>
          selectionFor leapRequest label (.sectionLine netSales) = .ok selection)
        ["2023-Q4", "2024-Q1"] selections ∧
      selections.getLast?.map Selection.toDate =
        some ⟨2024, 2, 29, by decide, by decide⟩ := by
  have listed : periods leapRequest.fromMonth leapRequest.toMonth leapRequest.granularity =
      .ok ["2023-Q4", "2024-Q1"] := by decide +kernel
  have accepted : ∀ label ∈ ["2023-Q4", "2024-Q1"],
      ∃ selection, selectionFor leapRequest label (.sectionLine netSales) = .ok selection := by
    intro label member
    have known : (selectionFor leapRequest label (.sectionLine netSales)).isOk = true := by
      revert label
      decide +kernel
    cases selected : selectionFor leapRequest label (.sectionLine netSales) with
    | error e => simp [selected, Except.isOk, Except.toBool] at known
    | ok selection => exact ⟨selection, rfl⟩
  obtain ⟨selections, selected, -, -, -, stops, -⟩ := @periods_partition leapRequest
    ⟨2023, 11, by decide⟩ ⟨2024, 2, by decide⟩ ⟨by decide, by decide⟩ ⟨by decide, by decide⟩
    (by decide +kernel) (by decide +kernel) _ _ listed accepted
  exact ⟨selections, selected, stops⟩

end Vekst.Reports
