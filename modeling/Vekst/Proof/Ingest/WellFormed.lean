import Vekst.Ingest.Stages
import Vekst.Proof.Ingest.MapOrder

namespace Vekst.Ingest.Priorbank
open Regex Ledger

/-! ## What a parsed statement looks like, whatever the file -/

/-- What the tables ask of a statement beside its characters. -/
structure WellFormed (st : Statement) : Prop where
  lines : (st.rows.map (·.lineNo)).Pairwise (· < ·)
  numbered : ∀ r ∈ st.rows, 0 < r.lineNo
  currency : isCurrencyShape st.currency
  account : st.account ≠ [] → ∃ c ∈ st.account, c ≠ ' '
  holder : st.holder ≠ [] → ∃ c ∈ st.holder, c ≠ ' '

/-! ## Groups -/

variable {before inside after : Pattern} {s x rest : Text} {p : Char → Bool}

theorem group_some (found : group before inside after s = some (x, rest)) :
    ∃ n m, m ∈ inside.lengths (s.take n).reverse (s.drop n) ∧ x = (s.drop n).take m := by
  obtain ⟨n, _, found⟩ := List.exists_of_findSome?_eq_some found
  obtain ⟨m, matched, found⟩ := List.exists_of_findSome?_eq_some found
  split at found
  · cases found
  · cases found
    exact ⟨n, m, matched, rfl⟩

theorem group_many (found : group before (.many p 1) after s = some (x, rest)) :
    ∃ c ∈ x, p c := by
  obtain ⟨n, m, matched, rfl⟩ := group_some found
  rw [Pattern.lengths_many] at matched
  obtain ⟨short, least⟩ := List.mem_filter.mp matched
  rw [List.mem_reverse, List.mem_range] at short
  have least := of_decide_eq_true least
  cases opens : s.drop n with
  | nil =>
      rw [opens, List.takeWhile_nil, List.length_nil] at short
      omega
  | cons c later =>
      have holds : p c := by
        by_contra other
        rw [opens, List.takeWhile_cons_of_neg other, List.length_nil] at short
        omega
      obtain ⟨m, rfl⟩ := Nat.exists_eq_add_of_le' least
      rw [List.take_succ_cons]
      exact ⟨c, List.mem_cons_self, holds⟩

theorem lengths_times {n m : Nat} {behind s : Text}
    (matched : m ∈ (times n (.set p)).lengths behind s) :
    m = n ∧ n ≤ s.length ∧ ∀ c ∈ s.take n, p c := by
  induction n generalizing m behind s with
  | zero =>
      obtain rfl := List.mem_singleton.mp matched
      simp
  | succ n ih =>
      have split_ : times (n + 1) (.set p) = .seq (.set p) (times n (.set p)) := rfl
      rw [split_, Pattern.lengths_seq] at matched
      obtain ⟨one, first, later⟩ := List.mem_flatMap.mp matched
      cases s with
      | nil => cases first
      | cons c s =>
          rw [Pattern.lengths_set_cons] at first
          split at first
          next found =>
            obtain rfl := List.mem_singleton.mp first
            obtain ⟨k, tail, rfl⟩ := List.mem_map.mp later
            obtain ⟨rfl, fits, all⟩ := ih tail
            refine ⟨Nat.add_comm 1 k, Nat.succ_le_succ fits, ?_⟩
            rw [List.take_succ_cons, List.forall_mem_cons]
            exact ⟨found, all⟩
          next => cases first

/-! ## Currencies -/

theorem isCurrencyShape_ofList {code : Text} (length : code.length = 3)
    (capitals : ∀ c ∈ code, isUpperASCII c) : isCurrencyShape (String.ofList code) := by
  have all : code.all (fun c => 'A' ≤ c && c ≤ 'Z') = true := List.all_eq_true.mpr capitals
  simp [isCurrencyShape, length, all]

theorem shape_of_group (found : group before (times 3 (.set isUpperASCII)) after s = some (x, rest)) :
    isCurrencyShape (String.ofList x) := by
  obtain ⟨n, m, matched, rfl⟩ := group_some found
  obtain ⟨rfl, fits, all⟩ := lengths_times matched
  exact isCurrencyShape_ofList (List.length_take_of_le fits) all

theorem shape_of_cell {c : Text} (found : matchString currencyCell c) :
    isCurrencyShape (String.ofList c) := by
  have parts : currencyCell = .seq .start (.seq (times 3 (.set isUpperASCII)) (.seq .finish .empty)) :=
    rfl
  obtain ⟨n, matched⟩ := Option.isSome_iff_exists.mp found
  have whole := List.mem_of_mem_head? matched
  rw [parts, Pattern.lengths_seq] at whole
  obtain ⟨_, opened, whole⟩ := List.mem_flatMap.mp whole
  obtain rfl := List.mem_singleton.mp opened
  obtain ⟨_, body, -⟩ := List.mem_map.mp whole
  rw [Pattern.lengths_seq] at body
  obtain ⟨_, inside, body⟩ := List.mem_flatMap.mp body
  obtain ⟨_, closed, -⟩ := List.mem_map.mp body
  obtain ⟨rfl, fits, all⟩ := lengths_times inside
  rw [Pattern.lengths_seq] at closed
  obtain ⟨_, ended, _⟩ := List.mem_flatMap.mp closed
  have none_left : c.drop 3 = [] := by
    rw [List.drop_zero, Pattern.lengths] at ended
    split at ended
    next empty => exact List.isEmpty_iff.mp empty
    next => cases ended
  have length : c.length = 3 := Nat.le_antisymm (List.drop_eq_nil_iff.mp none_left) fits
  rw [List.drop_zero, List.take_of_length_le length.le] at all
  exact isCurrencyShape_ofList length all

theorem shape_of_summary {rec_ : List Text} (some_ : currencyFromSummary rec_ ≠ []) :
    isCurrencyShape (String.ofList (currencyFromSummary rec_)) := by
  unfold currencyFromSummary at some_ ⊢
  cases found : (rec_.map trimSpace).find? (matchString currencyCell) with
  | none => simp [found] at some_
  | some c => exact shape_of_cell (List.find?_some found)

/-! ## Records -/

variable {layout : Layout} {order : Order} {st st' : Statement}

/-- What a record may change of a statement. -/
theorem readRecord_step {lineNo : Nat} {rec_ : List Text}
    (read : readRecord layout order st (lineNo, rec_) = some st') :
    st'.account = st.account ∧ st'.holder = st.holder ∧
      (isCurrencyShape st.currency → isCurrencyShape st'.currency) ∧
      (st'.rows = st.rows ∨ ∃ row : Row, row.lineNo = lineNo ∧ st'.rows = st.rows ++ [row]) := by
  by_cases row : isRow rec_
  · rw [readRecord_row row] at read
    obtain ⟨made, parsed, rfl⟩ := Option.map_eq_some_iff.mp read
    rw [parseRow_eq] at parsed
    obtain ⟨zero_, _, rfl⟩ := Option.map_eq_some_iff.mp parsed
    exact ⟨rfl, rfl, id, .inr ⟨_, rfl, rfl⟩⟩
  · simp only [isRow] at row
    simp only [readRecord, if_neg row] at read
    split at read
    · obtain ⟨opening, _, made⟩ := Option.bind_eq_some_iff.mp read
      cases made
      refine ⟨rfl, rfl, fun shape => ?_, .inl rfl⟩
      dsimp only
      split
      next => exact shape
      next some_ => exact shape_of_summary some_
    split at read
    · obtain ⟨closing, _, made⟩ := Option.bind_eq_some_iff.mp read
      cases made
      exact ⟨rfl, rfl, id, .inl rfl⟩
    split at read
    · obtain ⟨turnovers, _, made⟩ := Option.bind_eq_some_iff.mp read
      cases made
      exact ⟨rfl, rfl, id, .inl rfl⟩
    · cases read
      exact ⟨rfl, rfl, id, .inl rfl⟩

theorem readRecords_lines {records : List (Nat × List Text)}
    (read : records.foldlM (readRecord layout order) st = some st') :
    st'.account = st.account ∧ st'.holder = st.holder ∧
      (isCurrencyShape st.currency → isCurrencyShape st'.currency) ∧
      (st'.rows.map (·.lineNo)).Sublist (st.rows.map (·.lineNo) ++ records.map Prod.fst) := by
  induction records generalizing st with
  | nil =>
      cases read
      simp
  | cons record records ih =>
      rw [List.foldlM_cons] at read
      obtain ⟨next, step, later⟩ := Option.bind_eq_some_iff.mp read
      obtain ⟨account, holder, shape, rows⟩ := readRecord_step step
      obtain ⟨account', holder', shape', rows'⟩ := ih later
      refine ⟨account'.trans account, holder'.trans holder, fun known => shape' (shape known),
        rows'.trans ?_⟩
      rcases rows with same | ⟨row, numbered, more⟩
      · rw [same, List.map_cons]
        exact List.Sublist.append_left (List.sublist_cons_self _ _) _
      · rw [more, List.map_append, List.map_singleton, numbered, List.append_assoc]
        exact List.Sublist.refl _

/-! ## The preamble -/

/-- What the preamble knows before the records are read. -/
structure Opened (st : Statement) : Prop where
  rows : st.rows = []
  currency : st.currency ≠ "" → isCurrencyShape st.currency
  account : st.account ≠ [] → ∃ c ∈ st.account, c ≠ ' '
  holder : st.holder ≠ [] → ∃ c ∈ st.holder, c ≠ ' '

theorem trimSpace_spares {s : Text} (some_ : trimSpace s ≠ []) : ∃ c ∈ trimSpace s, c ≠ ' ' := by
  have trimmed : trimSpace s = (s.rdropWhile Scan.isSpace).dropWhile Scan.isSpace := by
    rw [dropWhile_rdropWhile]
    rfl
  rw [trimmed] at some_ ⊢
  refine ⟨_, List.head_mem some_, ?_⟩
  intro space
  have visible := List.head_dropWhile_not Scan.isSpace some_
  rw [space] at visible
  cases visible

theorem Opened.preambleLine (opened : Opened st) (rec_ : List Text) :
    Opened (preambleLine st rec_) := by
  simp only [Priorbank.preambleLine]
  split
  next account code found =>
    obtain ⟨⟨name, rest⟩, first, made⟩ := Option.map_eq_some_iff.mp found
    obtain ⟨c, member, visible⟩ := group_many first
    cases made
    refine ⟨opened.rows, fun some_ => ?_, fun _ => ⟨c, member, ?_⟩, opened.holder⟩
    · dsimp only at some_ ⊢
      split
      next none_ => rw [if_pos none_] at some_; exact opened.currency some_
      next found =>
        cases second : group (.many isRegexpSpace 1) (times 3 (.set isUpperASCII)) .empty rest with
        | none => simp [second] at found
        | some pair => exact shape_of_group second
    · rintro rfl
      cases visible
  split
  next holder found =>
    exact ⟨opened.rows, opened.currency, opened.account, trimSpace_spares⟩
  split
  next => exact ⟨opened.rows, opened.currency, opened.account, opened.holder⟩
  next => exact opened

theorem openStatement_opened {records : List (Nat × List Text)}
    (opens : openStatement records order = some (layout, st)) :
    Opened st ∧ isCurrencyShape st.currency := by
  obtain ⟨headerAt, _, opens⟩ := Option.bind_eq_some_iff.mp opens
  obtain ⟨debitAt, _, opens⟩ := Option.bind_eq_some_iff.mp opens
  obtain ⟨creditAt, _, opens⟩ := Option.bind_eq_some_iff.mp opens
  obtain ⟨zero_, _, made⟩ := Option.bind_eq_some_iff.mp opens
  cases made
  have preamble (rows : List (List Text)) (st : Statement) (opened : Opened st) :
      Opened (parsePreamble rows st) := by
    induction rows generalizing st with
    | nil => exact opened
    | cons rec_ rows ih => exact ih _ (opened.preambleLine rec_)
  have read := preamble ((records.take headerAt).map Prod.snd) emptyStatement
    ⟨rfl, fun some_ => absurd rfl some_, fun some_ => absurd rfl some_, fun some_ => absurd rfl some_⟩
  have shape : isCurrencyShape (if (parsePreamble ((records.take headerAt).map Prod.snd)
      emptyStatement).currency = "" then "BYN" else (parsePreamble
        ((records.take headerAt).map Prod.snd) emptyStatement).currency) := by
    split
    next => decide
    next some_ => exact read.currency some_
  exact ⟨⟨read.rows, fun _ => shape, read.account, read.holder⟩, shape⟩

/-! ## The lines of a file -/

theorem map_filterMap_sublist {α β γ : Type} {f : α → Option β} {g : β → γ} {key : α → γ}
    (same : ∀ a b, f a = some b → g b = key a) (items : List α) :
    ((items.filterMap f).map g).Sublist (items.map key) := by
  induction items with
  | nil => exact List.Sublist.refl _
  | cons a items ih =>
      cases found : f a with
      | none =>
          rw [List.filterMap_cons_none found]
          exact ih.cons _
      | some b =>
          rw [List.filterMap_cons_some found, List.map_cons, List.map_cons, same a b found]
          exact ih.cons_cons _

theorem lines_records (delimiter : Char) (text : Text) :
    ((Csv.records delimiter text).map Prod.fst).Sublist
      (List.range' 1 (text.splitOn '\n').length) := by
  rw [← List.zipIdx_map_snd]
  apply map_filterMap_sublist
  intro line record made
  dsimp only at made
  split at made
  · cases made
  · cases made
    rfl

theorem parseWithParams_wellFormed {enc : Encodings} {raw : Bytes} {params : Option Parameters}
    (parsed : parseWithParams enc raw params order = some st) : WellFormed st := by
  unfold parseWithParams at parsed
  split at parsed
  case isFalse => cases parsed
  obtain ⟨read, found, rfl⟩ := Option.map_eq_some_iff.mp parsed
  obtain ⟨text, _, found⟩ := Option.bind_eq_some_iff.mp found
  obtain ⟨records, split_, found⟩ := Option.bind_eq_some_iff.mp found
  obtain ⟨⟨layout, first⟩, opens, found⟩ := Option.bind_eq_some_iff.mp found
  obtain ⟨opened, shape⟩ := openStatement_opened opens
  obtain ⟨account, holder, shaped, lines⟩ := readRecords_lines found
  rw [opened.rows, List.map_nil, List.nil_append] at lines
  unfold recordsOf at split_
  split at split_
  case isTrue => cases split_
  cases split_
  have all := lines.trans (lines_records _ _)
  have increasing := List.Pairwise.sublist all (List.pairwise_lt_range' 1 Nat.zero_lt_one)
  refine ⟨increasing, fun r member => ?_, shaped shape, ?_, ?_⟩
  · have known := all.subset (List.mem_map_of_mem member)
    exact (List.mem_range'_1.mp known).1
  · dsimp only
    rw [account]
    exact opened.account
  · dsimp only
    rw [holder]
    exact opened.holder

end Vekst.Ingest.Priorbank
