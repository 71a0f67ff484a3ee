import Vekst.Ingest.Report

namespace Vekst.Ingest.Report

/-! ## What a reader of the report is promised -/

/-- The beginning of a text, cut between characters where it is longer than a report keeps. -/
def Capped (raw capped : GoString) : Prop :=
  capped.length ≤ maxRawLength ∧ (raw.length ≤ maxRawLength → capped = raw) ∧
    ∃ rest, raw = capped ++ rest ∧ Utf8.text raw = Utf8.text capped ++ Utf8.text rest

def Kept (e kept : ValidationError) : Prop :=
  kept.line = e.line ∧ kept.field = e.field ∧ kept.code = e.code ∧ Capped e.raw kept.raw

/-- The stored report says what the validation found. -/
def Faithful (result : ValidationResult) : Prop :=
  ∃ errors, parseReportJSON (buildReportJSON result) = some (errors, result.warnings) ∧
    List.Forall₂ Kept (result.errors.take maxReportedErrors) errors

/-! ## The round trip -/

def repaired (s : GoString) : GoString := Utf8.encode (Utf8.text s)

def BalanceMismatchDetail.repaired (d : BalanceMismatchDetail) : BalanceMismatchDetail :=
  { d with currency := Report.repaired d.currency }

def ValidationWarning.repaired (w : ValidationWarning) : ValidationWarning :=
  ⟨Report.repaired w.code, w.balance.map BalanceMismatchDetail.repaired⟩

def ValidationError.reported (e : ValidationError) : ValidationError :=
  ⟨e.line, repaired e.field, repaired e.code, repaired (capRaw e.raw)⟩

theorem read_detail (d : BalanceMismatchDetail) :
    BalanceMismatchDetail.read d.json = some d.repaired := by
  simp [BalanceMismatchDetail.read, BalanceMismatchDetail.json, Json.members, List.lookup_nil,
    List.lookup_cons, BalanceMismatchDetail.repaired, repaired]

theorem read_error (e : ReportError) :
    ReportError.read e.json = some ⟨e.line, repaired e.field, repaired e.code, repaired e.raw⟩ := by
  simp [ReportError.read, ReportError.json, Json.members, List.lookup_nil, List.lookup_cons,
    repaired]

theorem read_warning (w : ReportWarning) : ReportWarning.read w.json =
    some ⟨repaired w.code, w.detail.map BalanceMismatchDetail.repaired⟩ := by
  obtain ⟨code, _ | d⟩ := w
  · simp [ReportWarning.read, ReportWarning.json, Json.members, List.lookup_nil, List.lookup_cons,
      repaired, Json.readPointer]
  · have present : d.json ≠ .null := by
      unfold BalanceMismatchDetail.json
      exact Json.noConfusion
    simp [ReportWarning.read, ReportWarning.json, Json.members, List.lookup_nil, List.lookup_cons,
      repaired, Json.readPointer_ne_null present, read_detail]

theorem parse_build (result : ValidationResult) : parseReportJSON (buildReportJSON result) =
    some ((result.errors.take maxReportedErrors).map ValidationError.reported,
      result.warnings.map ValidationWarning.repaired) := by
  have cut : result.errors.take (min result.errors.length maxReportedErrors) =
      result.errors.take maxReportedErrors := by
    rw [List.take_eq_take_iff]
    omega
  simp only [parseReportJSON, buildReportJSON, cut]
  generalize result.errors.take maxReportedErrors = errors
  simp [ReportDoc.read, ReportDoc.json, Json.members, List.lookup_nil, List.lookup_cons,
    Json.readSlice_ofSlice read_error, Json.readSlice_ofSlice read_warning,
    Function.comp_def, ValidationError.reported, ValidationWarning.repaired]

/-! ## Where the report keeps what it is given -/

theorem repaired_eq_iff {s : GoString} : repaired s = s ↔ Utf8.valid s :=
  Utf8.valid_iff_encode_text.symm

theorem capRaw_eq (s : GoString) : capRaw s = s.take maxRawLength := by
  unfold capRaw
  split
  case isTrue => rfl
  case isFalse short => exact (List.take_of_length_le (Nat.not_lt.mp short)).symm

/-- A text that was cut inside a character comes back longer than the cut. -/
theorem capped_iff {raw : GoString} :
    Capped raw (repaired (capRaw raw)) ↔ Utf8.valid (raw.take maxRawLength) := by
  rw [← repaired_eq_iff, capRaw_eq]
  constructor
  · rintro ⟨short, whole, _⟩
    by_cases long : maxRawLength ≤ raw.length
    · have length : (raw.take maxRawLength).length = maxRawLength := List.length_take_of_le long
      obtain ⟨grows, same⟩ := Utf8.length_encode_text (raw.take maxRawLength)
      exact same (Nat.le_antisymm (short.trans length.ge) grows)
    · have kept : raw.take maxRawLength = raw := List.take_of_length_le (Nat.le_of_not_le long)
      rw [kept] at whole ⊢
      exact whole (Nat.le_of_not_le long)
  · intro valid
    rw [valid]
    obtain ⟨s, written⟩ := Utf8.valid_iff.mp (repaired_eq_iff.mp valid)
    refine ⟨List.length_take_le _ _, fun short => List.take_of_length_le short,
      raw.drop maxRawLength, (List.take_append_drop _ _).symm, ?_⟩
    have parts : raw = Utf8.encode s ++ raw.drop maxRawLength := by
      rw [← written, List.take_append_drop]
    rw [written, Utf8.text_encode]
    nth_rewrite 1 [parts]
    exact Utf8.text_encode_append s

theorem reported_kept_iff {e : ValidationError} : Kept e e.reported ↔
    Utf8.valid e.field ∧ Utf8.valid e.code ∧ Utf8.valid (e.raw.take maxRawLength) := by
  rw [← repaired_eq_iff, ← repaired_eq_iff, ← capped_iff]
  exact and_iff_right rfl

theorem warning_repaired_iff {w : ValidationWarning} :
    w.repaired = w ↔ Utf8.valid w.code ∧ ∀ d ∈ w.balance, Utf8.valid d.currency := by
  obtain ⟨code, _ | d⟩ := w
  · simp [ValidationWarning.repaired, ← repaired_eq_iff]
  · obtain ⟨opening, movements, closing, difference, currency⟩ := d
    simp [ValidationWarning.repaired, BalanceMismatchDetail.repaired, ← repaired_eq_iff]

/-- Texts that are UTF-8 and, of the first hundred errors, a raw text that is still UTF-8 when it
is cut. -/
def Wholesome (result : ValidationResult) : Prop :=
  (∀ e ∈ result.errors.take maxReportedErrors,
    Utf8.valid e.field ∧ Utf8.valid e.code ∧ Utf8.valid (e.raw.take maxRawLength)) ∧
  ∀ w ∈ result.warnings, Utf8.valid w.code ∧ ∀ d ∈ w.balance, Utf8.valid d.currency

/-- The report keeps what it is given just where nothing in it has to be repaired. -/
theorem faithful_iff (result : ValidationResult) : Faithful result ↔ Wholesome result := by
  have warnings : result.warnings.map ValidationWarning.repaired = result.warnings ↔
      ∀ w ∈ result.warnings, Utf8.valid w.code ∧ ∀ d ∈ w.balance, Utf8.valid d.currency := by
    nth_rewrite 2 [← List.map_id result.warnings]
    rw [List.map_inj_left]
    exact forall₂_congr fun w _ => warning_repaired_iff
  have errors : List.Forall₂ Kept (result.errors.take maxReportedErrors)
      ((result.errors.take maxReportedErrors).map ValidationError.reported) ↔
        ∀ e ∈ result.errors.take maxReportedErrors,
          Utf8.valid e.field ∧ Utf8.valid e.code ∧ Utf8.valid (e.raw.take maxRawLength) := by
    rw [List.forall₂_map_right_iff, List.forall₂_same]
    exact forall₂_congr fun e _ => reported_kept_iff
  unfold Faithful Wholesome
  rw [parse_build, ← warnings, ← errors]
  constructor
  · rintro ⟨_, parsed, kept⟩
    obtain ⟨rfl, same⟩ := Prod.mk.injEq .. ▸ Option.some.inj parsed
    exact ⟨kept, same⟩
  · rintro ⟨kept, same⟩
    exact ⟨_, by rw [same], kept⟩

/-- An amount in a hundred letters of two bytes behind a digit. -/
def lettersForAnAmount : ValidationResult where
  errors := [⟨12, Utf8.encode ['d', 'e', 'b', 'i', 't'], Utf8.encode "amount_unparseable".toList,
    49 :: (List.replicate 100 [209, 128]).flatten⟩]
  warnings := []

/-- The last letter is cut in two, and what is left of it comes back as another character. -/
theorem cut_letter_is_replaced : ¬ Faithful lettersForAnAmount := by
  rintro ⟨errors, parsed, kept⟩
  rw [parse_build] at parsed
  obtain ⟨rfl, _⟩ := Prod.mk.injEq .. ▸ Option.some.inj parsed
  cases kept with
  | cons kept _ =>
      have whole := (reported_kept_iff.mp kept).2.2
      rw [← repaired_eq_iff] at whole
      exact absurd whole (by decide +kernel)

/-! ## The reports of the validation -/

def ofText (s : String) : GoString := Utf8.encode s.toList

def ofError (e : Ingest.ValidationError) : ValidationError :=
  ⟨.ofInt e.line, ofText e.field, ofText e.code, ofText e.raw⟩

def ofWarning (w : Ingest.ValidationWarning) : ValidationWarning :=
  ⟨ofText w.code, w.balance.map fun d =>
    ⟨d.opening, d.movements, d.closing, d.difference, ofText d.currency⟩⟩

def ofResult (result : Ingest.ValidationResult) : ValidationResult :=
  ⟨result.errors.map ofError, result.warnings.map ofWarning⟩

/-- Of what the validation finds in a decoded file only the cut is in question. -/
theorem wholesome_ofResult_iff (result : Ingest.ValidationResult) : Wholesome (ofResult result) ↔
    ∀ e ∈ result.errors.take maxReportedErrors, Utf8.valid (Ingest.capRaw e.raw) := by
  have text (s : String) : Utf8.valid (ofText s) := Utf8.valid_encode s.toList
  unfold Wholesome ofResult
  simp only [← List.map_take, List.forall_mem_map, ofError, ofWarning, text, true_and,
    Option.mem_def, Option.map_eq_some_iff]
  refine and_iff_left fun w _ d found => ?_
  obtain ⟨d, _, rfl⟩ := found
  exact text d.currency

end Vekst.Ingest.Report
