import Vekst.Ingest.Charmap
import Vekst.Ingest.Priorbank

namespace Vekst.Ingest.Priorbank
open Regex

/-! ## The charset of a file and of its first bytes -/

/-- The name of the bank and the header, in a text. -/
def Named (text : Text) : Prop := "Приорбанк".toList <:+: text ∧ "Дата док".toList <:+: text

/-- The first bytes hold both in the charset that the whole file is read in. -/
def NamedWithin (raw : Bytes) : Prop :=
  ∃ text, decode charmaps (raw.take 4096) (detectCharset charmaps raw) = some text ∧ Named text

/-- The file is claimed, and its beginning is read in the charset that the whole is read in. -/
def Agrees (raw : Bytes) : Prop :=
  detect charmaps raw ∧ detectCharset charmaps (raw.take 4096) = detectCharset charmaps raw

/-- Whether the letters of Windows-1251 are at least as many, against the box drawing. -/
def prefersWindows1251 (raw : Bytes) : Bool :=
  scoreCyrillic codePage866 raw ≤ scoreCyrillic windows1251 raw

/-- No character of UTF-8 ends behind the cut, and neither page gains on the other behind it. -/
def CutsCleanly (raw : Bytes) : Prop :=
  raw.length ≤ 4096 ∨ utf8BOM <+: raw ∨
    (Utf8.valid (raw.take 4096) = Utf8.valid raw ∧ (Utf8.valid raw = false →
      prefersWindows1251 (raw.take 4096) = prefersWindows1251 raw))

def charsetFor (valid prefers : Bool) : String :=
  if valid then Charset.utf8 else if prefers then Charset.windows1251 else Charset.cp866

theorem charsetFor_eq_iff : ∀ valid prefers valid' prefers' : Bool,
    charsetFor valid prefers = charsetFor valid' prefers' ↔
      valid = valid' ∧ (valid' = false → prefers = prefers') := by decide

theorem detectCharset_marked {raw : Bytes} (marked : utf8BOM <+: raw) :
    detectCharset charmaps raw = Charset.utf8 := by
  simp [detectCharset, List.isPrefixOf_iff_prefix.mpr marked]

theorem detectCharset_unmarked {raw : Bytes} (unmarked : ¬ utf8BOM <+: raw) :
    detectCharset charmaps raw = charsetFor (Utf8.valid raw) (prefersWindows1251 raw) := by
  rw [← List.isPrefixOf_iff_prefix, Bool.not_eq_true] at unmarked
  simp only [detectCharset, charsetFor, prefersWindows1251, unmarked, Bool.false_or, decide_eq_true_eq]
  rfl

theorem marked_take {raw : Bytes} : utf8BOM <+: raw.take 4096 ↔ utf8BOM <+: raw := by
  constructor
  · intro inside
    exact inside.trans (List.take_prefix _ _)
  · intro inside
    exact List.prefix_take_iff.mpr ⟨inside, by decide⟩

/-- The beginning is read in the charset of the whole just where the cut changes nothing. -/
theorem detectCharset_take_iff (raw : Bytes) :
    detectCharset charmaps (raw.take 4096) = detectCharset charmaps raw ↔ CutsCleanly raw := by
  by_cases short : raw.length ≤ 4096
  · rw [List.take_of_length_le short]
    exact ⟨fun _ => .inl short, fun _ => rfl⟩
  · by_cases mark : utf8BOM <+: raw
    · rw [detectCharset_marked mark, detectCharset_marked (marked_take.mpr mark)]
      exact ⟨fun _ => .inr (.inl mark), fun _ => rfl⟩
    · rw [detectCharset_unmarked mark, detectCharset_unmarked (marked_take.not.mpr mark),
        charsetFor_eq_iff]
      unfold CutsCleanly
      rw [or_iff_right short, or_iff_right mark]

theorem detect_eq_true_iff (raw : Bytes) : detect charmaps raw ↔ ∃ text,
    decode charmaps (raw.take 4096) (detectCharset charmaps (raw.take 4096)) = some text ∧
      Named text := by
  unfold detect
  dsimp only
  cases decode charmaps (raw.take 4096) (detectCharset charmaps (raw.take 4096)) with
  | none => simp
  | some text =>
      dsimp only
      rw [Bool.and_eq_true, decide_eq_true_eq, decide_eq_true_eq]
      constructor
      · exact fun named => ⟨text, rfl, named⟩
      · rintro ⟨_, same, named⟩
        cases same
        exact named

/-- A file that names the bank and the header in its first bytes is claimed, and read in one
charset, just where the cut changes nothing. -/
theorem detection_agrees_iff (raw : Bytes) (named : NamedWithin raw) :
    Agrees raw ↔ CutsCleanly raw := by
  rw [← detectCharset_take_iff]
  constructor
  · exact And.right
  · intro same
    refine ⟨(detect_eq_true_iff raw).mpr ?_, same⟩
    rw [same]
    exact named

/-! ## A letter at the end of the first bytes -/

theorem decode_utf8 (raw : Bytes) (unmarked : ¬ utf8BOM <+: raw) :
    decode charmaps raw Charset.utf8 = some (Utf8.text raw) := by
  rw [← List.isPrefixOf_iff_prefix] at unmarked
  rw [decode, if_pos rfl, if_neg unmarked]
  rfl

/-- The name, the header and something behind them, in UTF-8. -/
def statementOf (rest : Text) : Text := "Приорбанк".toList ++ '\n' :: ("Дата док".toList ++ rest)

theorem unmarked_statement (rest : Text) (more : Bytes) :
    ¬ utf8BOM <+: Utf8.encode (statementOf rest) ++ more := by
  rintro ⟨later, same⟩
  have first := congrArg List.head? same
  have name : (Utf8.encode (statementOf rest) ++ more).head? = some 0xd0 := rfl
  rw [name] at first
  exact absurd first (by simp [utf8BOM])

theorem named_statement (rest : Text) (more : Bytes) :
    Named (Utf8.text (Utf8.encode (statementOf rest) ++ more)) := by
  rw [Utf8.text_encode_append]
  unfold Named statementOf
  generalize "Приорбанк".toList = name
  generalize "Дата док".toList = header
  exact ⟨⟨[], '\n' :: (header ++ rest) ++ Utf8.text more, by simp⟩,
    ⟨name ++ ['\n'], rest ++ Utf8.text more, by simp⟩⟩

theorem namedWithin_statement (rest : Text) (more tail : Bytes)
    (cut : (Utf8.encode (statementOf rest) ++ more).take 4096 = Utf8.encode (statementOf rest) ++ tail)
    (valid : Utf8.valid more) : NamedWithin (Utf8.encode (statementOf rest) ++ more) := by
  have whole : Utf8.valid (Utf8.encode (statementOf rest) ++ more) := (Utf8.valid_append _).mpr valid
  refine ⟨_, ?_, named_statement rest tail⟩
  rw [detectCharset_unmarked (unmarked_statement rest more), whole, cut]
  exact decode_utf8 _ (unmarked_statement rest tail)

theorem detection_agrees_sample : Agrees (Utf8.encode (statementOf []) ++ []) ↔
    CutsCleanly (Utf8.encode (statementOf []) ++ []) :=
  detection_agrees_iff _ (namedWithin_statement [] [] [] (by decide +kernel) (by decide +kernel))

/-- So many letters that one byte is left for the last. -/
def filler : Text := List.replicate 4061 'A'

theorem length_encode_replicate (n : Nat) : (Utf8.encode (List.replicate n 'A')).length = n := by
  induction n with
  | zero => rfl
  | succ n ih =>
      have one : (String.utf8EncodeChar 'A').length = 1 := by decide
      rw [List.replicate_succ, Utf8.encode_cons, List.length_append, ih, one, Nat.add_comm]

theorem length_filled : (Utf8.encode (statementOf filler)).length = 4095 := by
  have front : (Utf8.encode (statementOf [])).length = 34 := by decide +kernel
  have parts : statementOf filler = statementOf [] ++ filler := by
    unfold statementOf
    generalize "Приорбанк".toList = name
    generalize "Дата док".toList = header
    simp
  rw [parts, Utf8.encode_append, List.length_append, front, filler, length_encode_replicate]

theorem take_filled (more : Bytes) : (Utf8.encode (statementOf filler) ++ more).take 4096 =
    Utf8.encode (statementOf filler) ++ more.take 1 := by
  rw [List.take_append, length_filled, List.take_of_length_le (by rw [length_filled]; decide)]

/-- The first byte of the last letter is the last of the first bytes. -/
theorem cut_letter_changes_charset : ¬ ∀ raw, NamedWithin raw → Agrees raw := by
  intro agrees
  have named := namedWithin_statement filler [0xd1, 0x8f] [0xd1] (take_filled _) (by decide +kernel)
  have clean := (detectCharset_take_iff _).mp (agrees _ named).2
  have whole : Utf8.valid (Utf8.encode (statementOf filler) ++ [0xd1, 0x8f]) :=
    (Utf8.valid_append _).mpr (by decide +kernel)
  rcases clean with short | marked | ⟨same, _⟩
  · rw [List.length_append, length_filled] at short
    exact absurd short (by decide)
  · exact unmarked_statement _ _ marked
  · rw [whole, take_filled] at same
    exact absurd ((Utf8.valid_append _).mp same) (by decide +kernel)

end Vekst.Ingest.Priorbank
