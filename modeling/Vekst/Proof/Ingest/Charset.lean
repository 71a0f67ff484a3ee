import Mathlib.Algebra.Order.BigOperators.Group.List
import Vekst.Ingest.Charmap

namespace Vekst.Ingest
open Regex
open Priorbank (windows1251 codePage866)

/-! ## Letters in the two pages -/

def isRussian (c : Char) : Bool := ('А' ≤ c && c ≤ 'я') || c = 'ё' || c = 'Ё'

/-- ASCII or a letter. -/
def isWritten (c : Char) : Bool := c.toNat < 0x80 || isRussian c

/-- A letter whose byte in code page 866 is no letter in Windows-1251. -/
def isTelling (c : Char) : Bool :=
  ('А' ≤ c && c ≤ 'Я') || ('а' ≤ c && c ≤ 'з') || ('й' ≤ c && c ≤ 'п')

def letterScore (r : Char) : Int :=
  if isRussian r then 1 else if 0x2500 ≤ r.toNat && r.toNat ≤ 0x25ff then -2 else 0

theorem scoreCyrillic_eq (page : UInt8 → Char) (raw : Bytes) :
    scoreCyrillic page raw = ((raw.take 8192).map fun b => letterScore (page b)).sum := by
  rw [scoreCyrillic, List.map_map]
  rfl

theorem ascii (b : UInt8) (small : b < 0x80) : windows1251 b = codePage866 b := by
  rw [windows1251, codePage866, if_pos small, if_pos small]

theorem upper_half : ∀ n < 128,
    (isWritten (windows1251 (.ofNat (n + 128))) →
      letterScore (codePage866 (.ofNat (n + 128))) ≤ letterScore (windows1251 (.ofNat (n + 128)))) ∧
    (isWritten (codePage866 (.ofNat (n + 128))) →
      letterScore (windows1251 (.ofNat (n + 128))) ≤ letterScore (codePage866 (.ofNat (n + 128)))) ∧
    (isTelling (codePage866 (.ofNat (n + 128))) →
      letterScore (windows1251 (.ofNat (n + 128))) <
        letterScore (codePage866 (.ofNat (n + 128)))) := by
  decide +kernel

theorem halves (b : UInt8) : b < 0x80 ∨ ∃ n < 128, b = .ofNat (n + 128) := by
  by_cases small : b < 0x80
  · exact .inl small
  · have large : 128 ≤ b.toNat := Nat.le_of_not_lt fun less => small (UInt8.lt_iff_toNat_lt.mpr less)
    have top := b.toNat_lt
    refine .inr ⟨b.toNat - 128, by omega, ?_⟩
    rw [Nat.sub_add_cancel large, UInt8.ofNat_toNat]

theorem windows1251_ahead {b : UInt8} (written : isWritten (windows1251 b)) :
    letterScore (codePage866 b) ≤ letterScore (windows1251 b) := by
  rcases halves b with small | ⟨n, small, rfl⟩
  · rw [ascii b small]
  · exact (upper_half n small).1 written

theorem codePage866_ahead {b : UInt8} (written : isWritten (codePage866 b)) :
    letterScore (windows1251 b) ≤ letterScore (codePage866 b) := by
  rcases halves b with small | ⟨n, small, rfl⟩
  · rw [ascii b small]
  · exact (upper_half n small).2.1 written

theorem ascii_untold : ∀ n < 128, isTelling (codePage866 (.ofNat n)) = false := by decide +kernel

theorem codePage866_tells {b : UInt8} (telling : isTelling (codePage866 b)) :
    letterScore (windows1251 b) < letterScore (codePage866 b) := by
  rcases halves b with small | ⟨n, small, rfl⟩
  · have untold := ascii_untold b.toNat (UInt8.lt_iff_toNat_lt.mp small)
    rw [UInt8.ofNat_toNat, telling] at untold
    cases untold
  · exact (upper_half n small).2.2 telling

/-! ## Encoding -/

/-- What a page's encoder writes for a character; absent where the page lacks it. -/
def encodeByte (page : UInt8 → Char) (c : Char) : Option UInt8 :=
  ((List.range 256).map UInt8.ofNat).find? (page · = c)

def encodeWith (page : UInt8 → Char) (s : Text) : Option Bytes := s.mapM (encodeByte page)

theorem decoded_of_encoded {page : UInt8 → Char} {s : Text} {raw : Bytes}
    (encoded : encodeWith page s = some raw) : raw.map page = s := by
  induction s generalizing raw with
  | nil =>
      cases encoded
      rfl
  | cons c s ih =>
      rw [encodeWith, List.mapM_cons] at encoded
      obtain ⟨b, first, encoded⟩ := Option.bind_eq_some_iff.mp encoded
      obtain ⟨rest, later, encoded⟩ := Option.bind_eq_some_iff.mp encoded
      cases encoded
      have same : page b = c := by simpa using List.find?_some first
      rw [List.map_cons, same, ih later]

theorem exists_encoded {page : UInt8 → Char} {s : Text} (covered : ∀ c ∈ s, ∃ b, page b = c) :
    ∃ raw, encodeWith page s = some raw := by
  induction s with
  | nil => exact ⟨[], rfl⟩
  | cons c s ih =>
      obtain ⟨b, same⟩ := covered c List.mem_cons_self
      obtain ⟨rest, later⟩ := ih fun d member => covered d (List.mem_cons_of_mem c member)
      have listed : b ∈ (List.range 256).map UInt8.ofNat :=
        List.mem_map.mpr ⟨b.toNat, List.mem_range.mpr b.toNat_lt, UInt8.ofNat_toNat⟩
      cases found : encodeByte page c with
      | none => exact absurd (decide_eq_true same) (List.find?_eq_none.mp found b listed)
      | some b =>
          refine ⟨b :: rest, ?_⟩
          rw [encodeWith, List.mapM_cons, found]
          exact Option.bind_eq_some_iff.mpr ⟨b, rfl, Option.bind_eq_some_iff.mpr ⟨rest, later, rfl⟩⟩

theorem russian_cases {c : Char} (russian : isRussian c) :
    (∃ n < 64, c = Char.ofNat (n + 0x410)) ∨ c = 'ё' ∨ c = 'Ё' := by
  simp only [isRussian, Bool.or_eq_true, Bool.and_eq_true, decide_eq_true_eq] at russian
  rcases russian with (⟨least, most⟩ | yo) | yo
  · have low : 0x410 ≤ c.toNat := UInt32.le_iff_toNat_le.mp least
    have high : c.toNat ≤ 0x44f := UInt32.le_iff_toNat_le.mp most
    refine .inl ⟨c.toNat - 0x410, by omega, ?_⟩
    rw [Nat.sub_add_cancel low, Char.ofNat_toNat]
  · exact .inr (.inl yo)
  · exact .inr (.inr yo)

theorem ascii_cases {c : Char} (written : isWritten c) : (∃ n < 128, c = Char.ofNat n) ∨ isRussian c := by
  rcases Bool.or_eq_true _ _ ▸ written with small | russian
  · exact .inl ⟨c.toNat, of_decide_eq_true small, (Char.ofNat_toNat c).symm⟩
  · exact .inr russian

theorem ascii_byte : ∀ n < 128, windows1251 (.ofNat n) = Char.ofNat n := by decide +kernel

theorem letter_byte : ∀ n < 64, windows1251 (.ofNat (n + 0xc0)) = Char.ofNat (n + 0x410) ∧
    codePage866 (.ofNat (if n < 48 then n + 0x80 else n - 48 + 0xe0)) = Char.ofNat (n + 0x410) := by
  decide +kernel

/-- Both pages have ASCII and the letters. -/
theorem covered {c : Char} (written : isWritten c) :
    (∃ b, windows1251 b = c) ∧ ∃ b, codePage866 b = c := by
  rcases ascii_cases written with ⟨n, small, rfl⟩ | russian
  · have low : UInt8.ofNat n < 0x80 := by
      rw [UInt8.lt_iff_toNat_lt, UInt8.toNat_ofNat']
      exact (Nat.mod_le _ _).trans_lt small
    exact ⟨⟨_, ascii_byte n small⟩, _, (ascii _ low).symm.trans (ascii_byte n small)⟩
  · rcases russian_cases russian with ⟨n, small, same⟩ | same | same
    · rw [same]
      exact ⟨⟨_, (letter_byte n small).1⟩, _, (letter_byte n small).2⟩
    · rw [same]
      exact ⟨⟨0xb8, by decide +kernel⟩, 0xf1, by decide +kernel⟩
    · rw [same]
      exact ⟨⟨0xa8, by decide +kernel⟩, 0xf0, by decide +kernel⟩

/-! ## Detection -/

/-- A text of one page is that page's, as soon as its bytes are no UTF-8, and comes back whole. -/
def Recognised (page : UInt8 → Char) (charset : String) (s : Text) : Prop :=
  (∀ c ∈ s, isWritten c) → (∃ c ∈ s.take 8192, isTelling c) → ∃ raw, encodeWith page s = some raw ∧
    (Utf8.valid raw = false → detectCharset charmaps raw = charset ∧
      decode charmaps raw (detectCharset charmaps raw) = some s)

/-- A text in UTF-8 comes back without the mark at its beginning. -/
def RecognisedUnicode (s : Text) (raw : Bytes) : Prop :=
  detectCharset charmaps raw = Charset.utf8 ∧
    decode charmaps raw (detectCharset charmaps raw) = some s

def withoutMark (s : Text) : Text := if s.head? = some '\ufeff' then s.tail else s

theorem unmarked {page : UInt8 → Char} {s : Text} {raw : Bytes} (decoded : raw.map page = s)
    (foreign : isWritten (page 0xbb) = false) (written : ∀ c ∈ s, isWritten c) :
    utf8BOM.isPrefixOf raw = false := by
  rw [Bool.eq_false_iff]
  intro marked
  obtain ⟨rest, rfl⟩ := List.isPrefixOf_iff_prefix.mp marked
  have member : page 0xbb ∈ s := by
    rw [← decoded]
    exact List.mem_map_of_mem (by simp [utf8BOM])
  rw [written _ member] at foreign
  cases foreign

theorem decode_windows1251 (raw : Bytes) :
    decode charmaps raw Charset.windows1251 = some (raw.map windows1251) := by
  rw [decode, if_neg (by decide), if_pos rfl]
  rfl

theorem decode_cp866 (raw : Bytes) :
    decode charmaps raw Charset.cp866 = some (raw.map codePage866) := by
  rw [decode, if_neg (by decide), if_neg (by decide), if_pos rfl]
  rfl

theorem recognised_windows1251 (s : Text) : Recognised windows1251 Charset.windows1251 s := by
  intro written telling
  obtain ⟨raw, encoded⟩ := exists_encoded fun c member => (covered (written c member)).1
  have decoded := decoded_of_encoded encoded
  refine ⟨raw, encoded, fun invalid => ?_⟩
  have unmarked := unmarked decoded (by decide +kernel) written
  have ahead : scoreCyrillic codePage866 raw ≤ scoreCyrillic windows1251 raw := by
    rw [scoreCyrillic_eq, scoreCyrillic_eq]
    refine List.sum_le_sum fun b member => windows1251_ahead (written _ ?_)
    rw [← decoded]
    exact List.mem_map_of_mem (List.mem_of_mem_take member)
  have found : detectCharset charmaps raw = Charset.windows1251 := by
    simp [detectCharset, charmaps, unmarked, invalid, ahead]
  rw [found, decode_windows1251, decoded]
  exact ⟨rfl, rfl⟩

theorem recognised_cp866 (s : Text) : Recognised codePage866 Charset.cp866 s := by
  intro written telling
  obtain ⟨raw, encoded⟩ := exists_encoded fun c member => (covered (written c member)).2
  have decoded := decoded_of_encoded encoded
  refine ⟨raw, encoded, fun invalid => ?_⟩
  have unmarked := unmarked decoded (by decide +kernel) written
  have sample : (raw.take 8192).map codePage866 = s.take 8192 := by rw [List.map_take, decoded]
  -- One letter in the sample that the other page does not read as a letter breaks the tie.
  have ahead : scoreCyrillic windows1251 raw < scoreCyrillic codePage866 raw := by
    rw [scoreCyrillic_eq, scoreCyrillic_eq]
    refine List.sum_lt_sum _ _ (fun b member => codePage866_ahead (written _ ?_)) ?_
    · rw [← decoded]
      exact List.mem_map_of_mem (List.mem_of_mem_take member)
    · obtain ⟨c, member, tells⟩ := telling
      rw [← sample] at member
      obtain ⟨b, listed, rfl⟩ := List.mem_map.mp member
      exact ⟨b, listed, codePage866_tells tells⟩
  have found : detectCharset charmaps raw = Charset.cp866 := by
    simp [detectCharset, charmaps, unmarked, invalid, not_le.mpr ahead]
  rw [found, decode_cp866, decoded]
  exact ⟨rfl, rfl⟩

example : detectCharset charmaps [0x81, 0xa0, 0xad, 0xaa] = Charset.cp866 := by decide +kernel

/-! ## UTF-8 -/

theorem utf8BOM_eq : utf8BOM = String.utf8EncodeChar '\ufeff' := by decide

theorem decode_utf8 (raw : Bytes) : decode charmaps raw Charset.utf8 =
    some (Utf8.text (if utf8BOM.isPrefixOf raw then raw.drop 3 else raw)) := if_pos rfl

theorem recognised_unmarked (s : Text) :
    RecognisedUnicode (withoutMark s) (Utf8.encode s) := by
  have valid : charmaps.utf8Valid (Utf8.encode s) := Utf8.valid_encode s
  have found : detectCharset charmaps (Utf8.encode s) = Charset.utf8 := by
    simp [detectCharset, valid]
  refine ⟨found, ?_⟩
  rw [found, decode_utf8]
  split
  case isTrue marked =>
    obtain ⟨rest, parts⟩ := List.isPrefixOf_iff_prefix.mp marked
    have text := congrArg Utf8.text parts
    rw [utf8BOM_eq, Utf8.text_append, Utf8.text_encode] at text
    have rest_ : Utf8.encode s = String.utf8EncodeChar '\ufeff' ++ rest := by
      rw [← parts, utf8BOM_eq]
    have tail : withoutMark s = Utf8.text rest := by
      rw [← text]
      rfl
    rw [rest_, tail]
    rfl
  case isFalse unmarked =>
    rw [Utf8.text_encode, withoutMark, if_neg]
    intro head
    obtain ⟨rest, rfl⟩ := List.head?_eq_some_iff.mp head
    refine unmarked (List.isPrefixOf_iff_prefix.mpr ?_)
    rw [utf8BOM_eq]
    exact List.prefix_append _ _

theorem recognised_marked (s : Text) : RecognisedUnicode s (utf8BOM ++ Utf8.encode s) := by
  have marked : utf8BOM.isPrefixOf (utf8BOM ++ Utf8.encode s) :=
    List.isPrefixOf_iff_prefix.mpr (List.prefix_append _ _)
  have found : detectCharset charmaps (utf8BOM ++ Utf8.encode s) = Charset.utf8 := by
    simp [detectCharset, marked]
  refine ⟨found, ?_⟩
  rw [found, decode_utf8, if_pos marked]
  exact congrArg some (Utf8.text_encode s)

/-- What a file's charset is taken for, whatever Russian or other text it holds. -/
theorem charset_recognised (s : Text) :
    Recognised windows1251 Charset.windows1251 s ∧ Recognised codePage866 Charset.cp866 s ∧
      RecognisedUnicode (withoutMark s) (Utf8.encode s) ∧
      RecognisedUnicode s (utf8BOM ++ Utf8.encode s) :=
  ⟨recognised_windows1251 s, recognised_cp866 s, recognised_unmarked s, recognised_marked s⟩

end Vekst.Ingest
