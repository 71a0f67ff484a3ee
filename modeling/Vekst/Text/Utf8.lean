import Mathlib.Data.List.Basic
import Mathlib.Tactic.SplitIfs

namespace Utf8

/-! ## UTF-8 over lists of bytes -/

abbrev Text := List Char

def encode (s : Text) : List UInt8 := s.flatMap String.utf8EncodeChar

/-- The character that the bytes begin with. -/
def first (bytes : List UInt8) : Option Char := bytes.toByteArray.utf8DecodeChar? 0

def valid (bytes : List UInt8) : Bool := bytes.toByteArray.validateUTF8

/-- The characters of the bytes behind so many that belong to one already; a byte that belongs to
none is a replacement character. -/
def textFrom : Nat → List UInt8 → Text
  | _, [] => []
  | skip + 1, _ :: rest => textFrom skip rest
  | 0, b :: rest => match first (b :: rest) with
      | some c => c :: textFrom (c.utf8Size - 1) rest
      | none => '\ufffd' :: textFrom 0 rest

def text (bytes : List UInt8) : Text := textFrom 0 bytes

variable {bytes rest : List UInt8} {c : Char} {s : Text}

@[simp] theorem encode_nil : encode [] = [] := rfl

@[simp] theorem encode_cons : encode (c :: s) = String.utf8EncodeChar c ++ encode s := rfl

theorem encode_append (s t : Text) : encode (s ++ t) = encode s ++ encode t := List.flatMap_append

theorem first_append : first (String.utf8EncodeChar c ++ rest) = some c := by
  unfold first
  rw [List.toByteArray_append]
  exact ByteArray.utf8DecodeChar?_utf8EncodeChar_append

theorem eq_of_first (found : first bytes = some c) :
    ∃ rest, bytes = String.utf8EncodeChar c ++ rest := by
  obtain ⟨later, parts⟩ := ByteArray.exists_of_utf8DecodeChar?_eq_some found
  refine ⟨later.data.toList, ?_⟩
  have whole : later = later.data.toList.toByteArray := by
    apply ByteArray.ext
    rw [List.data_toByteArray, Array.toArray_toList]
  rw [whole, ← List.toByteArray_append, List.toByteArray_inj] at parts
  exact parts

theorem valid_iff : valid bytes ↔ ∃ s, bytes = encode s := by
  unfold valid
  rw [ByteArray.validateUTF8_eq_true_iff]
  constructor
  · rintro ⟨s, same⟩
    exact ⟨s, List.toByteArray_inj.mp same⟩
  · rintro ⟨s, rfl⟩
    exact ⟨s, rfl⟩

theorem valid_encode (s : Text) : valid (encode s) := valid_iff.mpr ⟨s, rfl⟩

/-! ## The text of bytes -/

theorem textFrom_append (bytes rest : List UInt8) :
    textFrom bytes.length (bytes ++ rest) = textFrom 0 rest := by
  induction bytes with
  | nil => rfl
  | cons b bytes ih => exact ih

theorem text_append : text (String.utf8EncodeChar c ++ rest) = c :: text rest := by
  cases bytes : String.utf8EncodeChar c with
  | nil => exact absurd bytes String.utf8EncodeChar_ne_nil
  | cons b later =>
      have found : first (b :: (later ++ rest)) = some c := by
        rw [← List.cons_append, ← bytes]
        exact first_append
      have size : c.utf8Size - 1 = later.length := by
        rw [← String.length_utf8EncodeChar, bytes]
        rfl
      rw [List.cons_append, text, textFrom, found]
      dsimp only
      rw [size, textFrom_append]
      rfl

@[simp] theorem text_encode (s : Text) : text (encode s) = s := by
  induction s with
  | nil => rfl
  | cons c s ih => rw [encode_cons, text_append, ih]

theorem text_encode_append (s : Text) : text (encode s ++ rest) = s ++ text rest := by
  induction s with
  | nil => rfl
  | cons c s ih => rw [encode_cons, List.append_assoc, text_append, ih, List.cons_append]

/-- From the left: the bytes of a character, or a byte that belongs to none. -/
theorem text_cases (bytes : List UInt8) : bytes = [] ∨
    (∃ c rest, bytes = String.utf8EncodeChar c ++ rest ∧ text bytes = c :: text rest) ∨
    ∃ b rest, bytes = b :: rest ∧ first bytes = none ∧ text bytes = '\ufffd' :: text rest := by
  cases bytes with
  | nil => exact .inl rfl
  | cons b rest =>
      right
      cases found : first (b :: rest) with
      | some c =>
          obtain ⟨later, parts⟩ := eq_of_first found
          refine .inl ⟨c, later, parts, ?_⟩
          rw [parts]
          exact text_append
      | none =>
          refine .inr ⟨b, rest, rfl, rfl, ?_⟩
          rw [text, textFrom, found]
          rfl

theorem text_induction {P : List UInt8 → Text → Prop} (nil : P [] [])
    (char : ∀ c rest, P rest (text rest) → P (String.utf8EncodeChar c ++ rest) (c :: text rest))
    (stray : ∀ b rest, first (b :: rest) = none → P rest (text rest) →
      P (b :: rest) ('\ufffd' :: text rest)) (bytes : List UInt8) : P bytes (text bytes) := by
  induction length : bytes.length using Nat.strongRecOn generalizing bytes with
  | ind n ih =>
      subst length
      rcases text_cases bytes with rfl | ⟨c, rest, rfl, written⟩ | ⟨b, rest, rfl, missed, written⟩
      · exact nil
      · rw [written]
        refine char c rest (ih rest.length ?_ rest rfl)
        rw [List.length_append, String.length_utf8EncodeChar]
        exact Nat.lt_add_of_pos_left c.utf8Size_pos
      · rw [written]
        exact stray b rest missed (ih rest.length (Nat.lt_succ_self _) rest rfl)

theorem eq_nil_of_text (none_ : text bytes = []) : bytes = [] := by
  rcases text_cases bytes with empty | ⟨c, rest, _, written⟩ | ⟨b, rest, _, _, written⟩
  · exact empty
  · rw [written] at none_
    cases none_
  · rw [written] at none_
    cases none_

/-- A stray byte makes the text longer than the bytes are. -/
theorem length_encode_text (bytes : List UInt8) :
    bytes.length ≤ (encode (text bytes)).length ∧
      ((encode (text bytes)).length = bytes.length → encode (text bytes) = bytes) := by
  induction bytes using text_induction with
  | nil => simp
  | char c rest ih =>
      rw [encode_cons, List.length_append, List.length_append]
      refine ⟨Nat.add_le_add_left ih.1 _, fun same => ?_⟩
      rw [ih.2 (Nat.add_left_cancel same)]
  | stray b rest missed ih =>
      have wide : (String.utf8EncodeChar '\ufffd').length = 3 := by decide
      rw [encode_cons, List.length_append, wide, List.length_cons]
      omega

theorem valid_iff_encode_text : valid bytes ↔ encode (text bytes) = bytes := by
  rw [valid_iff]
  constructor
  · rintro ⟨s, rfl⟩
    rw [text_encode]
  · intro same
    exact ⟨text bytes, same.symm⟩

theorem valid_append (s : Text) : valid (encode s ++ rest) ↔ valid rest := by
  rw [valid_iff_encode_text, valid_iff_encode_text, text_encode_append, encode_append,
    List.append_cancel_left_eq]

/-! ## U+0000 -/

theorem mem_utf8EncodeChar : 0 ∈ String.utf8EncodeChar c ↔ c = '\x00' := by
  constructor
  · intro member
    have value : c.val.toNat = 0 := by
      simp only [String.utf8EncodeChar] at member
      split_ifs at member
      all_goals
        simp only [List.mem_cons, List.not_mem_nil, or_false, ← UInt8.toNat_inj,
          UInt8.toNat_ofNat', UInt8.toNat_zero] at member
        omega
    exact Char.ext (UInt32.toNat_inj.mp value)
  · rintro rfl
    decide

theorem mem_encode : 0 ∈ encode s ↔ '\x00' ∈ s := by
  simp [encode, mem_utf8EncodeChar]

theorem mem_of_mem_text (member : '\x00' ∈ text bytes) : 0 ∈ bytes := by
  induction bytes using text_induction with
  | nil => cases member
  | char c rest ih =>
      rcases List.mem_cons.mp member with rfl | later
      · exact List.mem_append_left _ (mem_utf8EncodeChar.mpr rfl)
      · exact List.mem_append_right _ (ih later)
  | stray b rest missed ih =>
      rcases List.mem_cons.mp member with same | later
      · exact absurd same (by decide)
      · exact List.mem_cons_of_mem _ (ih later)

end Utf8
