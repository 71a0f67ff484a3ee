import Vekst.Ingest.Persist
import Vekst.Proof.Normalize.Description
import Vekst.Text.Join

namespace Vekst.Ledger
open Calendar Decimal

/-! ## The texts of identifiers -/

def hexDigit (c : Char) : Nat := if c.isDigit then c.toNat - 48 else c.toNat - 87

def hexValue (digits : List Char) : Nat := digits.foldl (fun n c => 16 * n + hexDigit c) 0

theorem hexDigit_digitChar : ∀ n < 16, hexDigit n.digitChar = n := by decide

theorem hexValue_toDigits (n : Nat) : hexValue (Nat.toDigits 16 n) = n := by
  induction n using Nat.strongRecOn with
  | ind n ih =>
      rw [Nat.toDigits_eq_if (by decide)]
      split
      case isTrue small =>
          simp only [hexValue, List.foldl_cons, List.foldl_nil]
          rw [hexDigit_digitChar n small, Nat.mul_zero, Nat.zero_add]
      case isFalse large =>
          have front := ih (n / 16) (Nat.div_lt_self (by omega) (by decide))
          unfold hexValue at front ⊢
          rw [List.foldl_append, front, List.foldl_cons, List.foldl_nil,
            hexDigit_digitChar _ (Nat.mod_lt n (by decide)), Nat.div_add_mod]

theorem hexValue_zeros (k : Nat) (digits : List Char) :
    hexValue (List.replicate k '0' ++ digits) = hexValue digits := by
  induction k with
  | zero => rfl
  | succ k ih => exact ih

theorem mem_toDigits {n : Nat} {c : Char} (member : c ∈ Nat.toDigits 16 n) :
    ∃ k < 16, c = Nat.digitChar k := by
  induction n using Nat.strongRecOn with
  | ind n ih =>
      rw [Nat.toDigits_eq_if (by decide)] at member
      split at member
      case isTrue small => exact ⟨n, small, List.mem_singleton.mp member⟩
      case isFalse large =>
          rcases List.mem_append.mp member with front | back
          · exact ih (n / 16) (Nat.div_lt_self (by omega) (by decide)) front
          · exact ⟨n % 16, Nat.mod_lt _ (by decide), List.mem_singleton.mp back⟩

/-- The digits of an identifier before they are grouped. -/
def hexDigits (id : UUID) : List Char := (Nat.toDigits 16 id).leftpad 32 '0'

theorem length_hexDigits {id : UUID} (wide : id < 2 ^ 128) : (hexDigits id).length = 32 := by
  have bound : (Nat.toDigits 16 id).length ≤ 32 :=
    (Nat.length_toDigits_le_iff (by decide) (by decide)).mpr (wide.trans_le (by decide))
  simp only [hexDigits, List.leftpad, List.length_append, List.length_replicate]
  omega

theorem hexValue_hexDigits (id : UUID) : hexValue (hexDigits id) = id := by
  rw [hexDigits, List.leftpad, hexValue_zeros, hexValue_toDigits]

theorem mem_hexDigits {id : UUID} {c : Char} (member : c ∈ hexDigits id) :
    ∃ k < 16, c = Nat.digitChar k := by
  rcases List.mem_append.mp member with zero | digit
  · exact ⟨0, by decide, List.eq_of_mem_replicate zero⟩
  · exact mem_toDigits digit

def hexGroups (digits : List Char) : List (List Char) :=
  [digits.take 8, (digits.drop 8).take 4, (digits.drop 12).take 4, (digits.drop 16).take 4,
    (digits.drop 20).take 12]

theorem flatten_hexGroups (digits : List Char) : (hexGroups digits).flatten = digits.take 32 := by
  have parts (n k : Nat) : digits.take n ++ (digits.drop n).take k = digits.take (n + k) :=
    List.take_add.symm
  simp only [hexGroups, List.flatten_cons, List.flatten_nil, List.append_nil]
  rw [← List.append_assoc, ← List.append_assoc, ← List.append_assoc, parts, parts, parts, parts]

theorem toList_text (id : UUID) :
    (UUID.text id).toList = ['-'].intercalate (hexGroups (hexDigits id)) := by
  rw [UUID.text, String.toList_ofList]
  rfl

theorem mem_of_mem_hexGroups {digits group : List Char} (member : group ∈ hexGroups digits)
    {c : Char} (inside : c ∈ group) : c ∈ digits := by
  rw [← List.take_append_drop 32 digits, ← flatten_hexGroups]
  exact List.mem_append_left _ (List.mem_flatten.mpr ⟨group, member, inside⟩)

theorem text_inj {a b : UUID} (aWide : a < 2 ^ 128) (bWide : b < 2 ^ 128) :
    UUID.text a = UUID.text b ↔ a = b := by
  constructor
  · intro same
    have hyphen (id : UUID) : ∀ group ∈ hexGroups (hexDigits id), '-' ∉ group := by
      intro group member inside
      obtain ⟨k, small, same⟩ := mem_hexDigits (mem_of_mem_hexGroups member inside)
      exact absurd same (by decide +revert)
    have groups : hexGroups (hexDigits a) = hexGroups (hexDigits b) := by
      rw [← List.splitOn_intercalate '-' (hyphen a) (List.cons_ne_nil _ _),
        ← List.splitOn_intercalate '-' (hyphen b) (List.cons_ne_nil _ _), ← toList_text,
        ← toList_text, same]
    have digits := congrArg List.flatten groups
    rw [flatten_hexGroups, flatten_hexGroups, List.take_of_length_le (length_hexDigits aWide).le,
      List.take_of_length_le (length_hexDigits bWide).le] at digits
    rw [← hexValue_hexDigits a, digits, hexValue_hexDigits]
  · rintro rfl
    rfl

/-! ## The texts of numbers and dates -/

theorem padded_zero (n : Nat) : padded 0 n = Nat.toDigits 10 n := by
  simp [padded, List.leftpad]

theorem toList_toString (n : Int) : (toString n).toList = paddedInt 0 n := by
  rw [Int.toString_eq_repr, Int.repr_eq_if, paddedInt]
  by_cases negative : n < 0
  · rw [if_neg (by omega), if_pos negative, String.toList_append, Nat.toList_repr, padded_zero,
      show (-n).toNat = n.natAbs by omega]
    rfl
  · rw [if_pos (by omega), if_neg negative, Nat.toList_repr, padded_zero,
      show n.toNat = n.natAbs by omega]

theorem mem_paddedInt {width : Nat} {n : Int} {c : Char} (member : c ∈ paddedInt width n) :
    c = '-' ∨ c.isDigit := by
  unfold paddedInt at member
  split at member
  · rcases List.mem_cons.mp member with sign | digit
    · exact .inl sign
    · exact .inr (isDigit_of_mem_padded digit)
  · exact .inr (isDigit_of_mem_padded member)

theorem paddedInt_injective (width : Nat) : Function.Injective (paddedInt width) := by
  have unsigned {k : Nat} {rest : List Char} : padded width k ≠ '-' :: rest := by
    intro same
    have digit : '-'.isDigit := isDigit_of_mem_padded (same ▸ List.mem_cons_self)
    exact absurd digit (by decide)
  intro n m same
  unfold paddedInt at same
  split at same <;> split at same
  case isTrue.isTrue left right =>
      have magnitude := padded_injective _ (List.cons.inj same).2
      omega
  case isTrue.isFalse => exact absurd same.symm unsigned
  case isFalse.isTrue => exact absurd same unsigned
  case isFalse.isFalse left right =>
      have magnitude := padded_injective _ same
      omega

theorem dateText_inj {d e : Date} : dateText d = dateText e ↔ d = e := by
  constructor
  · intro same
    have hyphen {n : Nat} : '-' ∉ padded 2 n :=
      fun member => absurd (isDigit_of_mem_padded member) (by decide)
    have texts := congrArg String.toList same
    simp only [dateText, String.toList_ofList] at texts
    obtain ⟨front, day⟩ := (Join.append_cons_inj hyphen hyphen).mp texts
    obtain ⟨year, month⟩ := (Join.append_cons_inj hyphen hyphen).mp front
    obtain ⟨y, m, n, _, _⟩ := d
    obtain ⟨y', m', n', _, _⟩ := e
    obtain rfl := paddedInt_injective 4 year
    obtain rfl := padded_injective 2 month
    obtain rfl := padded_injective 2 day
    rfl
  · rintro rfl
    rfl

theorem toString_inj {n m : Int} : toString n = toString m ↔ n = m := by
  rw [← String.toList_inj, toList_toString, toList_toString, (paddedInt_injective 0).eq_iff]

/-! ## No separator in them -/

abbrev separator : Char := '\x1f'

theorem separator_ne_of_isDigit {c : Char} (digit : c.isDigit) : separator ≠ c := by
  rintro rfl
  exact absurd digit (by decide)

theorem absent_text (id : UUID) : separator ∉ (UUID.text id).toList := by
  rw [toList_text]
  intro member
  rcases Join.mem_intercalate member with hyphen | ⟨group, inside, member⟩
  · exact absurd hyphen (by decide)
  · obtain ⟨k, small, same⟩ := mem_hexDigits (mem_of_mem_hexGroups inside member)
    exact absurd same (by decide +revert)

theorem absent_paddedInt (width : Nat) (n : Int) : separator ∉ paddedInt width n := by
  intro member
  rcases mem_paddedInt member with sign | digit
  · exact absurd sign (by decide)
  · exact separator_ne_of_isDigit digit rfl

theorem absent_dateText (d : Date) : separator ∉ (dateText d).toList := by
  have number (n : Nat) : separator ∉ '-' :: padded 2 n := by
    intro member
    rcases List.mem_cons.mp member with hyphen | digit
    · exact absurd hyphen (by decide)
    · exact separator_ne_of_isDigit (isDigit_of_mem_padded digit) rfl
  intro member
  rw [dateText, String.toList_ofList, List.mem_append, List.mem_append] at member
  rcases member with (year | month) | day
  · exact absent_paddedInt 4 d.year year
  · exact number _ month
  · exact number _ day

theorem absent_toString (n : Int) : separator ∉ (toString n).toList := by
  rw [toList_toString]
  exact absent_paddedInt 0 n

/-! ## The key -/

/-- The texts of the key that are free: nothing keeps the separator out of them. -/
def freeTexts (t : Transaction) : List (List Char) :=
  [t.amount.currencyCode.toList, t.descriptionNorm.toList, t.bankRef.toList, t.documentRef.toList]

def SameContent (t t' : Transaction) : Prop :=
  t.accountID = t'.accountID ∧ t.bookedOn = t'.bookedOn ∧
    t.amount.minorUnits = t'.amount.minorUnits ∧ t.amount.currencyCode = t'.amount.currencyCode ∧
    t.descriptionNorm = t'.descriptionNorm ∧ t.bankRef = t'.bankRef ∧
    t.documentRef = t'.documentRef ∧ t.postingNo = t'.postingNo

/-- What the key holds beside the free texts. -/
def SameFrame (t t' : Transaction) : Prop :=
  t.accountID = t'.accountID ∧ t.bookedOn = t'.bookedOn ∧
    t.amount.minorUnits = t'.amount.minorUnits ∧ t.postingNo = t'.postingNo

/-- The free texts are the same pieces, but a text of one ends where that of the other does not. -/
def Shifted (t t' : Transaction) : Prop :=
  SameFrame t t' ∧ Join.pieces separator (freeTexts t) = Join.pieces separator (freeTexts t') ∧
    Join.separators separator (freeTexts t) ≠ Join.separators separator (freeTexts t')

variable {t t' : Transaction}

theorem sameContent_iff : SameContent t t' ↔ SameFrame t t' ∧ freeTexts t = freeTexts t' := by
  simp only [SameContent, SameFrame, freeTexts, List.cons.injEq, String.toList_inj]
  tauto

/-- The pieces of a key are those of the free texts between the fields that have none. -/
theorem contentKey_pieces (t : Transaction) :
    (contentKey t).toList.splitOn separator =
      [(UUID.text t.accountID).toList, (dateText t.bookedOn).toList,
        (toString t.amount.minorUnits.toInt).toList] ++ Join.pieces separator (freeTexts t) ++
          [(toString t.postingNo).toList] := by
  have parts : (contentKey t).toList = [separator].intercalate
      ([(UUID.text t.accountID).toList, (dateText t.bookedOn).toList,
        (toString t.amount.minorUnits.toInt).toList] ++ freeTexts t ++
          [(toString t.postingNo).toList]) := by
    rw [contentKey, String.toList_intercalate]
    rfl
  have front : Join.pieces separator [(UUID.text t.accountID).toList, (dateText t.bookedOn).toList,
      (toString t.amount.minorUnits.toInt).toList] = _ := Join.pieces_of_absent <| by
    simp only [List.forall_mem_cons, List.not_mem_nil, false_imp_iff, implies_true, and_true]
    exact ⟨absent_text _, absent_dateText _, absent_toString _⟩
  have back : Join.pieces separator [(toString t.postingNo).toList] = _ := Join.pieces_of_absent <| by
    rw [List.forall_mem_singleton]
    exact absent_toString _
  rw [parts, Join.splitOn_intercalate (by simp), Join.pieces_append, Join.pieces_append, front, back]

theorem contentKey_eq_iff (wide : t.accountID < 2 ^ 128) (wide' : t'.accountID < 2 ^ 128) :
    contentKey t = contentKey t' ↔ SameFrame t t' ∧
      Join.pieces separator (freeTexts t) = Join.pieces separator (freeTexts t') := by
  have concat {xs ys : List (List Char)} {x y : List Char} :
      xs ++ [x] = ys ++ [y] ↔ xs = ys ∧ x = y := by
    constructor
    · intro same
      obtain ⟨front, back⟩ := List.append_inj' same rfl
      exact ⟨front, List.singleton_inj.mp back⟩
    · rintro ⟨rfl, rfl⟩
      rfl
  rw [← String.toList_inj, ← (@Join.splitOn_injective _ _ separator).eq_iff, contentKey_pieces,
    contentKey_pieces]
  simp only [List.cons_append, List.nil_append, List.cons.injEq, concat, String.toList_inj,
    text_inj wide wide', dateText_inj, toString_inj, Int64.toInt_inj, SameFrame]
  tauto

/-- Transactions of one content have one key, and others have two unless a text is shifted. -/
theorem contentKey_identifies_iff (wide : t.accountID < 2 ^ 128) (wide' : t'.accountID < 2 ^ 128) :
    (contentKey t = contentKey t' ↔ SameContent t t') ↔ ¬ Shifted t t' := by
  rw [contentKey_eq_iff wide wide', sameContent_iff, Shifted]
  constructor
  · rintro identified ⟨frame, pieces, apart⟩
    obtain ⟨_, texts⟩ := identified.mp ⟨frame, pieces⟩
    exact apart (congrArg _ texts)
  · intro whole
    constructor
    · rintro ⟨frame, pieces⟩
      exact ⟨frame, Join.eq_of_pieces pieces (not_not.mp fun apart => whole ⟨frame, pieces, apart⟩)⟩
    · rintro ⟨frame, texts⟩
      exact ⟨frame, congrArg _ texts⟩

/-- The digested text determines the content key and the occurrence. -/
theorem occurrenceKey_injective {key key' : String} {n n' : Nat}
    (same : occurrenceKey key n = occurrenceKey key' n') : key = key' ∧ n = n' := by
  have absent (n : Nat) : separator ∉ (toString n).toList := absent_toString n
  have texts := congrArg String.toList same
  simp only [occurrenceKey, fieldSeparator, String.toList_append] at texts
  rw [List.append_assoc, List.append_assoc] at texts
  obtain ⟨keys, digits⟩ := (Join.append_cons_inj (absent n) (absent n')).mp texts
  have numbers : (n : Int) = n' := toString_inj.mp (String.toList_inj.mp digits)
  exact ⟨String.toList_inj.mp keys, by omega⟩

theorem dedupHash_inj {sha256 : String → String} (collisionless : Function.Injective sha256)
    {n m : Nat} : dedupHash sha256 t n = dedupHash sha256 t' m ↔
      contentKey t = contentKey t' ∧ n = m := by
  rw [dedupHash, dedupHash, collisionless.eq_iff]
  constructor
  · exact occurrenceKey_injective
  · rintro ⟨key, rfl⟩
    rw [key]

/-- The key and the hash tell the two transactions apart just where their contents differ. -/
def Identifies (sha256 : String → String) (t t' : Transaction) : Prop :=
  (contentKey t = contentKey t' ↔ SameContent t t') ∧ ∀ n m : Nat,
    dedupHash sha256 t n = dedupHash sha256 t' m ↔ contentKey t = contentKey t' ∧ n = m

theorem identifies_iff (sha256 : String → String) (collisionless : Function.Injective sha256)
    (t t' : Transaction) (wide : t.accountID < 2 ^ 128) (wide' : t'.accountID < 2 ^ 128) :
    Identifies sha256 t t' ↔ ¬ Shifted t t' := by
  rw [← contentKey_identifies_iff wide wide']
  exact and_iff_left fun n m => dedupHash_inj collisionless

/-! ## Two payments under one key -/

def separatorSite : Site where
  sha256 := id
  counterpartyKey name _ _ := name
  normalizeDescription s := String.ofList (Normalize.description Normalize.asciiTables s.toList)
  taxonomyVersion := "v1"
  rulesetVersion := "v1"
  chunkSize := 1

/-- A credit of one rouble with a description and a document number. -/
def payment (description documentNo : String) : Except Failure Transaction :=
  Ingest.buildTransaction separatorSite 1 ⟨1, 1, .bank, .validated, some "file", none⟩ "BYN"
    ⟨1, "15.01.2026", documentNo, "", "", "", description, "", ⟨"BYN", 0⟩, ⟨"BYN", 100⟩⟩

theorem identifies_sample : ∃ t, payment "A" "B" = .ok t ∧ (Identifies id t t ↔ ¬ Shifted t t) := by
  obtain ⟨t, made⟩ : ∃ t, payment "A" "B" = .ok t := ⟨_, rfl⟩
  cases made
  exact ⟨_, rfl, identifies_iff id Function.injective_id _ _ (by decide) (by decide)⟩

/-- A separator at the end of a description or at the start of a document number, and one of the two
payments is taken for the other. -/
theorem references_collide : ∃ t t', payment "A\x1fB" "C" = .ok t ∧ payment "A" "B\x1fC" = .ok t' ∧
    contentKey t = contentKey t' ∧ ¬ SameContent t t' := by
  refine ⟨_, _, rfl, rfl, by decide +kernel, ?_⟩
  rintro ⟨_, _, _, _, _, references, _⟩
  have apart : "C" ≠ "B\x1fC" := by decide
  exact apart references

end Vekst.Ledger
