import Mathlib.Data.List.TakeWhile
import Mathlib.Data.String.Basic
import Vekst.Calendar.Decimal

namespace Scan
open Decimal

/-- The white space a scan skips before a number. -/
def isSpace (c : Char) : Bool :=
  let n := c.toNat
  (9 ≤ n && n ≤ 13) || n == 0x20 || n == 0x85 || n == 0xa0 || n == 0x1680 ||
    (0x2000 ≤ n && n ≤ 0x200a) || n == 0x2028 || n == 0x2029 || n == 0x202f || n == 0x205f ||
    n == 0x3000

/-- A newline is refused where the format has none. -/
def skipSpace : List Char → Option (List Char)
  | [] => some []
  | c :: rest =>
      if c = '\n' then none
      else if isSpace c then skipSpace rest
      else some (c :: rest)

def unsigned (negative : Bool) (room : Nat) (input : List Char) : Option (Int × List Char) :=
  let digits := (input.take room).takeWhile Char.isDigit
  if digits = [] then none
  else some (if negative then -(value digits : Int) else value digits, input.drop digits.length)

/-- `%wd`: a sign takes one of the `w` places, and at least one digit must follow. -/
def int (width : Nat) (input : List Char) : Option (Int × List Char) :=
  match skipSpace input with
  | none => none
  | some ('+' :: rest) => unsigned false (width - 1) rest
  | some ('-' :: rest) => unsigned true (width - 1) rest
  | some rest => unsigned false width rest

def literal (expected : Char) : List Char → Option (List Char)
  | [] => none
  | c :: rest => if c = expected then some rest else none

theorem not_isSpace_of_isDigit {c : Char} (digit : c.isDigit) : isSpace c = false := by
  have bounds := Char.isDigit_iff_toNat.mp digit
  have nine : '9'.toNat = 57 := rfl
  have zero : '0'.toNat = 48 := rfl
  simp only [isSpace, Bool.or_eq_false_iff, Bool.and_eq_false_iff, decide_eq_false_iff_not,
    beq_eq_false_iff_ne]
  omega

theorem ne_of_isDigit {c d : Char} (digit : c.isDigit) (other : d.isDigit = false) : c ≠ d := by
  rintro rfl
  rw [digit] at other
  cases other

theorem unsigned_digits {digits rest : List Char} {room : Nat} (some : digits ≠ [])
    (known : ∀ c ∈ digits, c.isDigit) (fits : digits.length = room) :
    unsigned false room (digits ++ rest) = .some ((value digits : Int), rest) := by
  have taken : (digits ++ rest).take room = digits := by
    rw [← fits]
    exact List.take_left
  have all : digits.takeWhile Char.isDigit = digits := List.takeWhile_eq_self_iff.mpr known
  simp [unsigned, taken, all, some]

theorem int_digits {digits rest : List Char} {width : Nat} (positive : 0 < width)
    (known : ∀ c ∈ digits, c.isDigit) (fits : digits.length = width) :
    int width (digits ++ rest) = .some ((value digits : Int), rest) := by
  cases digits with
  | nil =>
      simp only [List.length_nil] at fits
      omega
  | cons c digits =>
      have digit := known c (by simp)
      have noSpace := not_isSpace_of_isDigit digit
      have noBreak : c ≠ '\n' := ne_of_isDigit digit rfl
      have noPlus : c ≠ '+' := ne_of_isDigit digit rfl
      have noMinus : c ≠ '-' := ne_of_isDigit digit rfl
      have skipped : skipSpace (c :: digits ++ rest) = some (c :: digits ++ rest) := by
        simp [skipSpace, noBreak, noSpace]
      have read : unsigned false width (c :: digits ++ rest) =
          some ((value (c :: digits) : Int), rest) :=
        unsigned_digits (List.cons_ne_nil c digits) known fits
      unfold int
      rw [skipped]
      split
      next absent => cases absent
      next tail head =>
        simp only [List.cons_append, Option.some.injEq, List.cons.injEq] at head
        exact absurd head.1 noPlus
      next tail head =>
        simp only [List.cons_append, Option.some.injEq, List.cons.injEq] at head
        exact absurd head.1 noMinus
      next tail head =>
        obtain rfl := Option.some.inj head
        exact read

theorem int_padded {width n : Nat} (rest : List Char) (positive : 0 < width)
    (small : n < 10 ^ width) : int width (padded width n ++ rest) = some ((n : Int), rest) := by
  rw [int_digits positive (fun _ => isDigit_of_mem_padded) (length_padded positive small),
    value_padded]

theorem utf8ByteSize_ofList_of_ascii {text : List Char} (ascii : ∀ c ∈ text, c.utf8Size = 1) :
    (String.ofList text).utf8ByteSize = text.length := by
  rw [String.utf8ByteSize_ofList]
  induction text with
  | nil => rfl
  | cons c rest ih =>
      rw [String.utf8Len_cons, ih fun d member => ascii d (by simp [member]), ascii c (by simp)]
      rfl

theorem utf8Size_of_isDigit {c : Char} (digit : c.isDigit) : c.utf8Size = 1 := by
  have bounds := Char.isDigit_iff_toNat.mp digit
  have nine : '9'.toNat = 57 := rfl
  have small : c.val ≤ 0x7f := by
    rw [UInt32.le_iff_toNat_le]
    have same : c.val.toNat = c.toNat := rfl
    have top : (0x7f : UInt32).toNat = 127 := rfl
    omega
  simp [Char.utf8Size, small]

@[simp] theorem literal_cons (c : Char) (rest : List Char) : literal c (c :: rest) = some rest := by
  simp [literal]

/-! ## What a scan reads -/

/-- White space that no newline breaks. -/
def Blank (spaces : List Char) : Prop := ∀ c ∈ spaces, isSpace c = true ∧ c ≠ '\n'

/-- The digits a scan takes: as many as follow one another in the places it has. -/
structure Numeral (room : Nat) (digits rest : List Char) : Prop where
  some_ : digits ≠ []
  known : ∀ c ∈ digits, c.isDigit
  fits : digits.length ≤ room
  stops : digits.length < room → ∀ c ∈ rest.head?, c.isDigit = false

/-- A text that opens with white space, a sign and a number, and goes on as `rest`. -/
inductive Opens (width : Nat) : List Char → Int → List Char → Prop
  | unsigned {spaces digits rest : List Char} : Blank spaces → Numeral width digits rest →
      Opens width (spaces ++ (digits ++ rest)) (value digits) rest
  | plus {spaces digits rest : List Char} : Blank spaces → Numeral (width - 1) digits rest →
      Opens width (spaces ++ '+' :: (digits ++ rest)) (value digits) rest
  | minus {spaces digits rest : List Char} : Blank spaces → Numeral (width - 1) digits rest →
      Opens width (spaces ++ '-' :: (digits ++ rest)) (-(value digits : Int)) rest

theorem skipSpace_blank {spaces after : List Char} (blank : Blank spaces)
    (stops : ∀ c ∈ after.head?, isSpace c = false) :
    skipSpace (spaces ++ after) = some after := by
  induction spaces with
  | nil =>
      cases after with
      | nil => rfl
      | cons c after =>
          have notSpace := stops c rfl
          have noBreak : c ≠ '\n' := by
            rintro rfl
            cases notSpace
          simp [skipSpace, noBreak, notSpace]
  | cons c spaces ih =>
      obtain ⟨space, noBreak⟩ := blank c (by simp)
      have tail := ih fun d member => blank d (by simp [member])
      simp [skipSpace, noBreak, space, tail]

theorem skipSpace_ok {text after : List Char} (skipped : skipSpace text = some after) :
    ∃ spaces, Blank spaces ∧ text = spaces ++ after := by
  induction text with
  | nil =>
      obtain rfl := Option.some.inj skipped
      exact ⟨[], by simp [Blank], rfl⟩
  | cons c text ih =>
      simp only [skipSpace] at skipped
      split_ifs at skipped with newline space
      · obtain ⟨spaces, blank, rfl⟩ := ih skipped
        refine ⟨c :: spaces, ?_, rfl⟩
        intro d member
        rcases List.mem_cons.mp member with rfl | tail
        · exact ⟨space, newline⟩
        · exact blank d tail
      · obtain rfl := Option.some.inj skipped
        exact ⟨[], by simp [Blank], rfl⟩

theorem numeral_takeWhile {room : Nat} {input : List Char}
    (some_ : (input.take room).takeWhile Char.isDigit ≠ []) :
    ∃ rest, input = (input.take room).takeWhile Char.isDigit ++ rest ∧
      Numeral room ((input.take room).takeWhile Char.isDigit) rest := by
  have bound := List.length_take_le room input
  have halves := @List.takeWhile_append_dropWhile _ Char.isDigit (input.take room)
  have notDigit := List.head?_dropWhile_not Char.isDigit (input.take room)
  have digit : ∀ c ∈ (input.take room).takeWhile Char.isDigit, c.isDigit = true :=
    fun c member => List.mem_takeWhile_imp member
  generalize (input.take room).takeWhile Char.isDigit = digits at *
  generalize (input.take room).dropWhile Char.isDigit = after at *
  have short := congrArg List.length halves
  rw [List.length_append] at short
  refine ⟨after ++ input.drop room, ?_, some_, digit, by omega, ?_⟩
  · rw [← List.append_assoc, halves, List.take_append_drop]
  · intro more c head
    cases after with
    | cons d after =>
        obtain rfl : d = c := Option.some.inj head
        exact notDigit
    | nil =>
        -- Nothing was left in the places of the number, so the input ended before them.
        have ended : input.drop room = [] := by
          apply List.drop_of_length_le
          rw [List.length_take] at short bound
          simp only [List.length_nil] at short
          omega
        rw [List.nil_append, ended] at head
        cases head

theorem unsigned_eq_some_iff {negative : Bool} {room : Nat} {input rest : List Char} {n : Int} :
    unsigned negative room input = some (n, rest) ↔
      ∃ digits, Numeral room digits rest ∧ input = digits ++ rest ∧
        n = if negative then -(value digits : Int) else value digits := by
  constructor
  · intro read
    unfold unsigned at read
    obtain ⟨some_, found⟩ := Option.ite_none_left_eq_some.mp read
    obtain ⟨number, remaining⟩ := Prod.mk.inj (Option.some.inj found)
    obtain ⟨after, whole, numeral⟩ := numeral_takeWhile some_
    have dropped := congrArg (List.drop ((input.take room).takeWhile Char.isDigit).length) whole
    rw [List.drop_left, remaining] at dropped
    subst dropped
    exact ⟨_, numeral, whole, number.symm⟩
  · rintro ⟨digits, numeral, rfl, rfl⟩
    have taken : ((digits ++ rest).take room).takeWhile Char.isDigit = digits := by
      rw [List.take_append, List.take_of_length_le numeral.fits,
        List.takeWhile_append_of_pos numeral.known]
      rcases Nat.eq_zero_or_pos (room - digits.length) with full | free
      · simp [full]
      · have stops := numeral.stops (by omega)
        cases rest with
        | nil => simp
        | cons c rest =>
            have notDigit := stops c rfl
            obtain ⟨k, same⟩ := Nat.exists_eq_succ_of_ne_zero free.ne'
            simp [same, notDigit]
    simp only [unsigned, taken, numeral.some_, if_false, List.drop_left]

theorem Numeral.head {room : Nat} {digits rest : List Char} (numeral : Numeral room digits rest) :
    ∃ c tail, digits ++ rest = c :: tail ∧ c.isDigit = true := by
  have known := numeral.known
  cases digits with
  | nil => exact absurd rfl numeral.some_
  | cons c digits => exact ⟨c, digits ++ rest, rfl, known c (by simp)⟩

theorem int_eq_some_iff {width : Nat} {text rest : List Char} {n : Int} :
    int width text = some (n, rest) ↔ Opens width text n rest := by
  constructor
  · intro read
    unfold int at read
    split at read
    next => cases read
    next tail skipped =>
      obtain ⟨spaces, blank, rfl⟩ := skipSpace_ok skipped
      obtain ⟨digits, numeral, rfl, rfl⟩ := unsigned_eq_some_iff.mp read
      exact .plus blank numeral
    next tail skipped =>
      obtain ⟨spaces, blank, rfl⟩ := skipSpace_ok skipped
      obtain ⟨digits, numeral, rfl, rfl⟩ := unsigned_eq_some_iff.mp read
      exact .minus blank numeral
    next tail _ _ skipped =>
      obtain ⟨spaces, blank, rfl⟩ := skipSpace_ok skipped
      obtain ⟨digits, numeral, rfl, rfl⟩ := unsigned_eq_some_iff.mp read
      exact .unsigned blank numeral
  · intro opens
    cases opens with
    | @unsigned spaces digits rest blank numeral =>
        obtain ⟨c, tail, head, digit⟩ := numeral.head
        have skipped : skipSpace (spaces ++ (digits ++ rest)) = some (digits ++ rest) := by
          apply skipSpace_blank blank
          rw [head]
          intro d first
          obtain rfl : c = d := Option.some.inj first
          exact not_isSpace_of_isDigit digit
        have read : Scan.unsigned false width (digits ++ rest) = some ((value digits : Int), rest) :=
          unsigned_eq_some_iff.mpr ⟨digits, numeral, rfl, rfl⟩
        unfold int
        rw [skipped]
        split
        next absent => cases absent
        next other plus =>
          rw [head] at plus
          obtain ⟨rfl, -⟩ := List.cons.inj (Option.some.inj plus)
          cases digit
        next other minus =>
          rw [head] at minus
          obtain ⟨rfl, -⟩ := List.cons.inj (Option.some.inj minus)
          cases digit
        next other _ _ same =>
          obtain rfl := Option.some.inj same
          exact read
    | @plus spaces digits rest blank numeral =>
        have skipped : skipSpace (spaces ++ '+' :: (digits ++ rest)) =
            some ('+' :: (digits ++ rest)) :=
          skipSpace_blank blank (by simp [isSpace])
        have read : Scan.unsigned false (width - 1) (digits ++ rest) =
            some ((value digits : Int), rest) :=
          unsigned_eq_some_iff.mpr ⟨digits, numeral, rfl, rfl⟩
        simp only [int, skipped, read]
    | @minus spaces digits rest blank numeral =>
        have skipped : skipSpace (spaces ++ '-' :: (digits ++ rest)) =
            some ('-' :: (digits ++ rest)) :=
          skipSpace_blank blank (by simp [isSpace])
        have read : Scan.unsigned true (width - 1) (digits ++ rest) =
            some (-(value digits : Int), rest) :=
          unsigned_eq_some_iff.mpr ⟨digits, numeral, rfl, rfl⟩
        simp only [int, skipped, read]

theorem literal_eq_some_iff {expected : Char} {text rest : List Char} :
    literal expected text = some rest ↔ text = expected :: rest := by
  cases text with
  | nil => simp [literal]
  | cons c text =>
      simp only [literal, Option.ite_none_right_eq_some, Option.some.injEq, List.cons.injEq]

end Scan
