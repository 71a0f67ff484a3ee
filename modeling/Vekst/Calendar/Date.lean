import Mathlib.Order.Basic
import Mathlib.Order.Lattice
import Vekst.Calendar.Decimal

namespace Calendar

/-- A month of the proleptic Gregorian calendar. -/
structure Month where
  year : Int
  number : Nat
  valid : 1 ≤ number ∧ number ≤ 12
deriving DecidableEq, Repr

def leap (year : Int) : Bool := year % 4 == 0 && (year % 100 != 0 || year % 400 == 0)

def daysIn (year : Int) (month : Nat) : Nat :=
  if month = 2 then (if leap year then 29 else 28)
  else if month = 4 ∨ month = 6 ∨ month = 9 ∨ month = 11 then 30 else 31

theorem daysIn_pos (year : Int) (month : Nat) : 1 ≤ daysIn year month := by
  unfold daysIn
  split_ifs <;> decide

theorem daysIn_le (year : Int) (month : Nat) : daysIn year month ≤ 31 := by
  unfold daysIn
  split_ifs <;> decide

structure Date where
  year : Int
  month : Nat
  day : Nat
  validMonth : 1 ≤ month ∧ month ≤ 12
  validDay : 1 ≤ day ∧ day ≤ daysIn year month
deriving DecidableEq, Repr

namespace Month

theorem january_valid : 1 ≤ 1 ∧ 1 ≤ 12 := by decide

theorem december_valid : 1 ≤ 12 ∧ 12 ≤ 12 := by decide

/-- Months counted from year zero. -/
def index (m : Month) : Int := m.year * 12 + (m.number - 1)

theorem index_injective : Function.Injective index := by
  rintro ⟨y, m, my⟩ ⟨y', m', my'⟩ same
  simp only [index] at same
  obtain ⟨rfl, rfl⟩ : y = y' ∧ m = m' := by omega
  rfl

instance : LinearOrder Month := LinearOrder.lift' index index_injective

theorem le_iff {a b : Month} : a ≤ b ↔ a.index ≤ b.index := Iff.rfl

theorem lt_iff {a b : Month} : a < b ↔ a.index < b.index := Iff.rfl

def next (m : Month) : Month :=
  if last : m.number = 12 then ⟨m.year + 1, 1, january_valid⟩
  else ⟨m.year, m.number + 1, by have := m.valid; omega⟩

theorem index_next (m : Month) : m.next.index = m.index + 1 := by
  unfold next index
  split <;> simp only <;> omega

def firstDay (m : Month) : Date :=
  ⟨m.year, m.number, 1, m.valid, by decide, daysIn_pos _ _⟩

def lastDay (m : Month) : Date :=
  ⟨m.year, m.number, daysIn m.year m.number, m.valid, daysIn_pos _ _, le_rfl⟩

def prev (m : Month) : Month :=
  if first : m.number = 1 then ⟨m.year - 1, 12, december_valid⟩
  else ⟨m.year, m.number - 1, by have := m.valid; omega⟩

theorem index_prev (m : Month) : m.prev.index = m.index - 1 := by
  have valid := m.valid
  unfold prev index
  split <;> simp only <;> omega

theorem prev_next (m : Month) : m.next.prev = m := by
  apply index_injective
  rw [index_prev, index_next]
  omega

end Month

namespace Date

def toMonth (d : Date) : Month := ⟨d.year, d.month, d.validMonth⟩

/-- A number that orders dates: more room than any month needs between one month and the next. -/
def key (d : Date) : Int := d.toMonth.index * 31 + (d.day - 1)

theorem day_le (d : Date) : 1 ≤ d.day ∧ d.day ≤ 31 :=
  ⟨d.validDay.1, d.validDay.2.trans (daysIn_le _ _)⟩

theorem key_injective : Function.Injective key := by
  intro a b same
  have aDay := a.day_le
  have bDay := b.day_le
  simp only [key] at same
  have month : a.toMonth = b.toMonth := Month.index_injective (by omega)
  have day : a.day = b.day := by omega
  obtain ⟨y, m, d, vm, vd⟩ := a
  obtain ⟨y', m', d', vm', vd'⟩ := b
  simp only [toMonth, Month.mk.injEq] at month
  obtain ⟨rfl, rfl⟩ := month
  simp only at day
  subst day
  rfl

instance : LinearOrder Date := LinearOrder.lift' key key_injective

theorem le_iff {a b : Date} : a ≤ b ↔ a.key ≤ b.key := Iff.rfl

theorem lt_iff {a b : Date} : a < b ↔ a.key < b.key := Iff.rfl

/-- The day before. -/
def pred (d : Date) : Date :=
  if first : d.day = 1 then d.toMonth.prev.lastDay
  else ⟨d.year, d.month, d.day - 1, d.validMonth, by have := d.validDay; omega⟩

/-- The day after. -/
def succ (d : Date) : Date :=
  if last : d.day = daysIn d.year d.month then d.toMonth.next.firstDay
  else ⟨d.year, d.month, d.day + 1, d.validMonth, by have := d.validDay; omega⟩

/-- The days before the month within its year. -/
def daysBefore (year : Int) : Nat → Nat
  | 0 => 0
  | 1 => 0
  | month + 2 => daysBefore year (month + 1) + daysIn year (month + 1)

/-- The date's place in a count of days: `a.dayNumber - b.dayNumber` is the days from b to a. -/
def dayNumber (d : Date) : Int :=
  let y := d.year - 1
  y * 365 + y / 4 - y / 100 + y / 400 + daysBefore d.year d.month + d.day

theorem pred_firstDay (m : Month) : m.firstDay.pred = m.prev.lastDay := rfl

theorem pred_firstDay_next (m : Month) : m.next.firstDay.pred = m.lastDay := by
  rw [pred_firstDay, Month.prev_next]

theorem succ_lastDay (m : Month) : m.lastDay.succ = m.next.firstDay := dif_pos rfl

theorem firstDay_le_iff {m : Month} {d : Date} : m.firstDay ≤ d ↔ m ≤ d.toMonth := by
  have day := d.day_le
  have key : m.firstDay.key = m.index * 31 := by
    simp [Date.key, Month.firstDay, toMonth, Month.index]
  rw [le_iff, key, Month.le_iff, Date.key]
  omega

theorem le_lastDay_iff {m : Month} {d : Date} : d ≤ m.lastDay ↔ d.toMonth ≤ m := by
  have day := d.day_le
  have last : m.lastDay.key = m.index * 31 + (daysIn m.year m.number - 1) := rfl
  have short := daysIn_le m.year m.number
  have some := daysIn_pos m.year m.number
  rw [le_iff, last, Month.le_iff, Date.key]
  constructor
  · intro before
    omega
  · intro before
    rcases lt_or_eq_of_le before with less | same
    · omega
    · have month : d.toMonth = m := Month.index_injective same
      have fits : d.day ≤ daysIn m.year m.number := by
        rw [← month]
        exact d.validDay.2
      omega

/-- The closed interval from the first day of a month to the last of another is whole months. -/
theorem between_iff {first last : Month} {d : Date} :
    first.firstDay ≤ d ∧ d ≤ last.lastDay ↔ first ≤ d.toMonth ∧ d.toMonth ≤ last := by
  rw [firstDay_le_iff, le_lastDay_iff]

end Date

end Calendar
