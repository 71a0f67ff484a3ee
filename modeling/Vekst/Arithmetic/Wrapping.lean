import Mathlib.Algebra.BigOperators.Group.List.Basic
import Mathlib.Algebra.Group.Hom.Defs
import Mathlib.Algebra.Ring.Int.Defs

namespace Wrapping

/-- The integers a 64-bit signed machine word holds. -/
def Fits (n : ℤ) : Prop := -2 ^ 63 ≤ n ∧ n < 2 ^ 63

instance (n : ℤ) : Decidable (Fits n) := inferInstanceAs (Decidable (_ ∧ _))

theorem fits_toInt (x : Int64) : Fits x.toInt :=
  ⟨x.le_toInt, x.toInt_lt⟩

instance instAddCommGroupInt64 : AddCommGroup Int64 where
  add_assoc := Int64.add_assoc
  add_comm := Int64.add_comm
  zero_add := Int64.zero_add
  add_zero := Int64.add_zero
  neg_add_cancel := Int64.add_left_neg
  sub_eq_add_neg := Int64.sub_eq_add_neg
  nsmul := nsmulRec
  zsmul := zsmulRec

/-- Wrapping an integer into a word, as a homomorphism: wrapped sums are wraps of exact sums. -/
def wrap : ℤ →+ Int64 where
  toFun := Int64.ofInt
  map_zero' := rfl
  map_add' := Int64.ofInt_add

@[simp] theorem wrap_apply (n : ℤ) : wrap n = Int64.ofInt n := rfl

theorem ofInt_sum (values : List ℤ) : Int64.ofInt values.sum = (values.map Int64.ofInt).sum :=
  map_list_sum wrap values

theorem sum_eq_ofInt (values : List Int64) :
    values.sum = Int64.ofInt (values.map Int64.toInt).sum := by
  rw [ofInt_sum, List.map_map]
  simp [Function.comp_def]

theorem toInt_ofInt_of_fits {n : ℤ} (fits : Fits n) : (Int64.ofInt n).toInt = n :=
  Int64.toInt_ofInt_of_le fits.1 fits.2

/-- A wrapped sum is exact as soon as the exact total fits, whatever the partial sums did. -/
theorem toInt_sum_of_fits {values : List Int64} (fits : Fits (values.map Int64.toInt).sum) :
    values.sum.toInt = (values.map Int64.toInt).sum := by
  rw [sum_eq_ofInt, toInt_ofInt_of_fits fits]

theorem sum_map_ofInt_toInt {α : Type*} (items : List α) (f : α → Int64) :
    (items.map f).sum = Int64.ofInt (items.map fun a => (f a).toInt).sum := by
  rw [sum_eq_ofInt, List.map_map]
  rfl

/-- What a word loses of an integer: nothing if it holds it. -/
def lost (n : ℤ) : ℤ := n - (Int64.ofInt n).toInt

theorem toInt_ofInt_eq (n : ℤ) : (Int64.ofInt n).toInt = n - lost n := by
  unfold lost
  omega

theorem lost_of_fits {n : ℤ} (fits : Fits n) : lost n = 0 := by
  rw [lost, toInt_ofInt_of_fits fits, sub_self]

end Wrapping
