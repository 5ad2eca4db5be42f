import Mathlib.Order.Lattice
import Mathlib.Order.MinMax

/-!
# Saturating arithmetic

`clamp` moves a value to the nearest one in a range.  It decides a comparison with a bound inside
the range as the value itself does (`clamp_le_iff`, `lt_clamp_iff`), and it leaves the values of the
range alone.  `add`, `sub` and `mul` are `saturating_add`, `saturating_sub` and `saturating_mul` of
signed 64-bit integers: the exact result, clamped.
-/

namespace Saturating

section Clamp

variable {α : Type*} [LinearOrder α] {low high : α}

/-- The value of the range nearest to `x`. -/
def clamp (low high x : α) : α := max low (min high x)

/-- A bound below the upper end. -/
theorem clamp_le_iff {b : α} (hlow : low ≤ b) (hhigh : b < high) (x : α) :
    clamp low high x ≤ b ↔ x ≤ b := by
  rw [clamp, max_le_iff, and_iff_right hlow, min_le_iff, or_iff_right (not_le.mpr hhigh)]

/-- A value that is not below the range. -/
theorem clamp_lt_iff {x y : α} (hrange : low ≤ high) (hx : low ≤ x) (hy : y ≤ high) :
    clamp low high x < y ↔ x < y := by
  rw [clamp, max_eq_right (le_min hrange hx), min_lt_iff, or_iff_right (not_lt.mpr hy)]

/-- A value of the range. -/
theorem clamp_of_mem {x : α} (hlow : low ≤ x) (hhigh : x ≤ high) : clamp low high x = x := by
  rw [clamp, min_eq_right hhigh, max_eq_right hlow]

/-- A value above the range. -/
theorem clamp_of_high_le {x : α} (hrange : low ≤ high) (h : high ≤ x) :
    clamp low high x = high := by
  rw [clamp, min_eq_left h, max_eq_right hrange]

/-- A value below the range. -/
theorem clamp_of_le_low {x : α} (hrange : low ≤ high) (h : x ≤ low) : clamp low high x = low := by
  rw [clamp, min_eq_right (h.trans hrange), max_eq_left h]

/-- The value is in the range. -/
theorem clamp_mem (hrange : low ≤ high) (x : α) :
    low ≤ clamp low high x ∧ clamp low high x ≤ high :=
  ⟨le_max_left _ _, max_le hrange (min_le_left _ _)⟩

end Clamp

/-- The least signed 64-bit integer. -/
def i64Min : ℤ := -9223372036854775808

/-- The greatest signed 64-bit integer. -/
def i64Max : ℤ := 9223372036854775807

/-- The signed 64-bit integer nearest to `x`. -/
def ofInt (x : ℤ) : Int64 := .ofInt (clamp i64Min i64Max x)

/-- `i64::saturating_add` -/
def add (a b : Int64) : Int64 := ofInt (a.toInt + b.toInt)

/-- `i64::saturating_sub` -/
def sub (a b : Int64) : Int64 := ofInt (a.toInt - b.toInt)

/-- `i64::saturating_mul` -/
def mul (a b : Int64) : Int64 := ofInt (a.toInt * b.toInt)

/-- Its value. -/
@[simp] theorem toInt_ofInt (x : ℤ) : (ofInt x).toInt = clamp i64Min i64Max x := by
  obtain ⟨hlow, hhigh⟩ := clamp_mem (show i64Min ≤ i64Max by decide) x
  have hmin : i64Min = -2 ^ 63 := rfl
  have hmax : i64Max = 2 ^ 63 - 1 := rfl
  exact Int64.toInt_ofInt_of_le (by omega) (by omega)

/-- The values of signed 64-bit integers. -/
theorem toInt_mem (a : Int64) : i64Min ≤ a.toInt ∧ a.toInt ≤ i64Max := by
  have hle := a.le_toInt
  have hlt := a.toInt_lt
  unfold i64Min i64Max
  omega

/-- A saturating result is above a bound other than the greatest integer exactly when the exact one
is. -/
theorem lt_ofInt_iff {b : Int64} (hb : b.toInt < i64Max) (x : ℤ) : b < ofInt x ↔ b.toInt < x := by
  rw [Int64.lt_iff_toInt_lt, toInt_ofInt, ← not_le, ← not_le,
    clamp_le_iff (toInt_mem b).1 hb]

/-- A saturating result that is not below the range is below a 64-bit integer exactly when the exact
one is. -/
theorem ofInt_lt_iff {x : ℤ} (hx : i64Min ≤ x) (b : Int64) : ofInt x < b ↔ x < b.toInt := by
  rw [Int64.lt_iff_toInt_lt, toInt_ofInt, clamp_lt_iff (by decide) hx (toInt_mem b).2]

end Saturating
