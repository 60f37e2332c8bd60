import Mathlib.Algebra.Order.Field.Power
import Mathlib.Data.Rat.Floor
import SeriesQuery.Number.Binary64
import SeriesQuery.Number.Word

/-!
# Doubles as whole numbers

A double that is finite stands for a rational number (`Binary64.rational`).  As a whole number it
loses its fraction, so it moves towards zero, and is cut at the bounds of sixty-four signed bits.
`View.truncated` says so with the rational number, and `toInt_toInt64` that the division of the
significand in `toInt64` comes to the same.
-/

namespace SeriesQuery.Binary64

/-- The number `m · 2^q`, negated if `negative`. -/
def rational (negative : Bool) (m : Nat) (q : Int) : ℚ :=
  if negative then -(m * 2 ^ q) else m * 2 ^ q

/-- The whole number next to a number on the side of zero. -/
def towardZero (v : ℚ) : Int := if 0 ≤ v then ⌊v⌋ else ⌈v⌉

/-- The number of sixty-four signed bits next to a number. -/
def clamp (n : Int) : Int := max Digits.minInt64 (min Digits.maxInt64 n)

/-- The whole number of sixty-four signed bits for what a double stands for.  Zero counts for what
is not a number, the bounds for the infinities, and all others lose their fraction. -/
def View.truncated : View → Int
  | .nan => 0
  | .infinite negative => if negative then Digits.minInt64 else Digits.maxInt64
  | .finite negative m q => clamp (towardZero (rational negative m q))

theorem towardZero_of_nonneg {v : ℚ} (h : 0 ≤ v) : towardZero v = ⌊v⌋ := if_pos h

theorem towardZero_neg {v : ℚ} (h : 0 ≤ v) : towardZero (-v) = -towardZero v := by
  rw [towardZero_of_nonneg h, towardZero]
  split
  next hneg =>
    have hzero : v = 0 := le_antisymm (neg_nonneg.mp hneg) h
    rw [hzero, neg_zero, Int.floor_zero, neg_zero]
  next => exact Int.ceil_neg

/-- The fraction that a significand over a power of two is taken for has its value. -/
theorem scale_div (m : Nat) (q : Int) :
    ((scale m 1 q).1 : ℚ) / (scale m 1 q).2 = m * 2 ^ q := by
  unfold scale
  split
  next hq =>
    obtain ⟨k, rfl⟩ := Int.eq_ofNat_of_zero_le hq
    simp
  next hq =>
    obtain ⟨k, hk⟩ := Int.eq_ofNat_of_zero_le (show 0 ≤ -q by omega)
    obtain rfl : q = -(k : Int) := by omega
    simp [div_eq_mul_inv]

/-- Dividing the fraction without a rest leaves the whole part. -/
theorem towardZero_rational (negative : Bool) (m : Nat) (q : Int) :
    towardZero (rational negative m q) =
      if negative then -(((scale m 1 q).1 / (scale m 1 q).2 : Nat) : Int)
      else ((scale m 1 q).1 / (scale m 1 q).2 : Nat) := by
  have hnonneg : (0 : ℚ) ≤ m * 2 ^ q := by positivity
  have hwhole : towardZero (m * 2 ^ q) = ((scale m 1 q).1 / (scale m 1 q).2 : Nat) := by
    rw [towardZero_of_nonneg hnonneg, ← scale_div, Rat.floor_natCast_div_natCast, Int.natCast_div]
  cases negative with
  | true => rw [rational, if_pos rfl, if_pos rfl, towardZero_neg hnonneg, hwhole]
  | false => exact hwhole

theorem toInt_ofInt_clamp (n : Int) : (Int64.ofInt (clamp n)).toInt = clamp n := by
  refine Int64.toInt_ofInt_of_le ?_ ?_
  · exact le_max_left _ _
  · exact lt_of_le_of_lt (max_le (by decide) (min_le_left _ _)) (by decide)

/-- The whole number that a double is taken for is the one next to it on the side of zero. -/
theorem toInt_toInt64 (x : Binary64) : x.toInt64.toInt = x.view.truncated := by
  unfold toInt64
  cases x.view with
  | nan => rfl
  | infinite negative => cases negative <;> rfl
  | finite negative m q =>
    rw [View.truncated, towardZero_rational]
    exact toInt_ofInt_clamp _

theorem toInt64_eq_iff {x : Binary64} {n : Int64} : x.toInt64 = n ↔ n.toInt = x.view.truncated := by
  rw [← Int64.toInt_inj, toInt_toInt64, eq_comm]

/-- The number -2.75. -/
def withFraction : Binary64 := ofDecimal true 275 (-2)

/-- It is not rounded down. -/
example : withFraction.toInt64 = -2 := by decide +kernel

end SeriesQuery.Binary64
